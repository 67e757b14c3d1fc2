import HcOmni.Node.Basic

/-!
# The calls of the node

`mastercore_handler_mptx` (`omnicore.cpp`) and the calls of `rpc.cpp` that deliver transactions,
payments and blocks.  A message that is too early is parked; connecting a block replays what is
parked for the blocks that follow it.
-/

namespace HcOmni

open Std Text

/-- The transaction that the handler sets up from a message. -/
def TxMessage.transaction (message : TxMessage) : CMPTransaction where
  txid := message.vecTxHash
  block := toInt32 message.block
  blockTime := message.time
  txIdx := (message.idx % 2 ^ 32).toNat
  txFeePaid := (message.fee % 2 ^ 64).toNat
  blockHash := uint256S message.blockHash
  payload := parseHex message.scriptEncode
  sender := message.sender
  receiver := message.reference
  nValue := (message.block % 2 ^ 64).toNat
  nNewValue := (message.block % 2 ^ 64).toNat

/-- The first part of the handler: a transaction that is in no block yet.  A simple send becomes a
pending transaction without a source. -/
def handleUnconfirmed (message : TxMessage) : NodeOp Bool :=
  let tx := message.transaction
  if tx.pktSize < 16 then pure false
  else if tx.readUInt 2 2 ≠ MSC_TYPE_SIMPLE_SEND then pure true
  else do
    pendingAdd message.vecTxHash [] message.reference MSC_TYPE_SIMPLE_SEND (tx.readUInt 4 4)
      (toInt64 (tx.readUInt 8 8)) true
    pure true

/-- The last part of the handler: the transaction is interpreted unless it was before.  What was
before is looked up under the text of the message and stored under the text of the hash. -/
def processTransaction (nenv : NodeEnv) (message : TxMessage) : NodeOp Bool := do
  let n ← get
  if (n.txHistory.getHistory message.txHash).isSome then pure true
  else do
    pendingDelete message.vecTxHash
    modify fun n =>
      { n with
        txHistory := n.txHistory.putHistory (uint256ToString message.vecTxHash)
          (toInt32 message.block)
        calls := n.calls ++ [.interpretPacket message.vecTxHash] }
    let interpRet ← engine (callRc (interpretPacket nenv.env message.transaction))
    if interpRet = -83055 then pure false
    else do
      -- only structurally valid transactions get recorded
      if interpRet ≠ PKT_ERROR - 2 then
        modify fun n =>
          { n with
            txList := n.txList.insert message.vecTxHash
              { valid := decide (0 ≤ interpRet), block := toInt32 message.block,
                type := message.transaction.readUInt 2 2 } }
      pure (decide (interpRet = 0))

/-- `mastercore_handler_mptx` -/
def mastercoreHandlerMptx (nenv : NodeEnv) (message : TxMessage) : NodeOp Bool := do
  if message.block = 0 then handleUnconfirmed message
  else do
    let n ← get
    if n.latestBlock + 1 ≠ message.block ∧ n.latestBlock > 0 then do
      modify fun n => { n with localTxInfo := n.localTxInfo.putData message }
      pure true
    else processTransaction nenv message

/-- The parameters of `omni_processpayment`. -/
structure PaymentMessage where
  sender : Address
  reference : Address
  txHash : Str
  amount : Int
  block : Int
  idx : Int
  deriving DecidableEq, Repr

/-- `omni_processpayment` -/
def omniProcesspayment (nenv : NodeEnv) (message : PaymentMessage) : NodeOp Unit := do
  let n ← get
  if (n.paymentTxHistory.getHistory message.txHash).isSome then pure ()
  else do
    let vecTxHash := uint256S message.txHash
    modify fun n =>
      { n with
        paymentTxHistory := n.paymentTxHistory.putHistory (uint256ToString vecTxHash)
          (toInt32 message.block)
        calls := n.calls ++ [.dexPayment vecTxHash message.idx] }
    let rc ← engine (callRc (Prod.fst <$> dexPayment nenv.env vecTxHash
      (message.idx % 2 ^ 32).toNat message.sender message.reference message.amount
      (toInt32 message.block)))
    -- the record of the payment replaces one of the transaction
    if rc = 0 then
      modify fun n =>
        { n with
          txList := n.txList.insert vecTxHash
            { valid := true, block := toInt32 message.block, type := 99999999 } }

/-- `PersistInMemoryStateEx` -/
def persistInMemoryStateEx (height : Int) (hash : Hash) : NodeOp Unit :=
  modify fun n =>
    { n with
      notifications := n.notifications ++ [⟨hash, height⟩]
      core.mySps := n.core.mySps.setWatermark hash }

/-- The part of `onblockconnected_p` before the state is handed to the writing thread. -/
def connectBlock (nenv : NodeEnv) (message : BlockMessage) : NodeOp Unit := do
  let hash := uint256S message.hash
  modify fun n =>
    { n with
      latestBlock := message.height
      latestBlockHash := hash
      latestBlockTime := message.time
      core.mySps := n.core.mySps.setWatermark hash
      waterlineBlock := message.height }
  engine (eraseExpiredAccepts message.height)
  let _ ← engine
    (callRc (calculateAndUpdateDevmsc nenv.env (message.time % 2 ^ 32).toNat message.height))
  modify fun n =>
    { n with blockHistory := n.blockHistory.putBlockHistory message.height hash message.time }

/-- `onblockconnected_p` -/
def onblockconnectedP (nenv : NodeEnv) (message : BlockMessage) : NodeOp Unit := do
  connectBlock nenv message
  let n ← get
  if message.height ≥ n.core.aux.params.genesisBlock then
    persistInMemoryStateEx message.height (uint256S message.hash)

/-- A parked transaction is read back and handled; a text that cannot be read is an exception. -/
def replayTransaction (nenv : NodeEnv) (message : TxMessage) : NodeOp Unit :=
  if message.readable then do
    let _ ← mastercoreHandlerMptx nenv message
  else throw .thrown

/-- One round of the loop of `omni_onblockconnected`: the block parked for the next height, after
the transactions parked for it. -/
def replayBlock (nenv : NodeEnv) (index : Int) (blockInfo : BlockMessage) : NodeOp Unit := do
  let n ← get
  (n.localTxInfo.getTxInfo index).forM (replayTransaction nenv)
  modify fun n =>
    { n with
      localTxInfo := n.localTxInfo.delete index
      localBlockInfo := n.localBlockInfo.delete index }
  onblockconnectedP nenv blockInfo

/-- The loop of `omni_onblockconnected`; returns whether anything was replayed.  Every round
removes a parked block, which bounds the number of rounds. -/
def replayParked (nenv : NodeEnv) : (rounds : Nat) → (index : Int) → (replayed : Bool) → NodeOp Bool
  | 0, _, replayed => pure replayed
  | rounds + 1, index, replayed => do
      let n ← get
      match n.localBlockInfo.getBlockInfo index with
      | none => pure replayed
      | some blockInfo => do
          replayBlock nenv index blockInfo
          replayParked nenv rounds (index + 1) true

/-- `omni_onblockconnected` -/
def omniOnblockconnected (nenv : NodeEnv) (message : BlockMessage) : NodeOp Unit := do
  let n ← get
  if message.height - 1 ≠ n.latestBlock ∧ message.height > n.latestBlock ∧ n.latestBlock > 0 then
    modify fun n => { n with localBlockInfo := n.localBlockInfo.putInfo message }
  else do
    onblockconnectedP nenv message
    let n ← get
    let replayed ←
      replayParked nenv (n.localBlockInfo.info.size + 1) (n.latestBlock + 1) false
    if replayed then
      modify fun n => { n with localTxInfo := {}, localBlockInfo := {} }

/-! ### Runs -/

/-- A call that delivers something to the node. -/
inductive Message where
  | tx (message : TxMessage)
  | payment (message : PaymentMessage)
  | block (message : BlockMessage)
  deriving DecidableEq, Repr

/-- The call made for a message.  What it returns is only an answer to the caller. -/
def Message.handle (nenv : NodeEnv) : Message → NodeOp Unit
  | .tx message => do let _ ← mastercoreHandlerMptx nenv message
  | .payment message => omniProcesspayment nenv message
  | .block message => omniOnblockconnected nenv message

/-- The node after a call, if the process survives it. -/
def survive (m : NodeOp Unit) (n : Node) : Option Node :=
  match m n with
  | .ok _ n' => some n'
  | .error halt n' => if halt.Live then some n' else none

/-- The node after a message. -/
def deliver (nenv : NodeEnv) (n : Node) (message : Message) : Option Node :=
  survive (message.handle nenv) n

/-- The node after a list of messages, if the process survives all of them. -/
def deliverAll (nenv : NodeEnv) (n : Node) (messages : List Message) : Option Node :=
  messages.foldlM (deliver nenv) n

end HcOmni
