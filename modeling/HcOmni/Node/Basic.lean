import HcOmni.Node.Stores

/-!
# The state of the node

The engine's state together with everything the node keeps around it: the pending transactions, the
databases, the state files, the queue of the thread that writes them, and the height reached.

The node's functions run in `NodeOp`; `engine` runs a function of the engine inside the node.
-/

namespace HcOmni

open Std

/-- `CMPPending` -/
structure CMPPending where
  src : Address
  dst : Address
  amount : Int
  prop : PropertyId
  type : Nat
  deriving DecidableEq, Repr

/-- `CDataNotify`: the block whose state the writing thread is asked to store. -/
structure CDataNotify where
  data : Hash
  height : Int
  deriving DecidableEq, Repr

/-- What `recordTX` stores about a transaction, without its amount. -/
structure TxListRecord where
  valid : Bool
  block : Int
  type : Nat
  deriving DecidableEq, Repr

/-- The calls that results count. -/
inductive Call where
  /-- `interpretPacket` of the transaction -/
  | interpretPacket (txid : Hash)
  /-- `DEx_payment` for an output of the transaction -/
  | dexPayment (txid : Hash) (idx : Int)
  deriving DecidableEq, Repr

/-- The files of one block, by type; the contents of a file that exists. -/
abbrev StateFiles := FileType → Option Str

structure Node where
  core : State
  myPending : ExtTreeMap Hash CMPPending compare := ∅
  txHistory : COmniTxHistory := {}
  paymentTxHistory : COmniTxHistory := {}
  blockHistory : COmniBlockHistory := {}
  localBlockInfo : CLocalBlockInfo := {}
  localTxInfo : CLocalTxInfo := {}
  txList : ExtTreeMap Hash TxListRecord compare := ∅
  /-- the persistence directory, by the block hash in the file names -/
  files : ExtTreeMap Hash StateFiles compare := ∅
  /-- what was put into the queue of the writing thread and not yet taken out -/
  notifications : List CDataNotify := []
  latestBlock : Int := -1
  latestBlockHash : Hash := 0
  latestBlockTime : Int := 0
  waterlineBlock : Int := 0
  /-- the calls made so far; no function reads them -/
  calls : List Call := []

/-- What the node's functions depend on: the engine's surroundings, those of the files, and the
consensus parameters of the network. -/
structure NodeEnv where
  env : Env
  fenv : FileEnv
  params : ConsensusParams

/-- A function of the node. -/
abbrev NodeOp := EStateM Halt Node

/-- A function of the engine, run by the node. -/
def engine {α : Type} (m : Op α) : NodeOp α := fun n =>
  match m n.core with
  | .ok a s => .ok a { n with core := s }
  | .error halt s => .error halt { n with core := s }

/-! ### Pending transactions -/

/-- An update of the pending tally that is only made under a condition; `true` if it is not made. -/
def updatePendingIf (wanted : Bool) (who : Address) (propertyId : PropertyId) (amount : Int) :
    NodeOp Bool :=
  if wanted then engine (updateTallyMap who propertyId amount .PENDING) else pure true

/-- `PendingAdd`.  An entry that is there already under the hash is kept. -/
def pendingAdd (txid : Hash) (sendingAddress destinationAddress : Address) (type : Nat)
    (propertyId : PropertyId) (amount : Int) (fSubtract : Bool) : NodeOp Unit := do
  let subtracted ← updatePendingIf (fSubtract && !sendingAddress.isEmpty) sendingAddress propertyId
    (toInt64 (-amount))
  if subtracted then do
    let added ← updatePendingIf
      (fSubtract && type == MSC_TYPE_SIMPLE_SEND && !destinationAddress.isEmpty) destinationAddress
      propertyId amount
    if added then
      modify fun n =>
        { n with
          myPending := n.myPending.insertIfNew txid
            { src := sendingAddress, dst := destinationAddress, amount := amount,
              prop := propertyId, type := type } }
    else pure ()
  else pure ()

/-- `PendingDelete`.  Nothing is given back if the source has no pending amount, and it is not
looked at whether an update succeeds. -/
def pendingDelete (txid : Hash) : NodeOp Unit := do
  let n ← get
  match n.myPending[txid]? with
  | none => pure ()
  | some pending => do
      let srcAmount := n.core.getTokenBalance pending.src pending.prop .PENDING
      let _ ← updatePendingIf (decide (srcAmount ≠ 0) && !pending.src.isEmpty) pending.src
        pending.prop pending.amount
      let _ ← updatePendingIf (decide (srcAmount ≠ 0) && pending.type == MSC_TYPE_SIMPLE_SEND &&
        !pending.dst.isEmpty) pending.dst pending.prop (toInt64 (-pending.amount))
      modify fun n => { n with myPending := n.myPending.erase txid }

/-- `GetAvailableTokenBalance` -/
def State.getAvailableTokenBalance (s : State) (address : Address) (propertyId : PropertyId) : Int :=
  toInt64 (s.getTokenBalance address propertyId .BALANCE +
    s.getTokenBalance address propertyId .PENDING)

end HcOmni
