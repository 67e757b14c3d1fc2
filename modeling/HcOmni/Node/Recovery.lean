import HcOmni.Node.Worker

/-!
# Rolling back and starting again

`clear_all_state`, `RewindDBs` and `mastercore_init_ex` (`omnicore.cpp`), `omni_rollback`
(`rpctx.cpp`) and `LoadMostRelevantInMemoryStateEx` (`persistence.cpp`).

The databases are rolled back one by one; then the newest block with a usable set of state files is
looked for, from the top of the block history downwards.
-/

namespace HcOmni

open Std Program Text

/-! ### Rolling back the databases -/

/-- Whether `COmniFeeCache::RollBackCache` looks at a property: those with an identifier below the
next one of their ecosystem. -/
def CMPSPInfo.issued (sps : CMPSPInfo) (propertyId : PropertyId) : Bool :=
  decide (1 ≤ propertyId ∧ propertyId < sps.nextSpid) ||
    decide (TEST_ECO_PROPERTY_1 ≤ propertyId ∧ propertyId < sps.nextTestSpid)

/-- `COmniFeeCache::RollBackCache` -/
def State.rollBackCache (s : State) (block : Int) : State :=
  { s with
    feecache := s.feecache.map fun propertyId items =>
      if s.mySps.issued propertyId then items.filter fun itemBlock _ => decide (itemBlock < block)
      else items }

/-- The types that `CheckForFreezeTxs` looks for. -/
def isFreezeType (type : Nat) : Bool :=
  type == MSC_TYPE_FREEZE_PROPERTY_TOKENS || type == MSC_TYPE_UNFREEZE_PROPERTY_TOKENS ||
    type == MSC_TYPE_ENABLE_FREEZING || type == MSC_TYPE_DISABLE_FREEZING

/-- `CheckForFreezeTxs`; the type is read into a `uint16_t`. -/
def Node.checkForFreezeTxs (n : Node) (blockHeight : Int) : Bool :=
  n.txList.any fun _ record =>
    decide (blockHeight ≤ record.block) && isFreezeType (record.type % 2 ^ 16)

/-- `clear_all_state`, the part in the engine. -/
def State.cleared (params : ConsensusParams) (s : State) : State where
  mySps := { exodusAddress := s.mySps.exodusAddress }
  aux := { params := params, distributionThresholds := s.aux.distributionThresholds }

/-- `clear_all_state` -/
def Node.clearAllState (params : ConsensusParams) (n : Node) : Node :=
  { n with
    core := n.core.cleared params
    myPending := ∅
    txHistory := {}
    paymentTxHistory := {}
    blockHistory := {}
    localBlockInfo := {}
    localTxInfo := {}
    txList := ∅ }

/-- The part of `RewindDBs` that takes the blocks from `nHeight` on out of the databases. -/
def Node.rollBackDBs (n : Node) (nHeight top : Int) : Node :=
  { n with
    core := n.core.rollBackCache nHeight
    txList := n.txList.filter fun _ record =>
      !decide (nHeight ≤ record.block ∧ record.block ≤ max top 1)
    txHistory := n.txHistory.rollBackHistory nHeight
    paymentTxHistory := n.paymentTxHistory.rollBackHistory nHeight
    blockHistory := n.blockHistory.rollBackHistory nHeight top
    localBlockInfo := n.localBlockInfo.rollBackHistory nHeight
    localTxInfo := n.localTxInfo.rollBackHistory nHeight }

/-! ### Loading the state -/

/-- The inner loop of `LoadMostRelevantInMemoryStateEx`: the files of a block, up to the first one
that cannot be restored. -/
def restoreFiles (fenv : FileEnv) (files : StateFiles) : List FileType → Op Int
  | [] => pure 0
  | what :: rest => do
      let success ← restoreInMemoryState fenv (files what) what true
      if success < 0 then pure success else restoreFiles fenv files rest

/-- The files of a block are restored if there are any. -/
def restorePersisted (fenv : FileEnv) (persistedBlocks : List Hash) (hash : Hash)
    (files : StateFiles) : NodeOp Int :=
  if hash ∈ persistedBlocks then engine (restoreFiles fenv files fileTypes) else pure (-1)

/-- `popBlock`, called by the node. -/
def popBlock (hash : Hash) : NodeOp Int := fun n =>
  .ok (n.core.mySps.popBlock hash).1 { n with core.mySps := (n.core.mySps.popBlock hash).2 }

/-- The outer loop of `LoadMostRelevantInMemoryStateEx`, from the block before `index` downwards:
the height of the block whose files were restored, or -1. -/
def loadLoop (fenv : FileEnv) : (index : Nat) → (persistedBlocks : List Hash) → NodeOp Int
  | 0, _ => pure (-1)
  | k + 1, persistedBlocks => do
      let n ← get
      match n.blockHistory.getBlockHistory k with
      | none => loadLoop fenv k persistedBlocks
      | some record => do
          modify fun n => { n with core.mySps := n.core.mySps.setWatermark record.hash }
          let success ← restorePersisted fenv persistedBlocks record.hash (n.stateFile record.hash)
          if success ≥ 0 then pure record.height
          else do
            let remainingSPs ← popBlock record.hash
            if remainingSPs ≤ 0 then pure (-1)
            else loadLoop fenv k (persistedBlocks.erase record.hash)

/-- `LoadMostRelevantInMemoryStateEx`.  When a block was found, the set of blocks with files is not
empty; when none was found, the result is -1 anyway. -/
def loadMostRelevantInMemoryStateEx (fenv : FileEnv) : NodeOp Int := do
  let n ← get
  match n.core.mySps.watermark with
  | none => pure (-1)
  | some _ => loadLoop fenv (n.blockHistory.getTopBlock + 1).toNat n.statefulBlockHashes

/-! ### The calls -/

/-- The end of `RewindDBs`: the height is set to the waterline. -/
def setWaterline (waterline : Int) : NodeOp Unit :=
  modify fun n => { n with waterlineBlock := waterline, latestBlock := waterline }

/-- `RewindDBs` -/
def rewindDBs (nenv : NodeEnv) (nHeight top : Int) : NodeOp Unit := do
  modify fun n => if nHeight ≤ 0 then n.clearAllState nenv.params else n
  let n ← get
  modify fun n => n.rollBackDBs nHeight top
  if n.checkForFreezeTxs nHeight then do
    modify fun n => n.clearAllState nenv.params
    setWaterline 0
  else do
    let bestStateBlock ← loadMostRelevantInMemoryStateEx nenv.fenv
    if bestStateBlock < 0 then do
      modify fun n => n.clearAllState nenv.params
      setWaterline 0
    else setWaterline bestStateBlock

/-- `omni_rollback` -/
def omniRollback (nenv : NodeEnv) (height : Int) : NodeOp Unit := do
  let n ← get
  rewindDBs nenv height (if height > n.latestBlock then height else n.latestBlock)

/-- What a new process finds: the databases and the files, and nothing in memory. -/
def Node.restarted (params : ConsensusParams) (n : Node) : Node :=
  { n with
    core :=
      { mySps := { n.core.mySps with nextSpid := 3, nextTestSpid := TEST_ECO_PROPERTY_1 }
        feecache := n.core.feecache
        aux := { params := params, records := n.core.aux.records } }
    myPending := ∅
    notifications := []
    latestBlock := -1
    latestBlockHash := 0
    latestBlockTime := 0
    waterlineBlock := 0 }

/-- `mastercore_init_ex`, without the loading of activations, alerts and frozen addresses. -/
def mastercoreInitEx (nenv : NodeEnv) : NodeOp Unit := do
  modify fun n => { n with latestBlock := n.blockHistory.getTopBlock }
  let waterline ← loadMostRelevantInMemoryStateEx nenv.fenv
  modify fun n => { n with waterlineBlock := waterline }
  modify fun n => if waterline ≤ 0 then n.clearAllState nenv.params else n

end HcOmni
