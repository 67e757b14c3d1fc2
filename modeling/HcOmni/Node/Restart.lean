import HcOmni.Node.Activations
import HcOmni.Node.Restoring
import HcOmni.Persist.Databases

/-!
# Feature heights after a recovery

The heights from which features are active are kept in memory only.  A new process begins with those of
the network and calls `LoadActivations`, which looks up the recorded activations with `GetTransaction`:
in the memory pool and the blocks of the client itself, and not in what was delivered.  Deactivations
are not looked up at all.  `RewindDBs` leaves the heights as they are unless it clears everything.
-/

namespace HcOmni

open Std Program Text

/-! ### Loading the activations -/

/-- What `GetTransaction`, `GetBlockIndex` and `ParseTransaction` find out about a transaction from the
client's own pool and blocks: the height of its block and its packet. -/
abbrev OwnChain := Hash → Option (Int × CMPTransaction)

/-- `loadOrder`, the valid activations of the transaction list. -/
def Node.loadOrder (n : Node) : List (Int × Hash) :=
  (n.txList.toList.filterMap fun entry =>
    if entry.2.type = OMNICORE_MESSAGE_TYPE_ACTIVATION ∧ entry.2.valid = true then
      some (entry.2.block, entry.1)
    else none).mergeSort loadsBefore

/-- One activation of `LoadActivations`.  Whatever fails, the next one is loaded. -/
def loadActivation (env : Env) (chain : OwnChain) (blockHeight : Int) (hash : Hash) : Op Unit :=
  match chain hash with
  | none => pure ()
  | some (currentBlockHeight, tx) =>
      if currentBlockHeight > blockHeight then pure ()
      else
        match tx.interpretTransaction with
        | none => pure ()
        | some parsed =>
            if parsed.type ≠ OMNICORE_MESSAGE_TYPE_ACTIVATION then pure ()
            else do let _ ← callRc (interpretPacket env tx)

/-- `LoadActivations` -/
def loadActivations (nenv : NodeEnv) (chain : OwnChain) (overrideForcedShutdown : Bool)
    (blockHeight : Int) : NodeOp Unit := do
  let n ← get
  engine (n.loadOrder.forM fun entry => loadActivation nenv.env chain blockHeight entry.2)
  modify fun n =>
    { n with core.aux := n.core.aux.checkLiveActivations overrideForcedShutdown blockHeight }

/-- A new process: `mastercore_init_ex` on what the earlier one left, up to `LoadActivations`. -/
def restart (nenv : NodeEnv) (chain : OwnChain) (overrideForcedShutdown : Bool) : NodeOp Unit := do
  modify fun n => n.restarted nenv.params
  mastercoreInitEx nenv
  let n ← get
  loadActivations nenv chain overrideForcedShutdown n.waterlineBlock

/-! ### What loading a state leaves alone -/

section Loading

variable {n n' : Node} {nenv : NodeEnv} {fenv : FileEnv} {chain : OwnChain}

/-- The parts that `LoadMostRelevantInMemoryStateEx` works on. -/
def loadedParts : List Part := .properties :: fileParts

theorem value_mySps (part : Part) (s : State) (sps : CMPSPInfo) (hpart : part ∉ loadedParts) :
    part.value { s with mySps := sps } = part.value s := by
  cases part with
  | properties => exact absurd (by decide) hpart
  | counters => exact absurd (by decide) hpart
  | _ => rfl

theorem same_restorePersisted {part : Part} (hpart : part ∉ loadedParts) (blocks : List Hash)
    (hash : Hash) (files : StateFiles) :
    wp (restorePersisted fenv blocks hash files)
      (fun _ n' => part.value n'.core = part.value n.core)
      (fun _ n' => part.value n'.core = part.value n.core) n := by
  unfold restorePersisted
  rw [wp_ite]
  refine ⟨fun _ => ?_, fun _ => rfl⟩
  rw [wp_engine]
  exact (touches_restoreFiles fileTypes n.core).same fun hmem => hpart (List.mem_cons_of_mem _ hmem)

theorem same_loadLoop {part : Part} (hpart : part ∉ loadedParts) (index : Nat)
    (persistedBlocks : List Hash) (n : Node) :
    wp (loadLoop fenv index persistedBlocks) (fun _ n' => part.value n'.core = part.value n.core)
      (fun _ n' => part.value n'.core = part.value n.core) n := by
  induction index generalizing n persistedBlocks with
  | zero => rfl
  | succ k ih =>
    unfold loadLoop
    simp only [wp_bind, wp_get]
    cases n.blockHistory.getBlockHistory k with
    | none => exact ih persistedBlocks n
    | some record =>
      simp only [wp_bind, wp_modify]
      have hmark := value_mySps part n.core (n.core.mySps.setWatermark record.hash) hpart
      refine wp_mono (same_restorePersisted hpart _ _ _) ?_ fun _ _ h => h.trans hmark
      intro success u hu
      rw [wp_ite]
      refine ⟨fun _ => hu.trans hmark, fun _ => ?_⟩
      rw [wp_bind]
      change wp (if _ then _ else _) _ _ _
      rw [wp_ite]
      have hpop := (value_mySps part u.core (u.core.mySps.popBlock record.hash).2 hpart).trans
        (hu.trans hmark)
      refine ⟨fun _ => hpop, fun _ => ?_⟩
      exact wp_mono (ih _ _) (fun _ _ h => h.trans hpop) fun _ _ h => h.trans hpop

theorem same_loadMostRelevantInMemoryStateEx (part : Part) (hpart : part ∉ loadedParts) (n : Node) :
    wp (loadMostRelevantInMemoryStateEx fenv) (fun _ n' => part.value n'.core = part.value n.core)
      (fun _ n' => part.value n'.core = part.value n.core) n := by
  unfold loadMostRelevantInMemoryStateEx
  simp only [wp_bind, wp_get]
  cases n.core.mySps.watermark with
  | none => rfl
  | some _ => exact same_loadLoop hpart _ _ n

/-! ### The heights after a recovery -/

theorem params_omniRollback {height : Int} (hrollback : omniRollback nenv height n = .ok () n') :
    n'.core.aux.params = n.core.aux.params ∨
      n'.core.aux.params = nenv.params ∧ n'.waterlineBlock = 0 := by
  suffices h : wp (omniRollback nenv height) (fun _ n' =>
      n'.core.aux.params = n.core.aux.params ∨
        n'.core.aux.params = nenv.params ∧ n'.waterlineBlock = 0) (fun _ _ => True) n from
    (wp_ok hrollback).mp h
  unfold omniRollback rewindDBs
  simp only [wp_bind, wp_modify, wp_get, wp_ite, setWaterline]
  refine ⟨fun _ => .inr ⟨rfl, trivial⟩, fun _ => ?_⟩
  by_cases hpos : height ≤ 0
  · -- nothing is left to load from
    rw [if_pos hpos]
    unfold loadMostRelevantInMemoryStateEx
    simp only [wp_bind, wp_get]
    change wp (pure (-1)) _ _ _
    rw [wp_pure]
    exact ⟨fun _ => .inr ⟨rfl, trivial⟩, fun hnot => absurd (by decide) hnot⟩
  · rw [if_neg hpos]
    refine wp_mono (same_loadMostRelevantInMemoryStateEx .params (by decide) _) ?_
      fun _ _ _ => trivial
    intro best u hu
    exact ⟨fun _ => .inr ⟨rfl, trivial⟩, fun _ => .inl hu⟩

/-- A start loads a state or clears everything; the heights are those of the network in both cases, and
no transaction comes to the list. -/
theorem params_mastercoreInitEx (hparams : n.core.aux.params = nenv.params) :
    wp (mastercoreInitEx nenv)
      (fun _ n' => n'.core.aux.params = nenv.params ∧ ∀ hash ∈ n'.txList, hash ∈ n.txList)
      (fun _ _ => True) n := by
  unfold mastercoreInitEx
  simp only [wp_bind, wp_modify]
  refine wp_mono (wp_and (same_loadMostRelevantInMemoryStateEx .params (by decide) _)
    frame_loadMostRelevantInMemoryStateEx) ?_ fun _ _ _ => trivial
  rintro waterline u ⟨hu, hframe⟩
  split
  · exact ⟨rfl, fun hash hmem => absurd hmem ExtTreeMap.not_mem_empty⟩
  · refine ⟨hu.trans hparams, fun hash hmem => ?_⟩
    rw [hframe] at hmem
    exact hmem

theorem params_foldl_checkLive (overrideForcedShutdown : Bool) (height : Int)
    (activations : List FeatureActivation) (aux : Aux) :
    (activations.foldl (Aux.checkLive overrideForcedShutdown height) aux).params = aux.params := by
  induction activations generalizing aux with
  | nil => rfl
  | cons live rest ih =>
    rw [List.foldl_cons, ih]
    unfold Aux.checkLive
    split
    · rfl
    · rfl

theorem mem_txList_of_loadOrder {entry : Int × Hash} (h : entry ∈ n.loadOrder) :
    entry.2 ∈ n.txList := by
  unfold Node.loadOrder at h
  obtain ⟨⟨hash, record⟩, hmem, hentry⟩ := List.mem_filterMap.mp (List.mem_mergeSort.mp h)
  split at hentry
  · cases hentry
    exact ExtTreeMap.mem_iff_isSome_getElem?.mpr
      (Option.isSome_of_eq_some (ExtTreeMap.mem_toList_iff_getElem?_eq_some.mp hmem))
  · cases hentry

theorem loadActivation_forM (env : Env) (blockHeight : Int) (s : State) (entries : List (Int × Hash))
    (hchain : ∀ entry ∈ entries, chain entry.2 = none) :
    (entries.forM fun entry => loadActivation env chain blockHeight entry.2 : Op PUnit) s =
      .ok () s := by
  induction entries with
  | nil => rfl
  | cons entry rest ih =>
    have hfirst : loadActivation env chain blockHeight entry.2 s = .ok () s := by
      unfold loadActivation
      rw [hchain entry List.mem_cons_self]
      rfl
    refine (bind_of_ok hfirst).trans (ih fun other hother => ?_)
    exact hchain other (List.mem_cons_of_mem _ hother)

theorem params_restart {overrideForcedShutdown : Bool} (hchain : ∀ hash ∈ n.txList, chain hash = none)
    (hrestart : restart nenv chain overrideForcedShutdown n = .ok () n') :
    n'.core.aux.params = nenv.params := by
  suffices h : wp (restart nenv chain overrideForcedShutdown)
      (fun _ n' => n'.core.aux.params = nenv.params) (fun _ _ => True) n from
    (wp_ok hrestart).mp h
  unfold restart
  simp only [wp_bind, wp_modify, wp_get]
  refine wp_mono (params_mastercoreInitEx rfl) ?_ fun _ _ _ => trivial
  rintro _ u ⟨hu, htxList⟩
  have hload := loadActivation_forM nenv.env u.waterlineBlock u.core u.loadOrder
    fun entry hentry => hchain _ (htxList _ (mem_txList_of_loadOrder hentry))
  unfold loadActivations
  simp only [wp_bind, wp_get, wp_modify]
  rw [wp_engine, wp_ok hload]
  exact (params_foldl_checkLive _ _ _ _).trans hu

/-! ### Features active after a recovery -/

/-- Features are active in the same blocks above `w`. -/
def FeaturesAgree (w : Int) (params params' : ConsensusParams) : Prop :=
  ∀ (featureId : Nat) (block : Int), w < block →
    params.isFeatureActivated featureId block = params'.isFeatureActivated featureId block

/-- The heights make no difference above `w`: they are the same, or both are reached by then. -/
def SameAbove (w : Int) (height height' : Option Int) : Prop :=
  height = height' ∨ ∃ a b, height = some a ∧ height' = some b ∧ a ≤ w + 1 ∧ b ≤ w + 1

theorem isSome_featureBlock (params params' : ConsensusParams) (featureId : Nat) :
    (params.featureBlock featureId).isSome = (params'.featureBlock featureId).isSome := by
  unfold ConsensusParams.featureBlock
  simp only [apply_ite Option.isSome, Option.isSome_some, Option.isSome_none]

theorem featuresAgree_iff {w : Int} {params params' : ConsensusParams} :
    FeaturesAgree w params params' ↔
      ∀ featureId, SameAbove w (params.featureBlock featureId) (params'.featureBlock featureId) := by
  unfold FeaturesAgree SameAbove ConsensusParams.isFeatureActivated
  refine forall_congr' fun featureId => ?_
  have hknown := isSome_featureBlock params params' featureId
  cases hfeature : params.featureBlock featureId with
  | none =>
    rw [hfeature, Option.isSome_none] at hknown
    rw [Option.isNone_iff_eq_none.mp (Option.isSome_eq_false_iff.mp hknown.symm)]
    exact ⟨fun _ => .inl rfl, fun _ _ _ => rfl⟩
  | some a =>
    rw [hfeature, Option.isSome_some] at hknown
    obtain ⟨b, hb⟩ := Option.isSome_iff_exists.mp hknown.symm
    rw [hb]
    simp only [decide_eq_decide, Option.some.injEq]
    constructor
    · intro h
      -- the block right after `w`, and each of the two heights
      have hnext := h (w + 1) (by omega)
      by_cases ha : a ≤ w + 1
      · exact .inr ⟨a, b, rfl, rfl, ha, hnext.mp ha⟩
      · have hb' : ¬b ≤ w + 1 := fun hle => ha (hnext.mpr hle)
        have hle := (h a (by omega)).mp le_rfl
        have hge := (h b (by omega)).mpr le_rfl
        exact .inl (Int.le_antisymm hge hle)
    · rintro (rfl | ⟨a', b', rfl, rfl, ha, hb'⟩) block hblock
      · rfl
      · omega

end Loading

/-! ### Heights that are lost or kept -/

/-- Block 50000 with the given transactions, and all its files. -/
def storingActions (txs : List TxMessage) : List Action :=
  txs.map (fun message => .rpc (.tx activatingNodeEnv message)) ++
    .connect (timedBlock 50000) :: .put (timedBlock 50000) :: List.replicate 11 .work

/-- The test network with block 50000 and its files. -/
def storedTestNode (txs : List TxMessage) : Option Node :=
  (System.actAll activatingNodeEnv { node := testNode } (storingActions txs)).map System.node

/-- Betting is activated from the given block on. -/
def bettingActivation (block : Nat) (activationBlock : UInt32) : TxMessage :=
  packetMessage block 0 1500000600 "authority".toList []
    (createPayloadActivateFeature 3 activationBlock 0)

end HcOmni
