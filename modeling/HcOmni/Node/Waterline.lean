import HcOmni.Node.Recovery
import HcOmni.Node.Snapshots

/-!
# Where the node resumes

After a rollback or a start the caller is told the waterline and delivers the next block.  Its
transactions are interpreted if the node is at the waterline and the transaction history ends there.
A rollback sets the height to the waterline, but takes only the blocks from a given height on out of
the history; a start does neither.
-/

namespace HcOmni

open Std Program Text MapSum

variable {n n' u : Node} {nenv : NodeEnv} {fenv : FileEnv}

/-! ### Rolling back the transaction history -/

namespace COmniTxHistory

variable {history : COmniTxHistory}

/-- A history as transactions leave it when blocks come in order: every record by key has its record
by index, and the blocks ascend with the index. -/
structure Ordered (history : COmniTxHistory) : Prop where
  linked : ∀ (key : Str) (block index : Int), history.byKey[key]? = some (block, index) →
    history.byIndex[index]? = some (key, block)
  sorted : ∀ (i j : Int) (p q : Str × Int), i ≤ j → history.byIndex[i]? = some p →
    history.byIndex[j]? = some q → p.2 ≤ q.2
  range : ∀ (i : Int) (p : Str × Int), history.byIndex[i]? = some p → 0 ≤ p.2 ∧ p.2 < 2 ^ 32

theorem ordered_of_toList
    (hlinked : ∀ e ∈ history.byKey.toList, (e.2.2, e.1, e.2.1) ∈ history.byIndex.toList)
    (hsorted : ∀ e ∈ history.byIndex.toList, ∀ e' ∈ history.byIndex.toList, e.1 ≤ e'.1 →
      e.2.2 ≤ e'.2.2)
    (hrange : ∀ e ∈ history.byIndex.toList, 0 ≤ e.2.2 ∧ e.2.2 < 2 ^ 32) : history.Ordered := by
  have hmem : ∀ {i : Int} {p : Str × Int}, history.byIndex[i]? = some p ↔
      (i, p) ∈ history.byIndex.toList := ExtTreeMap.mem_toList_iff_getElem?_eq_some.symm
  refine ⟨fun key block index hget => ?_, fun i j p q hle hi hj => ?_, fun i p hi => ?_⟩
  · exact hmem.mpr (hlinked (key, block, index)
      (ExtTreeMap.mem_toList_iff_getElem?_eq_some.mpr hget))
  · exact hsorted (i, p) (hmem.mp hi) (j, q) (hmem.mp hj) hle
  · exact hrange (i, p) (hmem.mp hi)

theorem getElem?_dropTop (history : COmniTxHistory) (key : Str) (i : Int) :
    (history.dropTop key).byIndex[i]? =
      if (history.byIndex.size - 1 : Int) = i then none else history.byIndex[i]? := by
  unfold dropTop
  simp only [ExtTreeMap.getElem?_erase, LawfulEqCmp.compare_eq_iff_eq]

theorem Ordered.dropTop (h : history.Ordered) {key : Str} {block : Int}
    (htop : history.byIndex[(history.byIndex.size - 1 : Int)]? = some (key, block)) :
    (history.dropTop key).Ordered := by
  have hold : ∀ {i : Int} {p : Str × Int}, (history.dropTop key).byIndex[i]? = some p →
      history.byIndex[i]? = some p := by
    intro i p hget
    rw [getElem?_dropTop] at hget
    split at hget
    · cases hget
    · exact hget
  refine ⟨fun key' block' index hget => ?_, fun i j p q hle hi hj => ?_, fun i p hi => ?_⟩
  · have hkey := getElem?_of_erase (show (history.byKey.erase key)[key']? = _ from hget)
    rw [getElem?_dropTop, if_neg, h.linked _ _ _ hkey.2]
    rintro rfl
    -- the record at the top belongs to the key that is removed
    have hsame := h.linked _ _ _ hkey.2
    rw [htop] at hsame
    cases hsame
    exact hkey.1 rfl
  · exact h.sorted i j p q hle (hold hi) (hold hj)
  · exact h.range i p (hold hi)

theorem lt_size_of_getElem? {i : Int} {p : Str × Int} (h : history.byIndex[i]? = some p) :
    0 ≤ i ∧ i < history.byIndex.size := by
  rw [← history.dense, ExtTreeMap.mem_iff_isSome_getElem?, h]
  rfl

/-- The loop removes the records from `block` on, and no others. -/
theorem Ordered.rollBackLoop {block : Int} (h : history.Ordered) (hblock : 0 ≤ block)
    (hrange : block < 2 ^ 32) {rounds : Nat} (hrounds : history.byIndex.size ≤ rounds) :
    (COmniTxHistory.rollBackLoop block rounds history).Ordered ∧
      ∀ (i : Int) (p : Str × Int),
        (COmniTxHistory.rollBackLoop block rounds history).byIndex[i]? = some p ↔
          history.byIndex[i]? = some p ∧ p.2 < block := by
  induction rounds generalizing history with
  | zero =>
    refine ⟨h, fun i p => ⟨fun hget => ?_, fun hget => hget.1⟩⟩
    have := lt_size_of_getElem? (show history.byIndex[i]? = some p from hget)
    omega
  | succ rounds ih =>
    unfold COmniTxHistory.rollBackLoop
    rw [getTop_eq]
    cases htop : history.byIndex[(history.byIndex.size - 1 : Int)]? with
    | none =>
      refine ⟨h, fun i p => ⟨fun hget => ?_, fun hget => hget.1⟩⟩
      -- there is no newest record, so there is none at all
      have hsize := lt_size_of_getElem? (show history.byIndex[i]? = some p from hget)
      have hmem : (history.byIndex.size - 1 : Int) ∈ history.byIndex := by
        rw [history.dense]
        omega
      rw [ExtTreeMap.mem_iff_isSome_getElem?, htop] at hmem
      cases hmem
    | some top =>
      obtain ⟨key, historyBlock⟩ := top
      have htoprange := h.range _ _ htop
      have hcast : toUInt32 historyBlock = historyBlock := Int.emod_eq_of_lt htoprange.1 htoprange.2
      have hcast' : toUInt32 block = block := Int.emod_eq_of_lt hblock hrange
      simp only [hcast, hcast']
      by_cases hge : historyBlock ≥ block
      · rw [if_pos hge]
        have hsize : (history.dropTop key).byIndex.size ≤ rounds := by
          have htopmem : history.byIndex.contains (history.byIndex.size - 1 : Int) = true := by
            rw [ExtTreeMap.contains_eq_isSome_getElem?, htop]
            rfl
          change (history.byIndex.erase (history.byIndex.size - 1 : Int)).size ≤ rounds
          rw [ExtTreeMap.size_erase, if_pos htopmem]
          omega
        obtain ⟨hordered, hiff⟩ := ih (h.dropTop htop) hsize
        refine ⟨hordered, fun i p => ?_⟩
        rw [hiff, getElem?_dropTop]
        by_cases hi : (history.byIndex.size - 1 : Int) = i
        · subst hi
          rw [if_pos rfl, htop]
          simp only [reduceCtorEq, false_and, Option.some.injEq, false_iff, not_and]
          rintro rfl
          exact Int.not_lt.mpr hge
        · rw [if_neg hi]
      · rw [if_neg hge]
        refine ⟨h, fun i p => ⟨fun hget => ⟨hget, ?_⟩, fun hget => hget.1⟩⟩
        have hi := lt_size_of_getElem? hget
        have hle := h.sorted i _ p _ (by omega) hget htop
        omega

theorem Ordered.rollBackHistory {block : Int} (h : history.Ordered) (hblock : 0 ≤ block)
    (hrange : block < 2 ^ 32) :
    (history.rollBackHistory block).Ordered ∧ ∀ (i : Int) (p : Str × Int),
      (history.rollBackHistory block).byIndex[i]? = some p ↔
        history.byIndex[i]? = some p ∧ p.2 < block :=
  h.rollBackLoop hblock hrange le_rfl

end COmniTxHistory

/-! ### What loading leaves alone -/

theorem frame_loadLoop (index : Nat) (persistedBlocks : List Hash) :
    wp (loadLoop fenv index persistedBlocks) (fun _ n' => n' = { n with core := n'.core })
      (fun _ n' => n' = { n with core := n'.core }) n := by
  induction index generalizing n persistedBlocks with
  | zero => rfl
  | succ k ih =>
    unfold loadLoop
    simp only [wp_bind, wp_get]
    cases n.blockHistory.getBlockHistory k with
    | none => exact ih persistedBlocks
    | some record =>
      simp only [wp_bind, wp_modify, restorePersisted]
      have hrest : ∀ (success : Int) (s : State),
          wp (if success ≥ 0 then pure record.height
            else popBlock record.hash >>= fun remainingSPs =>
              if remainingSPs ≤ 0 then pure (-1)
              else loadLoop fenv k (persistedBlocks.erase record.hash))
            (fun _ n' => n' = { n with core := n'.core })
            (fun _ n' => n' = { n with core := n'.core }) { n with core := s } := by
        intro success s
        rw [wp_ite]
        refine ⟨fun _ => rfl, fun _ => ?_⟩
        rw [wp_bind]
        change wp (if _ then _ else _) _ _ _
        rw [wp_ite]
        exact ⟨fun _ => rfl, fun _ => ih _⟩
      rw [wp_ite]
      refine ⟨fun _ => ?_, fun _ => hrest _ _⟩
      rw [wp_engine]
      exact wp_of_forall (fun _ _ => hrest _ _) fun _ _ => rfl

theorem frame_loadMostRelevantInMemoryStateEx :
    wp (loadMostRelevantInMemoryStateEx fenv) (fun _ n' => n' = { n with core := n'.core })
      (fun _ n' => n' = { n with core := n'.core }) n := by
  unfold loadMostRelevantInMemoryStateEx
  simp only [wp_bind, wp_get]
  cases n.core.mySps.watermark with
  | none => rfl
  | some _ => exact frame_loadLoop _ _

/-! ### Resuming at the waterline -/

/-- The transactions of the block after `w` are interpreted: the node is at `w`, and the history has
no transaction of a later block. -/
def Node.ResumesAt (n : Node) (w : Int) : Prop :=
  n.latestBlock = w ∧
    (∀ (i : Int) (p : Str × Int), n.txHistory.byIndex[i]? = some p → p.2 ≤ w) ∧
    ∀ (key : Str) (p : Int × Int), n.txHistory.byKey[key]? = some p → p.1 ≤ w

/-- The two ways in which the node recovers a state. -/
inductive Recovery where
  /-- `RewindDBs`, called by `omni_rollback` -/
  | rewind (nHeight top : Int)
  /-- `mastercore_init_ex`, on what an earlier process left -/
  | start
  deriving DecidableEq, Repr

def Recovery.run (nenv : NodeEnv) : Recovery → NodeOp Unit
  | .rewind nHeight top => rewindDBs nenv nHeight top
  | .start => mastercoreInitEx nenv

/-- What is needed to resume at `w`: a rollback leaves no transaction between `w` and the blocks it
takes out; a start finds `w` at the top of the block history, and no later transaction. -/
def Recovery.Reaches (n : Node) (w : Int) : Recovery → Prop
  | .rewind nHeight _ => ∀ (i : Int) (p : Str × Int), n.txHistory.byIndex[i]? = some p →
      p.2 < nHeight → p.2 ≤ w
  | .start => n.blockHistory.getTopBlock = w ∧
      ∀ (i : Int) (p : Str × Int), n.txHistory.byIndex[i]? = some p → p.2 ≤ w

theorem resumesAt_iff (hordered : n.txHistory.Ordered) {w : Int} (hlatest : n.latestBlock = w) :
    n.ResumesAt w ↔ ∀ (i : Int) (p : Str × Int), n.txHistory.byIndex[i]? = some p → p.2 ≤ w := by
  refine ⟨fun h => h.2.1, fun h => ⟨hlatest, h, fun key p hget => ?_⟩⟩
  exact h p.2 (key, p.1) (hordered.linked key p.1 p.2 hget)

/-- A rollback that finds a state to resume from: the height is the waterline, and the transactions
from `nHeight` on are gone. -/
theorem rewindDBs_waterline {nHeight top : Int} (hrun : rewindDBs nenv nHeight top n = .ok () n')
    (hw : 0 < n'.waterlineBlock) :
    0 < nHeight ∧ n'.latestBlock = n'.waterlineBlock ∧
      n'.txHistory = n.txHistory.rollBackHistory nHeight := by
  suffices h : wp (rewindDBs nenv nHeight top) (fun _ n' => 0 < n'.waterlineBlock →
      0 < nHeight ∧ n'.latestBlock = n'.waterlineBlock ∧
        n'.txHistory = n.txHistory.rollBackHistory nHeight) (fun _ _ => True) n from
    (wp_ok hrun).mp h hw
  unfold rewindDBs
  simp only [wp_bind, wp_modify, wp_get, wp_ite, setWaterline]
  refine ⟨fun _ hzero => absurd hzero (lt_irrefl 0), fun _ => ?_⟩
  by_cases hpos : nHeight ≤ 0
  · -- nothing is left to load from
    rw [if_pos hpos]
    unfold loadMostRelevantInMemoryStateEx
    simp only [wp_bind, wp_get]
    change wp (pure (-1)) _ _ _
    rw [wp_pure]
    exact ⟨fun _ hzero => absurd hzero (lt_irrefl 0), fun hnot => absurd (by decide) hnot⟩
  · rw [if_neg hpos]
    refine wp_mono frame_loadMostRelevantInMemoryStateEx ?_ fun _ _ _ => trivial
    intro best u hframe
    refine ⟨fun _ hzero => absurd hzero (lt_irrefl 0), fun _ _ => ⟨by omega, trivial, ?_⟩⟩
    rw [hframe]
    rfl

theorem mastercoreInitEx_waterline (hrun : mastercoreInitEx nenv n = .ok () n')
    (hw : 0 < n'.waterlineBlock) :
    n'.latestBlock = n.blockHistory.getTopBlock ∧ n'.txHistory = n.txHistory := by
  suffices h : wp (mastercoreInitEx nenv) (fun _ n' => 0 < n'.waterlineBlock →
      n'.latestBlock = n.blockHistory.getTopBlock ∧ n'.txHistory = n.txHistory)
      (fun _ _ => True) n from (wp_ok hrun).mp h hw
  unfold mastercoreInitEx
  simp only [wp_bind, wp_modify]
  refine wp_mono frame_loadMostRelevantInMemoryStateEx ?_ fun _ _ _ => trivial
  intro waterline u hframe
  by_cases hle : waterline ≤ 0
  · rw [if_pos hle]
    intro hpos
    change 0 < waterline at hpos
    omega
  · rw [if_neg hle, hframe]
    exact fun _ => ⟨rfl, rfl⟩

/-- A transaction of a block that creates a property. -/
def issuanceAt (block : Nat) : TxMessage :=
  { issuanceMessage with blockHash := uint256ToString block, block := block }

/-- Block 50000 with a new property, and all its files. -/
def storedActions : List Action :=
  .rpc (.tx sampleNodeEnv (issuanceAt 50000)) :: .connect (sampleBlock 50000) ::
    .put (sampleBlock 50000) :: List.replicate 11 .work

/-- The next block is connected, and the process ends before its files are written. -/
def hastyActions : List Action :=
  storedActions ++ [.connect (sampleBlock 50001), .put (sampleBlock 50001)]

/-- What an earlier process left, after `actions`. -/
def leftAfter (actions : List Action) : Option Node :=
  (System.actAll sampleNodeEnv { node := sampleNode } actions).map fun sys =>
    sys.node.restarted mainConsensusParams

end HcOmni
