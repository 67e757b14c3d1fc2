import Mathlib

/-!
# Sorted lists

A `std::set` is walked from its least element to its greatest.  Here it is the list in which it is
walked: sorted by a key that tells the elements apart, and without duplicates.

A list that grows at its end, and from which everything at or above some height is removed now and
then, is sorted by height as long as the heights go on where the last removal stopped.
-/

namespace HcOmni.Ordered

variable {α β : Type*} [DecidableEq α] [LinearOrder β] {key : α → β}

/-- The set of the items, in the order of their keys. -/
def asSet (key : α → β) (items : List α) : List α :=
  items.dedup.insertionSort fun x y => key x ≤ key y

theorem pairwise_asSet_le (key : α → β) (items : List α) :
    (asSet key items).Pairwise fun x y => key x ≤ key y := by
  have : Std.Total fun x y : α => key x ≤ key y := ⟨fun x y => le_total (key x) (key y)⟩
  have : IsTrans α fun x y => key x ≤ key y := ⟨fun _ _ _ => le_trans⟩
  exact List.pairwise_insertionSort _ _

/-- **A set is known by its elements**: it does not depend on the order in which they are inserted. -/
theorem asSet_of_perm (hkey : Function.Injective key) {items sorted : List α}
    (hperm : items.Perm sorted) (hsorted : sorted.Pairwise fun x y => key x < key y) :
    asSet key items = sorted := by
  have hnodup : sorted.Nodup := hsorted.imp fun hlt heq => absurd hlt (by rw [heq]; exact lt_irrefl _)
  have hitems : items.dedup = items := List.dedup_eq_self.mpr (hperm.nodup_iff.mpr hnodup)
  have hset : (asSet key items).Perm sorted := by
    unfold asSet
    rw [hitems]
    exact (List.perm_insertionSort _ items).trans hperm
  -- both lists are sorted
  have : Std.Antisymm fun x y : α => key x ≤ key y :=
    ⟨fun x y hle hge => hkey (le_antisymm hle hge)⟩
  exact hset.eq_of_pairwise' (pairwise_asSet_le key items) (hsorted.imp le_of_lt)

/-! ### Growing and cutting back -/

/-- A change of a list whose entries belong to heights. -/
inductive Edit (α : Type*) where
  | add (entry : α)
  | rollBack (height : Int)
  deriving DecidableEq, Repr

namespace Edit

variable {α : Type*} {height : α → Int} {ok : α → Prop} {floor : Int} {live : List α}

/-- The entries after a change. -/
def apply (height : α → Int) (live : List α) : Edit α → List α
  | .add entry => live ++ [entry]
  | .rollBack h => live.filter fun entry => decide (height entry < h)

/-- The changes go on at or above the last height, or that of the last removal; `ok` is what is asked of
an entry besides. -/
def InOrder (height : α → Int) (ok : α → Prop) : (floor : Int) → List (Edit α) → Prop
  | _, [] => True
  | floor, .add entry :: rest => ok entry ∧ floor ≤ height entry ∧ InOrder height ok (height entry) rest
  | _, .rollBack h :: rest => InOrder height ok h rest

/-- The entries are as they should be, their heights never decrease and stay below the floor. -/
structure Sorted (height : α → Int) (ok : α → Prop) (floor : Int) (live : List α) : Prop where
  all_ok : ∀ entry ∈ live, ok entry
  le_floor : ∀ entry ∈ live, height entry ≤ floor
  pairwise : live.Pairwise fun entry entry' => height entry ≤ height entry'

theorem Sorted.add (hsorted : Sorted height ok floor live) {entry : α} (hok : ok entry)
    (hfloor : floor ≤ height entry) : Sorted height ok (height entry) (live ++ [entry]) where
  all_ok e he := by
    rcases List.mem_append.mp he with he | he
    · exact hsorted.all_ok e he
    · rwa [List.mem_singleton.mp he]
  le_floor e he := by
    rcases List.mem_append.mp he with he | he
    · exact (hsorted.le_floor e he).trans hfloor
    · rw [List.mem_singleton.mp he]
  pairwise := by
    refine List.pairwise_append.mpr ⟨hsorted.pairwise, List.pairwise_singleton _ _, ?_⟩
    intro e he e' he'
    rw [List.mem_singleton.mp he']
    exact (hsorted.le_floor e he).trans hfloor

theorem Sorted.rollBack (hsorted : Sorted height ok floor live) (h : Int) :
    Sorted height ok h (live.filter fun entry => decide (height entry < h)) where
  all_ok e he := hsorted.all_ok e (List.mem_of_mem_filter he)
  le_floor e he := by
    have hlt := (List.mem_filter.mp he).2
    rw [decide_eq_true_iff] at hlt
    exact hlt.le
  pairwise := hsorted.pairwise.sublist List.filter_sublist

/-- **Simulation rule.**  If a stored form follows each change of a sorted list of bounded length, it
follows every sequence of changes in order, and the list stays sorted. -/
theorem foldlM_eq {σ : Type*} {step : σ → Edit α → Option σ} {stored : List α → σ} (bound : Nat)
    {edits : List (Edit α)} (horder : InOrder height ok floor edits)
    (hsorted : Sorted height ok floor live) (hlength : live.length + edits.length ≤ bound)
    (hadd : ∀ (live : List α) (entry : α), ok entry → live.length < bound →
      step (stored live) (.add entry) = some (stored (live ++ [entry])))
    (hroll : ∀ (floor : Int) (live : List α) (h : Int), Sorted height ok floor live →
      step (stored live) (.rollBack h) =
        some (stored (live.filter fun entry => decide (height entry < h)))) :
    edits.foldlM step (stored live) = some (stored (edits.foldl (apply height) live)) ∧
      (edits.foldl (apply height) live).length ≤ bound ∧
      ∃ floor', Sorted height ok floor' (edits.foldl (apply height) live) := by
  induction edits generalizing floor live with
  | nil => exact ⟨rfl, hlength, floor, hsorted⟩
  | cons edit rest ih =>
    rw [List.length_cons] at hlength
    rw [List.foldlM_cons]
    cases edit with
    | add entry =>
      obtain ⟨hok, hfloor, hrest⟩ := horder
      rw [hadd live entry hok (by omega)]
      refine ih hrest (hsorted.add hok hfloor) ?_
      rw [List.length_append, List.length_singleton]
      omega
    | rollBack h =>
      rw [hroll floor live h hsorted]
      refine ih horder (hsorted.rollBack h) ?_
      have := List.length_filter_le (fun entry => decide (height entry < h)) live
      omega

end Edit

end HcOmni.Ordered
