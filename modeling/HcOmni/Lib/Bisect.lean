import Mathlib

/-!
# Bisection

The search for the end of a gap-free run of keys: the interval is halved until its ends meet, and
the place tested last is remembered besides the ends.  How the result is read off the final ends is
up to the caller.
-/

namespace HcOmni

/-- The ends of the interval, the place tested last, and the last place found occupied. -/
structure Bisection where
  left : Int
  right : Int
  index : Int := 0
  lastIndex : Int := -1
  deriving DecidableEq, Repr

namespace Bisection

variable {isThere : Int → Bool} {b : Bisection} {n : Int}

/-- One round of the loop: the half that cannot contain the end of the run is dropped. -/
def halve (isThere : Int → Bool) (b : Bisection) : Bisection :=
  let index := (b.left + b.right) / 2
  if isThere index then { b with left := index + 1, index := index, lastIndex := index }
  else { b with right := index - 1, index := index }

/-- `while (left < right)`; the number of rounds is bounded by the length of the interval. -/
def search (isThere : Int → Bool) : (rounds : Nat) → Bisection → Bisection
  | 0, b => b
  | rounds + 1, b => if b.left < b.right then search isThere rounds (halve isThere b) else b

/-- The run ends before `n`, and `n` lies inside the interval or just behind it. -/
structure Brackets (isThere : Int → Bool) (n : Int) (b : Bisection) : Prop where
  isThere_iff : ∀ i, b.left ≤ i → (isThere i = true ↔ i < n)
  left_le : b.left ≤ n
  le_right : n ≤ b.right + 1

/-- One round keeps the end of the run inside, shortens the interval, and tests no place before
the new left end. -/
theorem Brackets.halve (h : Brackets isThere n b) (hlt : b.left < b.right) :
    Brackets isThere n (halve isThere b) ∧
      (Bisection.halve isThere b).right - (Bisection.halve isThere b).left < b.right - b.left ∧
      (Bisection.halve isThere b).left - 1 ≤ (Bisection.halve isThere b).index ∧
      (b.lastIndex = b.left - 1 →
        (Bisection.halve isThere b).lastIndex = (Bisection.halve isThere b).left - 1) := by
  have hmid : b.left ≤ (b.left + b.right) / 2 := by omega
  have hiff := h.isThere_iff _ hmid
  unfold Bisection.halve
  by_cases hthere : isThere ((b.left + b.right) / 2) = true
  · have hn : (b.left + b.right) / 2 < n := hiff.mp hthere
    simp only [hthere, if_true]
    refine ⟨⟨?_, by simp only; omega, h.le_right⟩, by omega, by simp, by simp⟩
    intro i hi
    simp only at hi
    exact h.isThere_iff i (by omega)
  · have hn : ¬(b.left + b.right) / 2 < n := fun hlt' => hthere (hiff.mpr hlt')
    simp only [hthere]
    refine ⟨⟨h.isThere_iff, h.left_le, ?_⟩, ?_, ?_, ?_⟩
    · simp only [Bool.false_eq_true, if_false]
      omega
    · simp only [Bool.false_eq_true, if_false]
      omega
    · simp only [Bool.false_eq_true, if_false]
      omega
    · intro hlast
      simpa only [Bool.false_eq_true, if_false] using hlast

/-- **The loop.**  The ends meet around the end of the run, and the place tested last is not before
the left end. -/
theorem Brackets.search (rounds : Nat) (h : Brackets isThere n b)
    (hrounds : b.right - b.left ≤ rounds) (hindex : b.left < b.right ∨ b.left - 1 ≤ b.index) :
    Brackets isThere n (search isThere rounds b) ∧
      ¬(Bisection.search isThere rounds b).left < (Bisection.search isThere rounds b).right ∧
      (Bisection.search isThere rounds b).left - 1 ≤ (Bisection.search isThere rounds b).index ∧
      (b.lastIndex = b.left - 1 →
        (Bisection.search isThere rounds b).lastIndex =
          (Bisection.search isThere rounds b).left - 1) := by
  induction rounds generalizing b with
  | zero =>
    have hend : ¬b.left < b.right := by omega
    exact ⟨h, hend, hindex.resolve_left hend, fun hlast => hlast⟩
  | succ rounds ih =>
    unfold Bisection.search
    by_cases hlt : b.left < b.right
    · obtain ⟨hbrackets, hshorter, hindex', hlast⟩ := h.halve hlt
      obtain ⟨hb, hend, hi, hl⟩ := ih hbrackets (by push_cast at hrounds; omega) (.inr hindex')
      simp only [hlt, if_true]
      exact ⟨hb, hend, hi, fun h0 => hl (hlast h0)⟩
    · rw [if_neg hlt]
      exact ⟨h, hlt, hindex.resolve_left hlt, fun hlast => hlast⟩

/-! ### A search that returns the last place found -/

/-- What a last test between the final ends adds to the last place found. -/
def lastFound (isThere : Int → Bool) (b : Bisection) : Int :=
  let index := (b.left + b.right) / 2
  if !isThere index then b.lastIndex
  else if b.lastIndex > index then b.lastIndex else index

theorem search_congr {isThere' : Int → Bool} {low high : Int} (rounds : Nat)
    (hsame : ∀ i, low ≤ i → i ≤ high → isThere i = isThere' i) (hlow : low ≤ b.left)
    (hhigh : b.right ≤ high) :
    search isThere rounds b = search isThere' rounds b ∧ low ≤ (search isThere' rounds b).left ∧
      (search isThere' rounds b).right ≤ high := by
  induction rounds generalizing b with
  | zero => exact ⟨rfl, hlow, hhigh⟩
  | succ rounds ih =>
    unfold search
    by_cases hlt : b.left < b.right
    · have hhalf : Bisection.halve isThere b = Bisection.halve isThere' b := by
        unfold Bisection.halve
        dsimp only
        rw [hsame _ (by omega) (by omega)]
      have hlow' : low ≤ (Bisection.halve isThere' b).left := by
        unfold Bisection.halve
        dsimp only
        split <;> simp only <;> omega
      have hhigh' : (Bisection.halve isThere' b).right ≤ high := by
        unfold Bisection.halve
        dsimp only
        split <;> simp only <;> omega
      rw [if_pos hlt, if_pos hlt, hhalf]
      exact ih hlow' hhigh'
    · rw [if_neg hlt, if_neg hlt]
      exact ⟨rfl, hlow, hhigh⟩

/-- **The last place of a run from zero on is found.** -/
theorem lastFound_search {right : Int} (hn : 0 ≤ n) (hright : n ≤ right)
    (hthere : ∀ i, -1 ≤ i → i ≤ right → (isThere i = true ↔ 0 ≤ i ∧ i < n)) :
    lastFound isThere (search isThere (right.toNat + 1) { left := 0, right := right }) = n - 1 := by
  have hsame : ∀ i, -1 ≤ i → i ≤ right → isThere i = decide (0 ≤ i ∧ i < n) := fun i hi hi' => by
    rw [Bool.eq_iff_iff, hthere i hi hi', decide_eq_true_iff]
  obtain ⟨hsearch, hlow, hhigh⟩ := search_congr (b := { left := 0, right := right })
    (right.toNat + 1) (fun i hi hi' => hsame i (by omega) hi') (by simp : (0 : Int) ≤ 0) le_rfl
  have hbrackets : Brackets (fun i => decide (0 ≤ i ∧ i < n)) n { left := 0, right := right } := by
    refine ⟨fun i hi => ?_, hn, by simp only; omega⟩
    simp only at hi
    rw [decide_eq_true_iff]
    omega
  obtain ⟨hb, hend, -, hlast⟩ := hbrackets.search (right.toNat + 1) (by simp only; omega)
    (.inr (by simp))
  have hl := hlast (by simp)
  have hle := hb.left_le
  have hr := hb.le_right
  rw [hsearch]
  clear hsearch
  unfold lastFound
  generalize search (fun i => decide (0 ≤ i ∧ i < n)) (right.toNat + 1) { left := 0, right := right } =
    b at *
  dsimp only
  rw [hsame _ (by omega) (by omega)]
  by_cases hin : 0 ≤ (b.left + b.right) / 2 ∧ (b.left + b.right) / 2 < n
  · rw [decide_eq_true hin]
    simp only [Bool.not_true, Bool.false_eq_true, if_false]
    split <;> omega
  · rw [decide_eq_false hin]
    simp only [Bool.not_false, if_true]
    omega

end Bisection

end HcOmni
