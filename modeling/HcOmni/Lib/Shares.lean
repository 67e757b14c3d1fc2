import Mathlib

/-!
# Sharing an amount by weight

An amount is given out to a list of owners in its order.  Everyone is due an amount in proportion to a
weight, rounded up, and gets no more than what is left.  So the amount runs out before the list does:
everyone who gets something gets all that is due, except for the last one.
-/

namespace HcOmni.Shares

variable {ι : Type*}

/-- What is due to a weight, rounded up. -/
def due (amount total weight : ℤ) : ℤ := ⌈((weight * amount : ℤ) : ℚ) / total⌉

/-- The shares of the owners, each a weight with a name, when some of the amount has been sent. -/
def shares (amount total : ℤ) : List (ℤ × ι) → (sent : ℤ) → List (ℤ × ι)
  | [], _ => []
  | (weight, owner) :: rest, sent =>
      let share := min (due amount total weight) (amount - sent)
      if 0 < share then (share, owner) :: shares amount total rest (sent + share) else []

variable {amount total sent weight : ℤ} {owners : List (ℤ × ι)}

/-! ### What is due -/

theorem due_le_iff (htotal : 0 < total) {n : ℤ} :
    due amount total weight ≤ n ↔ weight * amount ≤ n * total := by
  have htotal' : (0 : ℚ) < total := Int.cast_pos.mpr htotal
  rw [due, Int.ceil_le, div_le_iff₀ htotal']
  exact_mod_cast Iff.rfl

theorem le_due_mul (htotal : 0 < total) : weight * amount ≤ due amount total weight * total :=
  (due_le_iff htotal).mp (le_refl _)

theorem due_pos (htotal : 0 < total) (hamount : 0 < amount) (hweight : 0 < weight) :
    0 < due amount total weight := by
  by_contra hle
  have hproduct := (due_le_iff htotal).mp (not_lt.mp hle)
  rw [zero_mul] at hproduct
  exact absurd (mul_pos hweight hamount) (not_lt.mpr hproduct)

theorem due_le (htotal : 0 < total) (hamount : 0 ≤ amount) (hweight : weight ≤ total) :
    due amount total weight ≤ amount := by
  rw [due_le_iff htotal, mul_comm amount]
  exact mul_le_mul_of_nonneg_right hweight hamount

/-! ### The shares -/

theorem shares_cons_of_pos {owner : ι}
    (h : 0 < min (due amount total weight) (amount - sent)) :
    shares amount total ((weight, owner) :: owners) sent =
      (min (due amount total weight) (amount - sent), owner) ::
        shares amount total owners (sent + min (due amount total weight) (amount - sent)) :=
  if_pos h

theorem shares_cons_of_nonpos {owner : ι}
    (h : ¬ 0 < min (due amount total weight) (amount - sent)) :
    shares amount total ((weight, owner) :: owners) sent = [] :=
  if_neg h

theorem shares_of_le (owners : List (ℤ × ι)) (h : amount ≤ sent) :
    shares amount total owners sent = [] := by
  cases owners with
  | nil => rfl
  | cons first rest =>
    refine shares_cons_of_nonpos (not_lt.mpr (le_trans (min_le_right _ _) ?_))
    omega

theorem map_snd_shares_sublist (owners : List (ℤ × ι)) (sent : ℤ) :
    ((shares amount total owners sent).map Prod.snd).Sublist (owners.map Prod.snd) := by
  induction owners generalizing sent with
  | nil => exact .refl _
  | cons first rest ih =>
    by_cases hshare : 0 < min (due amount total first.1) (amount - sent)
    · rw [shares_cons_of_pos hshare, List.map_cons, List.map_cons]
      exact (ih _).cons_cons _
    · rw [shares_cons_of_nonpos hshare]
      exact List.nil_sublist _

theorem bounds_of_mem_shares (weightOf : ι → ℤ) (hweight : ∀ o ∈ owners, o.1 = weightOf o.2)
    {r : ℤ × ι} (hr : r ∈ shares amount total owners sent) :
    0 < r.1 ∧ r.1 ≤ due amount total (weightOf r.2) := by
  induction owners generalizing sent with
  | nil => cases hr
  | cons first rest ih =>
    obtain ⟨hfirst, hrest⟩ := List.forall_mem_cons.mp hweight
    by_cases hshare : 0 < min (due amount total first.1) (amount - sent)
    · rw [shares_cons_of_pos hshare] at hr
      rcases List.mem_cons.mp hr with rfl | hin
      · rw [← hfirst]
        exact ⟨hshare, min_le_left _ _⟩
      · exact ih hrest hin
    · rw [shares_cons_of_nonpos hshare] at hr
      cases hr

/-- **Everyone before the last one gets what is due.**  Who gets less takes what is left, so that nobody
follows. -/
theorem pairwise_shares (weightOf : ι → ℤ) (hweight : ∀ o ∈ owners, o.1 = weightOf o.2) (sent : ℤ) :
    (shares amount total owners sent).Pairwise fun r _ => r.1 = due amount total (weightOf r.2) := by
  induction owners generalizing sent with
  | nil => exact .nil
  | cons first rest ih =>
    obtain ⟨hfirst, hrest⟩ := List.forall_mem_cons.mp hweight
    by_cases hshare : 0 < min (due amount total first.1) (amount - sent)
    · rw [shares_cons_of_pos hshare]
      refine List.pairwise_cons.mpr ⟨fun later hlater => ?_, ih hrest _⟩
      rw [← hfirst]
      rcases le_total (due amount total first.1) (amount - sent) with hall | hcut
      · exact min_eq_left hall
      · rw [min_eq_right hcut, shares_of_le rest (by omega)] at hlater
        cases hlater
    · rw [shares_cons_of_nonpos hshare]
      exact .nil

/-- **Nothing is left over**, if the weights of the owners make up the total. -/
theorem sum_shares (htotal : 0 < total) (hamount : 0 < amount) (hpos : ∀ o ∈ owners, 0 < o.1)
    (hsent : sent ≤ amount) (hleft : (amount - sent) * total ≤ amount * (owners.map Prod.fst).sum) :
    sent + ((shares amount total owners sent).map Prod.fst).sum = amount := by
  -- the weights that are still to come are enough for what is left
  induction owners generalizing sent with
  | nil =>
    have hnone : amount - sent ≤ 0 := by
      by_contra hsome
      have hproduct := mul_pos (not_le.mp hsome) htotal
      rw [List.map_nil, List.sum_nil, mul_zero] at hleft
      exact absurd hproduct (not_lt.mpr hleft)
    simp only [shares, List.map_nil, List.sum_nil]
    omega
  | cons first rest ih =>
    obtain ⟨hfirst, hrest⟩ := List.forall_mem_cons.mp hpos
    have hdue := due_pos htotal hamount hfirst
    have hcover : first.1 * amount ≤ due amount total first.1 * total := le_due_mul htotal
    have hsum : 0 ≤ (rest.map Prod.fst).sum :=
      List.sum_nonneg (List.forall_mem_map.mpr fun o ho => (hrest o ho).le)
    rw [List.map_cons, List.sum_cons, mul_add, mul_comm amount] at hleft
    by_cases hshare : 0 < min (due amount total first.1) (amount - sent)
    · rw [shares_cons_of_pos hshare, List.map_cons, List.sum_cons, ← add_assoc]
      refine ih hrest (by omega) ?_
      rcases le_total (due amount total first.1) (amount - sent) with hall | hcut
      · dsimp only
        rw [min_eq_left hall, ← sub_sub, sub_mul]
        omega
      · rw [min_eq_right hcut, add_sub_cancel, sub_self, zero_mul]
        exact mul_nonneg hamount.le hsum
    · rw [shares_cons_of_nonpos hshare, List.map_nil, List.sum_nil]
      omega

end HcOmni.Shares
