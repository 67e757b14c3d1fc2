import Mathlib

/-!
# Buying whole units at a fractional price

Units and money are whole numbers, the price of a unit is not.  The buyer gets what the money is
enough for, rounded down, and pays what the units cost, rounded up.  The two roundings belong
together: they are adjoint to each other, and all that is needed about them follows from that.
-/

namespace HcOmni.Rounding

variable {K : Type*} [Field K] [LinearOrder K] [IsStrictOrderedRing K] [FloorRing K]

/-- The units that can be had for an amount of money. -/
def affordable (price : K) (money : ℤ) : ℤ := ⌊(money : K) / price⌋

/-- The money that is needed for a number of units. -/
def cost (price : K) (units : ℤ) : ℤ := ⌈(units : K) * price⌉

variable {price : K} {units money : ℤ}

/-- **Enough money is money for at least so many units.** -/
theorem cost_le_iff (hprice : 0 < price) : cost price units ≤ money ↔ units ≤ affordable price money := by
  rw [cost, affordable, Int.ceil_le, Int.le_floor, le_div_iff₀ hprice]

theorem gc_cost_affordable (hprice : 0 < price) :
    GaloisConnection (cost price) (affordable price) :=
  fun _ _ => cost_le_iff hprice

theorem cost_le_of_le (hprice : 0 < price) (h : units ≤ affordable price money) :
    cost price units ≤ money :=
  (cost_le_iff hprice).mpr h

theorem le_affordable_cost (hprice : 0 < price) : units ≤ affordable price (cost price units) :=
  (gc_cost_affordable hprice).le_u_l units

theorem affordable_nonneg (hprice : 0 < price) (hmoney : 0 ≤ money) : 0 ≤ affordable price money := by
  refine (cost_le_iff hprice).mp ?_
  rw [cost, Int.cast_zero, zero_mul, Int.ceil_zero]
  exact hmoney

omit [IsStrictOrderedRing K] in
theorem mul_le_cost : (units : K) * price ≤ cost price units := Int.le_ceil _

theorem cost_pos (hprice : 0 < price) (hunits : 0 < units) : 0 < cost price units :=
  Int.ceil_pos.mpr (mul_pos (Int.cast_pos.mpr hunits) hprice)

/-- **What is left after spending as much as possible** is not enough for another unit. -/
theorem affordable_sub_cost (hprice : 0 < price) :
    affordable price (money - cost price (affordable price money)) = 0 := by
  have hspent := cost_le_of_le hprice (le_refl (affordable price money))
  refine le_antisymm ?_ (affordable_nonneg hprice (sub_nonneg.mpr hspent))
  by_contra hmore
  -- one more unit would have been affordable at the beginning
  have hone : (1 : ℤ) ≤ ⌊((money - cost price (affordable price money) : ℤ) : K) / price⌋ :=
    not_le.mp hmore
  rw [Int.le_floor, Int.cast_one, one_le_div₀ hprice, Int.cast_sub] at hone
  have hnext : affordable price money + 1 ≤ affordable price money := by
    refine (cost_le_iff hprice).mp (Int.ceil_le.mpr ?_)
    have hcost : (affordable price money : K) * price ≤ cost price (affordable price money) :=
      mul_le_cost
    rw [Int.cast_add, Int.cast_one, add_mul, one_mul]
    linarith
  omega

theorem mul_le_sum_cost (parts : List ℤ) :
    (parts.sum : K) * price ≤ ((parts.map (cost price)).sum : ℤ) := by
  induction parts with
  | nil => simp
  | cons part parts ih =>
    have hpart : (part : K) * price ≤ cost price part := mul_le_cost
    rw [List.sum_cons, List.map_cons, List.sum_cons, Int.cast_add, Int.cast_add, add_mul]
    exact add_le_add hpart ih

/-- **Enough money in parts is enough.**  Whoever pays the quoted price, in whatever parts, gets at
least the units it was quoted for. -/
theorem le_sum_cost (hprice : 0 < price) {parts : List ℤ} (h : cost price⁻¹ units ≤ parts.sum) :
    units ≤ (parts.map (cost price)).sum := by
  have hquoted : (units : K) * price⁻¹ ≤ (parts.sum : ℤ) :=
    le_trans mul_le_cost (Int.cast_le.mpr h)
  have hunits : (units : K) ≤ (parts.sum : ℤ) * price := by
    rwa [← div_eq_mul_inv, div_le_iff₀ hprice] at hquoted
  exact Int.cast_le.mp (hunits.trans (mul_le_sum_cost parts))

/-! ### Prices that are quotients -/

variable {desired forsale : ℤ}

theorem affordable_div (hdesired : 0 < desired) (hforsale : 0 < forsale) :
    affordable ((desired : K) / forsale) money = money * forsale / desired := by
  have hdesired' : (0 : K) < desired := Int.cast_pos.mpr hdesired
  have hforsale' : (0 : K) < forsale := Int.cast_pos.mpr hforsale
  refine eq_of_forall_le_iff fun units => ?_
  rw [affordable, Int.le_floor, le_div_iff₀ (div_pos hdesired' hforsale'), ← mul_div_assoc,
    div_le_iff₀ hforsale', Int.le_ediv_iff_mul_le hdesired]
  exact_mod_cast Iff.rfl

theorem cost_div_le_iff (hforsale : 0 < forsale) :
    cost ((desired : K) / forsale) units ≤ money ↔ units * desired ≤ money * forsale := by
  have hforsale' : (0 : K) < forsale := Int.cast_pos.mpr hforsale
  rw [cost, Int.ceil_le, ← mul_div_assoc, div_le_iff₀ hforsale']
  exact_mod_cast Iff.rfl

end HcOmni.Rounding
