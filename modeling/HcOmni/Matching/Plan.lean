import HcOmni.Conformance.MetaDEx
import HcOmni.Lib.Rounding

/-!
# What the matching is for

A new order is matched with the orders of the other side, the cheapest first and those of one price
by block and index.  From each it buys as much as it can still afford, in whole tokens, unless the
rounding would make it pay more than it is willing to.  All of this can be said without the state of
the ledger: the plan of the matching is a function of the new order and of the book as it was before.
-/

namespace HcOmni

open MapSum Program State Rounding

/-! ### The plan -/

/-- What is bought of an order and what is paid for it, by someone who still offers `offered` and is
willing to pay at most `limit` for a token. -/
def fillOf (limit : ℚ) (offered : Int) (order : CMPMetaDEx) : Option (Int × Int) :=
  let got := min (affordable order.unitPrice offered) order.amountRemaining
  let paid := cost order.unitPrice got
  if got = 0 ∨ limit < (paid : ℚ) / got then none else some (got, paid)

/-- A look at an order of the book: what was still offered then, and what was bought and paid. -/
structure Visit where
  order : CMPMetaDEx
  offered : Int
  fill : Option (Int × Int)

namespace Visit

def got (visit : Visit) : Int := (visit.fill.map Prod.fst).getD 0

def paid (visit : Visit) : Int := (visit.fill.map Prod.snd).getD 0

end Visit

/-- The orders are visited one after the other, until nothing is left to be offered. -/
def plan (limit : ℚ) : Int → List CMPMetaDEx → List Visit
  | _, [] => []
  | offered, order :: rest =>
      if offered = 0 then []
      else
        let visit : Visit := ⟨order, offered, fillOf limit offered order⟩
        visit :: plan limit (offered - visit.paid) rest

/-- What is left of an offer after the given visits. -/
def unspent (offered : Int) (visits : List Visit) : Int := offered - (visits.map Visit.paid).sum

/-- The orders that match a new one, in the order in which they are visited. -/
def candidates (s : State) (pnew : CMPMetaDEx) : List CMPMetaDEx :=
  (s.metadex.getD pnew.desiredProperty ∅).toList.flatMap fun level =>
    if pnew.inversePrice < level.1 then []
    else (level.2.toList.map Prod.snd).filter fun order => order.desiredProperty = pnew.property

/-- The visits of a new order. -/
def visitsOf (s : State) (pnew : CMPMetaDEx) : List Visit :=
  plan pnew.inversePrice pnew.amountRemaining (candidates s pnew)

variable {limit : ℚ} {offered : Int} {order : CMPMetaDEx} {orders : List CMPMetaDEx} {visit : Visit}

@[simp] theorem unspent_nil : unspent offered [] = offered := by simp [unspent]

@[simp] theorem unspent_cons {visits : List Visit} :
    unspent offered (visit :: visits) = unspent (offered - visit.paid) visits := by
  simp only [unspent, List.map_cons, List.sum_cons]
  omega

@[simp] theorem plan_zero : plan limit 0 orders = [] := by
  cases orders <;> rfl

theorem plan_append (before after : List CMPMetaDEx) :
    plan limit offered (before ++ after) = plan limit offered before ++
      plan limit (unspent offered (plan limit offered before)) after := by
  induction before generalizing offered with
  | nil => simp [plan]
  | cons order rest ih =>
    by_cases hzero : offered = 0
    · simp [hzero]
    · simp only [List.cons_append, plan, if_neg hzero, unspent_cons]
      rw [ih]

theorem unspent_append (before after : List Visit) :
    unspent offered (before ++ after) = unspent (unspent offered before) after := by
  simp only [unspent, List.map_append, List.sum_append]
  omega

/-! ### One visit -/

/-- An order as it may stand in the book. -/
structure Standing (order : CMPMetaDEx) : Prop where
  remaining_pos : 0 < order.amountRemaining
  remaining_le : order.amountRemaining ≤ order.amountForsale
  forsale_le : order.amountForsale ≤ MAX_INT_8_BYTES
  desired_pos : 0 < order.amountDesired
  desired_le : order.amountDesired ≤ MAX_INT_8_BYTES

namespace Standing

variable (h : Standing order)

include h

theorem forsale_pos : 0 < order.amountForsale := Int.lt_of_lt_of_le h.remaining_pos h.remaining_le

theorem unitPrice_eq : order.unitPrice = (order.amountDesired : ℚ) / order.amountForsale :=
  if_pos (ne_of_gt h.forsale_pos)

theorem inversePrice_eq : order.inversePrice = (order.amountForsale : ℚ) / order.amountDesired :=
  if_pos (ne_of_gt h.desired_pos)

theorem unitPrice_pos : 0 < order.unitPrice := by
  rw [h.unitPrice_eq]
  exact div_pos (Int.cast_pos.mpr h.desired_pos) (Int.cast_pos.mpr h.forsale_pos)

theorem affordable_eq (money : Int) : affordable order.unitPrice money =
    money * order.amountForsale / order.amountDesired := by
  rw [h.unitPrice_eq]
  exact affordable_div h.desired_pos h.forsale_pos

theorem cost_le_iff_mul_le {units money : Int} : cost order.unitPrice units ≤ money ↔
    units * order.amountDesired ≤ money * order.amountForsale := by
  rw [h.unitPrice_eq]
  exact cost_div_le_iff h.forsale_pos

theorem fillOf_eq_some {got paid : Int} (hoffered : 0 < offered)
    (hfill : fillOf limit offered order = some (got, paid)) :
    0 < got ∧ got ≤ order.amountRemaining ∧ got ≤ affordable order.unitPrice offered ∧
      0 < paid ∧ paid ≤ offered ∧ paid = cost order.unitPrice got ∧
      order.unitPrice ≤ (paid : ℚ) / got ∧ (paid : ℚ) / got ≤ limit := by
  have hprice := h.unitPrice_pos
  have hnonneg := affordable_nonneg hprice (Int.le_of_lt hoffered)
  have hremaining := h.remaining_pos
  unfold fillOf at hfill
  simp only [Option.ite_none_left_eq_some, Option.some.injEq, Prod.mk.injEq, not_or, not_lt] at hfill
  obtain ⟨⟨hne, hlimit⟩, hgot, hpaid⟩ := hfill
  rw [hgot] at hne hlimit hpaid
  rw [hpaid] at hlimit
  have hpos : 0 < got := by omega
  have hle : got ≤ affordable order.unitPrice offered := by omega
  have hpos' : (0 : ℚ) < got := Int.cast_pos.mpr hpos
  refine ⟨hpos, by omega, hle, ?_, ?_, hpaid.symm, ?_, hlimit⟩
  · rw [← hpaid]
    exact cost_pos hprice hpos
  · rw [← hpaid]
    exact cost_le_of_le hprice hle
  · rw [le_div_iff₀ hpos', ← hpaid, mul_comm]
    exact mul_le_cost

theorem paid_bounds (limit : ℚ) (hoffered : 0 < offered) :
    0 ≤ (⟨order, offered, fillOf limit offered order⟩ : Visit).paid ∧
      (⟨order, offered, fillOf limit offered order⟩ : Visit).paid ≤ offered := by
  unfold Visit.paid
  cases hfill : fillOf limit offered order with
  | none => exact ⟨le_refl _, Int.le_of_lt hoffered⟩
  | some fill =>
    obtain ⟨-, -, -, hpos, hle, -⟩ := h.fillOf_eq_some hoffered hfill
    exact ⟨Int.le_of_lt hpos, hle⟩

theorem fillOf_eq_none (hfill : fillOf limit offered order = none) :
    affordable order.unitPrice offered = 0 ∨ limit <
      (cost order.unitPrice (min (affordable order.unitPrice offered) order.amountRemaining) : ℚ) /
        (min (affordable order.unitPrice offered) order.amountRemaining : Int) := by
  have hremaining := h.remaining_pos
  unfold fillOf at hfill
  simp only [ite_eq_left_iff, reduceCtorEq, imp_false, not_not] at hfill
  rcases hfill with hzero | hlimit
  · exact .inl (by omega)
  · exact .inr hlimit

end Standing

/-! ### All visits -/

theorem plan_orders (limit : ℚ) (offered : Int) (orders : List CMPMetaDEx) :
    (plan limit offered orders).map Visit.order <+: orders := by
  induction orders generalizing offered with
  | nil => exact List.nil_prefix
  | cons order rest ih =>
    by_cases hzero : offered = 0
    · simp [hzero]
    · simp only [plan, if_neg hzero, List.map_cons, List.prefix_cons_inj]
      exact ih _

theorem plan_exhausts (limit : ℚ) (offered : Int) (orders : List CMPMetaDEx) :
    (plan limit offered orders).map Visit.order = orders ∨
      unspent offered (plan limit offered orders) = 0 := by
  induction orders generalizing offered with
  | nil => exact .inl rfl
  | cons order rest ih =>
    by_cases hzero : offered = 0
    · exact .inr (by simp [hzero])
    · simp only [plan, if_neg hzero, List.map_cons, List.cons.injEq, true_and, unspent_cons]
      exact ih _

theorem plan_offered {before after : List Visit}
    (hsplit : plan limit offered orders = before ++ visit :: after) :
    visit.offered = unspent offered before := by
  induction orders generalizing offered before with
  | nil => simp [plan] at hsplit
  | cons order rest ih =>
    by_cases hzero : offered = 0
    · simp [plan, hzero] at hsplit
    · simp only [plan, if_neg hzero] at hsplit
      cases before with
      | nil =>
        rw [← (List.cons.inj hsplit).1]
        simp
      | cons first before =>
        obtain ⟨hfirst, hrest⟩ := List.cons.inj hsplit
        rw [unspent_cons, ← hfirst]
        exact ih hrest

theorem plan_visit (horders : ∀ order ∈ orders, Standing order) (hoffered : 0 ≤ offered)
    (hvisit : visit ∈ plan limit offered orders) :
    Standing visit.order ∧ 0 < visit.offered ∧ visit.offered ≤ offered ∧
      visit.fill = fillOf limit visit.offered visit.order := by
  induction orders generalizing offered with
  | nil => cases hvisit
  | cons order rest ih =>
    by_cases hzero : offered = 0
    · simp [plan, hzero] at hvisit
    · have horder := horders order List.mem_cons_self
      have hpaid := horder.paid_bounds limit (by omega : 0 < offered)
      simp only [plan, if_neg hzero] at hvisit
      rcases List.mem_cons.mp hvisit with rfl | hrest
      · exact ⟨horder, by dsimp only; omega, le_refl _, rfl⟩
      · obtain ⟨hstanding, hpos, hle, hfill⟩ :=
          ih (fun o ho => horders o (List.mem_cons_of_mem order ho)) (by omega) hrest
        exact ⟨hstanding, hpos, by omega, hfill⟩

theorem unspent_plan (horders : ∀ order ∈ orders, Standing order) (hoffered : 0 ≤ offered) :
    0 ≤ unspent offered (plan limit offered orders) ∧
      unspent offered (plan limit offered orders) ≤ offered := by
  induction orders generalizing offered with
  | nil => simpa [plan] using hoffered
  | cons order rest ih =>
    by_cases hzero : offered = 0
    · simp [hzero]
    · have hpaid := (horders order List.mem_cons_self).paid_bounds limit (by omega : 0 < offered)
      have hrest := ih (fun o ho => horders o (List.mem_cons_of_mem order ho))
        (Int.sub_nonneg.mpr hpaid.2)
      simp only [plan, if_neg hzero, unspent_cons]
      omega

/-! ### The orders that match -/

section Candidates

variable {s : State} {pnew : CMPMetaDEx}

/-- The order comes before the other one: it is cheaper, or as cheap and older. -/
def Precedes (order other : CMPMetaDEx) : Prop :=
  order.unitPrice < other.unitPrice ∨ order.unitPrice = other.unitPrice ∧
    (order.block < other.block ∨ order.block = other.block ∧ order.idx < other.idx)

/-- The order sells what the new one desires for what it offers, at a price it is willing to pay. -/
def Matches (pnew order : CMPMetaDEx) : Prop :=
  order.property = pnew.desiredProperty ∧ order.desiredProperty = pnew.property ∧
    order.unitPrice ≤ pnew.inversePrice

theorem OrderOk.standing {prop : PropertyId} {price : ℚ} {key : OrderKey} {order : CMPMetaDEx}
    (h : OrderOk prop price key order) : Standing order :=
  ⟨h.remaining_pos, h.remaining_le, h.forsale_le, h.desired_pos, h.desired_le⟩

theorem State.mdSet_of_mem {prop : PropertyId} {level : ℚ × MdSet}
    (hlevel : level ∈ (s.metadex.getD prop ∅).toList) : s.mdSet prop level.1 = level.2 := by
  rw [mdSet, Std.ExtTreeMap.getD_eq_getD_getElem?, mem_toList.mp hlevel]
  rfl

theorem State.BookOk.of_mem_level (hbook : s.BookOk) {prop : PropertyId} {level : ℚ × MdSet}
    (hlevel : level ∈ (s.metadex.getD prop ∅).toList) {entry : OrderKey × CMPMetaDEx}
    (hentry : entry ∈ level.2.toList) : OrderOk prop level.1 entry.1 entry.2 :=
  hbook prop level.1 entry.1 entry.2 (by rw [mdSet_of_mem hlevel]; exact mem_toList.mp hentry)

theorem mem_candidates (hbook : s.BookOk) {order : CMPMetaDEx} :
    order ∈ candidates s pnew ↔
      s.orderAt (order.property, order.unitPrice, order.key) = some order ∧ Matches pnew order := by
  unfold candidates
  rw [List.mem_flatMap]
  constructor
  · rintro ⟨level, hlevel, hmem⟩
    split at hmem
    · cases hmem
    · next hprice =>
        obtain ⟨hmem, hdesired⟩ := List.mem_filter.mp hmem
        obtain ⟨entry, hentry, rfl⟩ := List.mem_map.mp hmem
        have hok := hbook.of_mem_level hlevel hentry
        refine ⟨?_, hok.property_eq, of_decide_eq_true hdesired, ?_⟩
        · rw [hok.property_eq, hok.price_eq, hok.key_eq, orderAt, mdSet_of_mem hlevel]
          exact mem_toList.mp hentry
        · rw [hok.price_eq]
          exact not_lt.mp hprice
  · rintro ⟨hget, hprop, hdesired, hprice⟩
    unfold orderAt mdSet at hget
    rw [hprop] at hget
    rw [Std.ExtTreeMap.getD_eq_getD_getElem?] at hget
    cases hlevel : (s.metadex.getD pnew.desiredProperty ∅)[order.unitPrice]? with
    | none => simp [hlevel] at hget
    | some level =>
      rw [hlevel, Option.getD_some] at hget
      refine ⟨(order.unitPrice, level), mem_toList.mpr hlevel, ?_⟩
      rw [if_neg (not_lt.mpr hprice)]
      refine List.mem_filter.mpr ⟨List.mem_map.mpr ⟨(order.key, order), mem_toList.mpr hget, rfl⟩, ?_⟩
      exact decide_eq_true hdesired

/-- **The matching orders are sorted** by price, block and index. -/
theorem candidates_sorted (hbook : s.BookOk) : (candidates s pnew).Pairwise Precedes := by
  unfold candidates
  refine List.pairwise_flatMap.mpr ⟨fun level hlevel => ?_, ?_⟩
  · split
    · exact List.Pairwise.nil
    · refine List.Pairwise.sublist List.filter_sublist (List.pairwise_map.mpr ?_)
      -- orders of one level have the same price
      refine (Std.ExtTreeMap.ordered_keys_toList (t := level.2)).imp_of_mem ?_
      intro entry entry' hentry hentry' hlt
      have hok := hbook.of_mem_level hlevel hentry
      have hok' := hbook.of_mem_level hlevel hentry'
      have hkeys : entry.2.key < entry'.2.key := by
        rw [hok.key_eq, hok'.key_eq]
        exact compare_lt_iff_lt.mp hlt
      exact .inr ⟨hok.price_eq.trans hok'.price_eq.symm, Prod.Lex.lt_iff.mp hkeys⟩
  · refine (Std.ExtTreeMap.ordered_keys_toList (t := s.metadex.getD pnew.desiredProperty ∅)).imp_of_mem ?_
    intro level level' hlevel hlevel' hlt order horder order' horder'
    have hprice : ∀ {level : ℚ × MdSet} {order : CMPMetaDEx},
        level ∈ (s.metadex.getD pnew.desiredProperty ∅).toList →
        order ∈ (if pnew.inversePrice < level.1 then []
          else (level.2.toList.map Prod.snd).filter fun o => o.desiredProperty = pnew.property) →
        order.unitPrice = level.1 := by
      intro level order hlevel horder
      split at horder
      · cases horder
      · obtain ⟨entry, hentry, rfl⟩ := List.mem_map.mp (List.mem_of_mem_filter horder)
        exact (hbook.of_mem_level hlevel hentry).price_eq
    refine .inl ?_
    rw [hprice hlevel horder, hprice hlevel' horder']
    exact compare_lt_iff_lt.mp hlt

end Candidates

end HcOmni
