import HcOmni.Matching.Plan

/-!
# The matching follows the plan

`x_Trade` is refined in two steps.  Its calculations in 256 bits and its comparisons of rational
prices give exactly the fill of the plan, without any of its assertions failing; and its nested loops
make the visits of the plan one after the other.  What remains of the code are the token movements of
each fill.
-/

namespace HcOmni

open MapSum Program State Rounding

variable {env : Env} {s s' : State} {pnew pold : CMPMetaDEx} {price : ℚ} {key : OrderKey}

/-! ### The calculations -/

theorem reads_assertThat_of {what : Assertion} {cond : Prop} [Decidable cond] {E : Halt → Prop}
    (h : cond) : Reads (assertThat what (decide cond)) (fun _ => True) E s := by
  unfold assertThat
  rw [if_pos (decide_eq_true h)]
  exact .pure trivial

theorem reads_amountCouldBuy_plan (hnew : Standing pnew) (hold : Standing pold) :
    Reads (amountCouldBuy pnew pold)
      (fun r => r = min (affordable pold.unitPrice pnew.amountRemaining) pold.amountRemaining)
      (fun _ => False) s := by
  have hremaining : 0 ≤ pnew.amountRemaining ∧ pnew.amountRemaining ≤ MAX_INT_8_BYTES :=
    ⟨Int.le_of_lt hnew.remaining_pos, Int.le_trans hnew.remaining_le hnew.forsale_le⟩
  have hforsale : 0 ≤ pold.amountForsale ∧ pold.amountForsale ≤ MAX_INT_8_BYTES :=
    ⟨Int.le_of_lt hold.forsale_pos, hold.forsale_le⟩
  have hdesired : 0 ≤ pold.amountDesired ∧ pold.amountDesired ≤ MAX_INT_8_BYTES :=
    ⟨Int.le_of_lt hold.desired_pos, hold.desired_le⟩
  have hleft : 0 ≤ pold.amountRemaining ∧ pold.amountRemaining ≤ MAX_INT_8_BYTES :=
    ⟨Int.le_of_lt hold.remaining_pos, Int.le_trans hold.remaining_le hold.forsale_le⟩
  refine .bind (reads_convertTo256_of_nonneg hremaining.1) fun _ h₁ =>
    .bind (reads_convertTo256_of_nonneg hforsale.1) fun _ h₂ =>
      .bind (reads_convertTo256_of_nonneg hdesired.1) fun _ h₃ => ?_
  subst h₁ h₂ h₃
  refine .bind (reads_divide256_of_ne (ofAmount_ne_zero hdesired (ne_of_gt hold.desired_pos)))
    fun could hcould => .bind (reads_convertTo256_of_nonneg hleft.1) fun _ h₄ => ?_
  subst h₄
  -- the product does not wrap, so the quotient is the exact one
  have hquotient : (could.toNat : Int) = affordable pold.unitPrice pnew.amountRemaining := by
    rw [hold.affordable_eq, hcould, BitVec.toNat_udiv, toNat_mul_ofAmount hremaining hforsale,
      toNat_ofAmount hdesired]
    push_cast
    rw [Int.toNat_of_nonneg hremaining.1, Int.toNat_of_nonneg hforsale.1,
      Int.toNat_of_nonneg hdesired.1]
  have hlt : could < BitVec.ofNat 256 pold.amountRemaining.toNat ↔
      (could.toNat : Int) < pold.amountRemaining := by
    rw [BitVec.lt_def, toNat_ofAmount hleft]
    omega
  refine .ite (fun h => ?_) fun h => .pure ?_
  · rw [hlt] at h
    refine (reads_convertTo64_of_le (by omega)).mono fun r hr => ?_
    rw [hr, ← hquotient]
    omega
  · rw [hlt] at h
    rw [← hquotient]
    omega

theorem reads_cost {α : Type} {units : Int} {f : Int → Op α} {P : α → Prop} {E : Halt → Prop}
    (hold : Standing pold) (hunits : 0 ≤ units ∧ units ≤ MAX_INT_8_BYTES)
    (hfits : cost pold.unitPrice units ≤ MAX_INT_8_BYTES)
    (h : Reads (f (cost pold.unitPrice units)) P E s) :
    Reads (do
      let units256 ← convertTo256 units
      let desired ← convertTo256 pold.amountDesired
      let forSale ← convertTo256 pold.amountForsale
      let needed ← divideAndRoundUp (units256 * desired) forSale
      let needed64 ← convertTo64 needed
      f needed64) P E s := by
  have hforsale : 0 ≤ pold.amountForsale ∧ pold.amountForsale ≤ MAX_INT_8_BYTES :=
    ⟨Int.le_of_lt hold.forsale_pos, hold.forsale_le⟩
  have hdesired : 0 ≤ pold.amountDesired ∧ pold.amountDesired ≤ MAX_INT_8_BYTES :=
    ⟨Int.le_of_lt hold.desired_pos, hold.desired_le⟩
  refine .bind (reads_convertTo256_of_nonneg hunits.1) fun _ h₁ =>
    .bind (reads_convertTo256_of_nonneg hdesired.1) fun _ h₂ =>
      .bind (reads_convertTo256_of_nonneg hforsale.1) fun _ h₃ => ?_
  subst h₁ h₂ h₃
  -- rounding up gives the least amount that is enough
  refine .bind (reads_divideAndRoundUp_amounts hunits hdesired hforsale hold.forsale_pos fun _ =>
    hold.cost_le_iff_mul_le) fun needed hcost => ?_
  refine .bind (reads_convertTo64_of_le (by omega)) fun needed64 hneeded64 => ?_
  rw [hneeded64, hcost]
  exact h

theorem reads_matchAmounts_plan (hnew : Standing pnew) (hold : Standing pold) :
    Reads (matchAmounts pnew pold)
      (fun r => r = fillOf pnew.inversePrice pnew.amountRemaining pold) (fun _ => False) s := by
  have hmost := Int.le_trans hnew.remaining_le hnew.forsale_le
  have hnonneg := affordable_nonneg hold.unitPrice_pos (Int.le_of_lt hnew.remaining_pos)
  have hleft := hold.remaining_pos
  unfold fillOf
  refine .bind (reads_amountCouldBuy_plan hnew hold) fun could hcould => ?_
  rw [← hcould]
  refine .ite (fun hzero => .pure (by rw [if_pos (.inl hzero)])) fun hne => ?_
  have hcould' : 0 ≤ could ∧ could ≤ MAX_INT_8_BYTES := by
    have := Int.le_trans hold.remaining_le hold.forsale_le
    omega
  have hpos : (0 : ℚ) < could := Int.cast_pos.mpr (by omega)
  have hpaid : cost pold.unitPrice could ≤ pnew.amountRemaining :=
    cost_le_of_le hold.unitPrice_pos (by omega)
  refine reads_cost hold hcould' (by omega) ?_
  refine .ite (fun hlimit => .pure (by rw [if_pos (.inr hlimit)])) fun hlimit => ?_
  rw [if_neg (by rintro (h | h); exacts [hne h, hlimit h])]
  have hseller : pold.unitPrice ≤ (cost pold.unitPrice could : ℚ) / could := by
    rw [le_div_iff₀ hpos, mul_comm]
    exact mul_le_cost
  refine .bind (reads_assertThat_of hseller) fun _ _ =>
    .bind (reads_assertThat_of (not_lt.mp hlimit)) fun _ _ => .pure rfl

theorem matchAmounts_eq (hnew : Standing pnew) (hold : Standing pold) :
    matchAmounts pnew pold = pure (fillOf pnew.inversePrice pnew.amountRemaining pold) :=
  funext fun _ => Reads.eq_ok (reads_matchAmounts_plan hnew hold)

/-! ### One visit -/

/-- The execution of a fill: payment, delivery, and the replacement of the old order by what is left
of it.  Nothing is asserted about the amounts. -/
def settle (env : Env) (pnew pold : CMPMetaDEx) (got paid : Int) : Op Unit := do
  let tradingFee ← tradingFeeOf env pnew pold got
  assertUpdateTallyMap pnew.addr pnew.property (-paid) .BALANCE
  assertUpdateTallyMap pold.addr pold.desiredProperty paid .BALANCE
  assertUpdateTallyMap pold.addr pold.property (-got) .METADEX_RESERVE
  assertUpdateTallyMap pnew.addr pnew.desiredProperty (got - tradingFee) .BALANCE
  record (.matchedTrade pold.txid pnew.txid pold.addr pnew.addr pold.desiredProperty
    pnew.desiredProperty paid (got - tradingFee) pnew.block tradingFee)
  modify fun s => s.replaceOrder pold.property pold.unitPrice pold (pold.amountRemaining - got)

/-- What a visit does to the ledger. -/
def settleVisit (env : Env) (pnew : CMPMetaDEx) (visit : Visit) : Op Unit :=
  match visit.fill with
  | none => pure ()
  | some fill => settle env pnew visit.order fill.1 fill.2

theorem assertThat_of {what : Assertion} {cond : Prop} [Decidable cond] (h : cond) :
    assertThat what (decide cond) = pure () := by
  unfold assertThat
  rw [if_pos (decide_eq_true h)]

theorem replace_eq {α : Type} {prop : PropertyId} {left : Int} (k : Op α) :
    (modify (fun s => s.eraseOrder prop price pold.key) >>= fun _ =>
      if 0 < left then
        modify (fun s => s.insertOrder prop price { pold with amountRemaining := left }) >>= fun _ => k
      else k) =
    modify (fun s => s.replaceOrder prop price pold left) >>= fun _ => k := by
  funext s
  by_cases hleft : 0 < left
  · rw [if_pos hleft]
    change k ((s.eraseOrder prop price pold.key).insertOrder prop price _) = k _
    rw [replaceOrder_of_pos hleft]
  · rw [if_neg hleft]
    change k (s.eraseOrder prop price pold.key) = k _
    rw [replaceOrder_of_nonpos hleft]

theorem executeTrade_eq {got paid : Int} (hprop : pold.property = pnew.desiredProperty)
    (hprice : pold.unitPrice = price) (hseller : got ≤ pold.amountRemaining)
    (hbuyer : paid ≤ pnew.amountRemaining) :
    executeTrade env price pnew pold got paid = settle env pnew pold got paid >>= fun _ =>
      pure { pnew with amountRemaining := pnew.amountRemaining - paid } := by
  have hseller' : 0 ≤ pold.amountRemaining - got := by omega
  have hbuyer' : 0 ≤ pnew.amountRemaining - paid := by omega
  unfold executeTrade settle
  dsimp only
  rw [assertThat_of hseller', assertThat_of hbuyer']
  simp only [pure_bind, bind_assoc, replace_eq]
  rw [hprop, hprice]

theorem Standing.unitPrice_le_inversePrice (hnew : Standing pnew) (hold : Standing pold)
    (hprice : pold.unitPrice ≤ pnew.inversePrice) : pnew.unitPrice ≤ pold.inversePrice := by
  rw [hold.unitPrice_eq, hnew.inversePrice_eq] at hprice
  rw [hnew.unitPrice_eq, hold.inversePrice_eq]
  have h₁ : (0 : ℚ) < pold.amountForsale := Int.cast_pos.mpr hold.forsale_pos
  have h₂ : (0 : ℚ) < pold.amountDesired := Int.cast_pos.mpr hold.desired_pos
  have h₃ : (0 : ℚ) < pnew.amountForsale := Int.cast_pos.mpr hnew.forsale_pos
  have h₄ : (0 : ℚ) < pnew.amountDesired := Int.cast_pos.mpr hnew.desired_pos
  rw [div_le_div_iff₀ h₁ h₄] at hprice
  rw [div_le_div_iff₀ h₃ h₂]
  linarith

/-- **One round of the inner loop is one visit.**  None of the assertions fails. -/
theorem xTradeOrder_eq (hnew : Standing pnew) (hsides : pnew.property ≠ pnew.desiredProperty)
    (hok : OrderOk pnew.desiredProperty price key pold) (hprice : price ≤ pnew.inversePrice)
    (hmatch : pold.desiredProperty = pnew.property) :
    let visit : Visit :=
      ⟨pold, pnew.amountRemaining, fillOf pnew.inversePrice pnew.amountRemaining pold⟩
    xTradeOrder env price pnew pold = settleVisit env pnew visit >>= fun _ =>
      pure ({ pnew with amountRemaining := pnew.amountRemaining - visit.paid },
        decide (pnew.amountRemaining - visit.paid = 0)) := by
  intro visit
  have hold := hok.standing
  have hremaining := hnew.remaining_pos
  have hcross := hnew.unitPrice_le_inversePrice hold (hok.price_eq.le.trans hprice)
  unfold xTradeOrder
  rw [assertThat_of hok.price_eq, if_neg (not_not.mpr hmatch), assertThat_of hold.remaining_pos,
    assertThat_of hremaining, assertThat_of hsides, assertThat_of hok.property_eq,
    assertThat_of (hok.price_eq.le.trans hprice), assertThat_of hcross,
    matchAmounts_eq hnew hold]
  simp only [pure_bind]
  cases hfill : fillOf pnew.inversePrice pnew.amountRemaining pold with
  | none =>
    have hpaid : visit.paid = 0 := by simp [visit, Visit.paid, hfill]
    have hsettle : settleVisit env pnew visit = pure () := by simp [settleVisit, visit, hfill]
    rw [hpaid, hsettle, Int.sub_zero, pure_bind, decide_eq_false (ne_of_gt hremaining)]
  | some fill =>
    obtain ⟨-, hseller, -, -, hbuyer, -⟩ := hold.fillOf_eq_some hremaining hfill
    have hpaid : visit.paid = fill.2 := by simp [visit, Visit.paid, hfill]
    have hsettle : settleVisit env pnew visit = settle env pnew pold fill.1 fill.2 := by
      simp [settleVisit, visit, hfill]
    rw [hpaid, hsettle]
    simp only [executeTrade_eq hok.property_eq hok.price_eq hseller hbuyer, bind_assoc, pure_bind]

/-! ### The loops -/

theorem Standing.spend {pnew : CMPMetaDEx} {limit : ℚ} (hnew : Standing pnew) (hold : Standing pold)
    (hleft : pnew.amountRemaining - (⟨pold, pnew.amountRemaining,
      fillOf limit pnew.amountRemaining pold⟩ : Visit).paid ≠ 0) :
    Standing { pnew with amountRemaining := pnew.amountRemaining - (⟨pold, pnew.amountRemaining,
      fillOf limit pnew.amountRemaining pold⟩ : Visit).paid } := by
  have hpaid := hold.paid_bounds limit hnew.remaining_pos
  have hle := hnew.remaining_le
  exact ⟨by dsimp only; omega, by dsimp only; omega, hnew.forsale_le, hnew.desired_pos,
    hnew.desired_le⟩

/-- What a program that follows the visits of a plan does. -/
def follow (env : Env) (pnew : CMPMetaDEx) (visits : List Visit) : Op CMPMetaDEx :=
  visits.forM (settleVisit env pnew) >>= fun _ =>
    pure { pnew with amountRemaining := unspent pnew.amountRemaining visits }

@[simp] theorem follow_nil : follow env pnew [] = pure pnew := by
  unfold follow
  rw [unspent_nil]
  rfl

theorem follow_cons {visit : Visit} {visits : List Visit} :
    follow env pnew (visit :: visits) = settleVisit env pnew visit >>= fun _ =>
      follow env { pnew with amountRemaining := pnew.amountRemaining - visit.paid } visits := by
  unfold follow
  rw [unspent_cons]
  change (settleVisit env pnew visit >>= fun _ => visits.forM _) >>= _ = _
  rw [bind_assoc]
  rfl

theorem follow_append {before after : List Visit} :
    follow env pnew (before ++ after) = follow env pnew before >>= fun traded =>
      follow env traded after := by
  induction before generalizing pnew with
  | nil => simp
  | cons visit rest ih => simp only [List.cons_append, follow_cons, bind_assoc, ih]

theorem follow_bind_congr {α : Type} {visits : List Visit} {k k' : CMPMetaDEx → Op α}
    (h : k { pnew with amountRemaining := unspent pnew.amountRemaining visits } =
      k' { pnew with amountRemaining := unspent pnew.amountRemaining visits }) :
    (follow env pnew visits >>= k) = follow env pnew visits >>= k' := by
  simp only [follow, bind_assoc, pure_bind]
  rw [h]

theorem xTradeOrder_of_ne (hok : OrderOk pnew.desiredProperty price key pold)
    (hother : pold.desiredProperty ≠ pnew.property) :
    xTradeOrder env price pnew pold = pure (pnew, false) := by
  unfold xTradeOrder
  rw [assertThat_of hok.price_eq, if_pos hother]
  rfl

/-- **The inner loop** follows the plan for the orders of its level. -/
theorem xTradeLevel_eq {entries : List (OrderKey × CMPMetaDEx)} (hnew : Standing pnew)
    (hprice : price ≤ pnew.inversePrice)
    (hok : ∀ entry ∈ entries, OrderOk pnew.desiredProperty price entry.1 entry.2)
    (hsides : ∀ entry ∈ entries, entry.2.desiredProperty = pnew.property →
      pnew.property ≠ pnew.desiredProperty) :
    xTradeLevel env price pnew (entries.map Prod.snd) =
      follow env pnew (plan pnew.inversePrice pnew.amountRemaining
        ((entries.map Prod.snd).filter fun order => order.desiredProperty = pnew.property)) >>=
      fun traded => pure (traded, decide (traded.amountRemaining = 0)) := by
  induction entries generalizing pnew with
  | nil =>
    have hne : pnew.amountRemaining ≠ 0 := ne_of_gt hnew.remaining_pos
    simp [xTradeLevel, plan, hne]
  | cons entry rest ih =>
    have hentry := hok entry List.mem_cons_self
    have hrest := fun e he => hok e (List.mem_cons_of_mem entry he)
    have hsides' := fun e he => hsides e (List.mem_cons_of_mem entry he)
    rw [List.map_cons, xTradeLevel]
    by_cases hmatch : entry.2.desiredProperty = pnew.property
    · rw [xTradeOrder_eq hnew (hsides entry List.mem_cons_self hmatch) hentry hprice hmatch,
        List.filter_cons_of_pos (by simpa using hmatch), plan,
        if_neg (ne_of_gt hnew.remaining_pos), follow_cons]
      simp only [bind_assoc, pure_bind]
      congr
      funext _
      by_cases hleft : pnew.amountRemaining - (⟨entry.2, pnew.amountRemaining,
          fillOf pnew.inversePrice pnew.amountRemaining entry.2⟩ : Visit).paid = 0
      · simp [hleft]
      · rw [if_neg (by simpa using hleft),
          ih (hnew.spend hentry.standing hleft) hprice hrest hsides']
        rfl
    · rw [xTradeOrder_of_ne hentry hmatch, List.filter_cons_of_neg (by simpa using hmatch),
        pure_bind, if_neg Bool.false_ne_true]
      exact ih hnew hprice hrest hsides'

/-- **The outer loop** follows the plan for the orders of all levels that are cheap enough. -/
theorem xTradePrices_eq {levels : List (ℚ × MdSet)} (hnew : Standing pnew)
    (hok : ∀ level ∈ levels, ∀ entry ∈ level.2.toList,
      OrderOk pnew.desiredProperty level.1 entry.1 entry.2)
    (hsides : ∀ level ∈ levels, ∀ entry ∈ level.2.toList,
      entry.2.desiredProperty = pnew.property → pnew.property ≠ pnew.desiredProperty) :
    xTradePrices env pnew levels = follow env pnew (plan pnew.inversePrice pnew.amountRemaining
      (levels.flatMap fun level =>
        if pnew.inversePrice < level.1 then []
        else (level.2.toList.map Prod.snd).filter fun order =>
          order.desiredProperty = pnew.property)) := by
  induction levels generalizing pnew with
  | nil => simp [xTradePrices, plan]
  | cons level rest ih =>
    obtain ⟨price, offers⟩ := level
    have hlevel := hok (price, offers) List.mem_cons_self
    have hrest := fun l hl => hok l (List.mem_cons_of_mem (price, offers) hl)
    have hsides' := fun l hl => hsides l (List.mem_cons_of_mem (price, offers) hl)
    rw [xTradePrices, List.flatMap_cons]
    by_cases hprice : pnew.inversePrice < price
    · rw [if_pos hprice, if_pos hprice, List.nil_append]
      exact ih hnew hrest hsides'
    · rw [if_neg hprice, if_neg hprice, plan_append, follow_append,
        xTradeLevel_eq hnew (not_lt.mp hprice) hlevel (hsides (price, offers) List.mem_cons_self)]
      have hstanding : ∀ order ∈ (offers.toList.map Prod.snd).filter fun order =>
          order.desiredProperty = pnew.property, Standing order := by
        intro order horder
        obtain ⟨entry, hentry, rfl⟩ := List.mem_map.mp (List.mem_of_mem_filter horder)
        exact (hlevel entry hentry).standing
      have hleft : 0 ≤ unspent pnew.amountRemaining (plan pnew.inversePrice pnew.amountRemaining _) ∧
          unspent pnew.amountRemaining (plan pnew.inversePrice pnew.amountRemaining _) ≤
            pnew.amountRemaining := unspent_plan hstanding (Int.le_of_lt hnew.remaining_pos)
      have hle := hnew.remaining_le
      simp only [bind_assoc, pure_bind]
      refine follow_bind_congr ?_
      generalize unspent pnew.amountRemaining _ = left at hleft ⊢
      by_cases hzero : left = 0
      · simp [hzero]
      · rw [if_neg (by simpa using hzero)]
        exact ih ⟨by dsimp only; omega, by dsimp only; omega, hnew.forsale_le, hnew.desired_pos,
          hnew.desired_le⟩ hrest hsides'

/-- The new order trades two properties, or no stored order trades a property against itself. -/
def Sided (s : State) (pnew : CMPMetaDEx) : Prop :=
  pnew.property ≠ pnew.desiredProperty ∨
    ∀ place order, s.orderAt place = some order → order.property ≠ order.desiredProperty

/-- **The matching follows its plan.** -/
theorem xTrade_eq (hbook : s.BookOk) (hnew : Standing pnew) (hsides : Sided s pnew) :
    xTrade env pnew s = follow env pnew (visitsOf s pnew) s := by
  unfold xTrade
  rw [bind_of_ok (rfl : (get : Op State) s = .ok s s),
    xTradePrices_eq hnew fun level hlevel entry hentry => hbook.of_mem_level hlevel hentry]
  · rfl
  · intro level hlevel entry hentry hmatch
    rcases hsides with hne | hbookSides
    · exact hne
    · have hok := hbook.of_mem_level hlevel hentry
      have hstored : s.orderAt (pnew.desiredProperty, level.1, entry.1) = some entry.2 := by
        rw [orderAt, mdSet_of_mem hlevel]
        exact mem_toList.mp hentry
      have hne := hbookSides _ _ hstored
      rw [hok.property_eq, hmatch] at hne
      exact hne.symm

end HcOmni
