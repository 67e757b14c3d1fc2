import HcOmni.Conformance.Fees

/-!
# The token exchange takes only steps

A new order is matched against a snapshot of the book.  The loops keep two things: the orders of
the snapshot that are still to come are stored unchanged, since a match touches only the order it
looks at, and the buyer still has what remains of the new order.
-/

namespace HcOmni

open Std MapSum Program CMPTally State

variable {c : Ctx} {s s' : State} {env : Env}

/-! ### The book -/

/-- The order stored at a place of the book. -/
def State.orderAt (s : State) (place : PropertyId × ℚ × OrderKey) : Option CMPMetaDEx :=
  (s.mdSet place.1 place.2.1)[place.2.2]?

/-- Where an order of a level belongs. -/
def placeOf (entry : PropertyId × ℚ × CMPMetaDEx) : PropertyId × ℚ × OrderKey :=
  (entry.1, entry.2.1, entry.2.2.key)

section Book

variable {prop : PropertyId} {price : ℚ} {order : CMPMetaDEx} {left : Int}

theorem putMdSet_putMdSet (s : State) (prop : PropertyId) (price : ℚ) (orders orders' : MdSet) :
    (s.putMdSet prop price orders).putMdSet prop price orders' = s.putMdSet prop price orders' := by
  unfold putMdSet
  simp [insert_insert_self]

theorem replaceOrder_of_pos (hleft : 0 < left) :
    (s.eraseOrder prop price order.key).insertOrder prop price { order with amountRemaining := left } =
      s.replaceOrder prop price order left := by
  unfold eraseOrder insertOrder replaceOrder
  rw [putMdSet_putMdSet, mdSet_putMdSet, if_pos ⟨rfl, rfl⟩, if_pos hleft]
  rfl

theorem replaceOrder_of_nonpos (hleft : ¬0 < left) :
    s.eraseOrder prop price order.key = s.replaceOrder prop price order left := by
  unfold eraseOrder replaceOrder
  rw [if_neg hleft]

theorem orderAt_replaceOrder_of_ne {place : PropertyId × ℚ × OrderKey}
    (hne : place ≠ (prop, price, order.key)) :
    (s.replaceOrder prop price order left).orderAt place = s.orderAt place := by
  unfold replaceOrder orderAt
  rw [mdSet_putMdSet]
  by_cases hlevel : prop = place.1 ∧ price = place.2.1
  · have hkey : order.key ≠ place.2.2 := fun hkey => hne (by
      obtain ⟨hprop, hprice⟩ := hlevel
      rw [hprop, hprice, hkey])
    rw [if_pos hlevel, hlevel.1, hlevel.2]
    split
    · rw [getElem?_insert_of_ne hkey, getElem?_erase_of_ne hkey]
    · rw [getElem?_erase_of_ne hkey]
  · rw [if_neg hlevel]

theorem orderAt_replaceOrder_same :
    (s.replaceOrder prop price order left).orderAt (prop, price, order.key) =
      if 0 < left then some { order with amountRemaining := left } else none := by
  unfold replaceOrder orderAt
  rw [mdSet_putMdSet, if_pos ⟨rfl, rfl⟩]
  split <;> simp

theorem orderAt_eraseOrder_of_ne {place : PropertyId × ℚ × OrderKey} {key : OrderKey}
    (hne : place ≠ (prop, price, key)) :
    (s.eraseOrder prop price key).orderAt place = s.orderAt place := by
  unfold eraseOrder orderAt
  rw [mdSet_putMdSet]
  by_cases hlevel : prop = place.1 ∧ price = place.2.1
  · have hkey : key ≠ place.2.2 := fun hkey => hne (by
      obtain ⟨hprop, hprice⟩ := hlevel
      rw [hprop, hprice, hkey])
    rw [if_pos hlevel, hlevel.1, hlevel.2, getElem?_erase_of_ne hkey]
  · rw [if_neg hlevel]

end Book

/-! ### The amounts of a match -/

theorem reads_amountCouldBuy {pnew pold : CMPMetaDEx} :
    Reads (amountCouldBuy pnew pold) (fun _ => True) (CalcError True) s := by
  refine .bind reads_convertTo256 fun _ _ => .bind reads_convertTo256 fun _ _ =>
    .bind reads_convertTo256 fun _ _ => .bind (reads_divide256 fun _ => trivial) fun _ _ =>
      .bind reads_convertTo256 fun _ _ => ?_
  exact .ite (fun _ => reads_convertTo64.mono fun _ _ => trivial) fun _ => .pure trivial

theorem reads_matchAmounts {pnew pold : CMPMetaDEx} :
    Reads (matchAmounts pnew pold)
      (fun r => ∀ amounts, r = some amounts → 0 < amounts.1 ∧
        pold.unitPrice ≤ (amounts.2 : ℚ) / amounts.1 ∧
        (amounts.2 : ℚ) / amounts.1 ≤ pnew.inversePrice) (CalcError True) s := by
  refine .bind reads_amountCouldBuy fun could _ => ?_
  refine .ite (fun _ => .pure (fun _ h => by cases h)) fun hne => ?_
  refine .bind reads_convertTo256 fun could256 hcould256 =>
    .bind reads_convertTo256 fun _ _ => .bind reads_convertTo256 fun _ _ =>
      .bind (reads_divideAndRoundUp fun _ => trivial) fun _ _ =>
        .bind reads_convertTo64 fun pay _ => ?_
  refine .ite (fun _ => .pure (fun _ h => by cases h)) fun _ => ?_
  refine .bind reads_assertOther fun _ hseller => .bind reads_assertOther fun _ hbuyer => .pure ?_
  rintro amounts ⟨⟩
  have hpos : 0 < could := by have := hcould256.1; omega
  exact ⟨hpos, of_decide_eq_true hseller, of_decide_eq_true hbuyer⟩

theorem CMPMetaDEx.le_of_unitPrice_le {order : CMPMetaDEx} {got paid : Int} (hgot : 0 < got)
    (hforsale : 0 < order.amountForsale) (h : order.unitPrice ≤ (paid : ℚ) / got) :
    got * order.amountDesired ≤ paid * order.amountForsale := by
  have hforsale' : (0 : ℚ) < order.amountForsale := by exact_mod_cast hforsale
  have hgot' : (0 : ℚ) < got := by exact_mod_cast hgot
  rw [unitPrice, if_pos (by omega), div_le_div_iff₀ hforsale' hgot'] at h
  rw [Int.mul_comm got]
  exact_mod_cast h

theorem CMPMetaDEx.pos_of_unitPrice_le {order : CMPMetaDEx} {got paid : Int} (hgot : 0 < got)
    (hforsale : 0 < order.amountForsale) (hdesired : 0 < order.amountDesired)
    (h : order.unitPrice ≤ (paid : ℚ) / got) : 0 < paid := by
  have hle := le_of_unitPrice_le hgot hforsale h
  have hleft : 0 < got * order.amountDesired := Int.mul_pos hgot hdesired
  by_contra hpaid
  have := Int.mul_nonpos_of_nonpos_of_nonneg (Int.not_lt.mp hpaid) (Int.le_of_lt hforsale)
  omega

/-! ### Fees of a match -/

theorem wp_tradingFeeOf {pnew pold : CMPMetaDEx} {price : ℚ} {got : Int} (hs : Sound c s)
    (hblock : pnew.block = c.block) (hprop : pold.property = pnew.desiredProperty)
    (hfees : c.Strict → s.aux.params.isFeatureActivated FEATURE_FEES pnew.block = false)
    (hstored : s.orderAt (pnew.desiredProperty, price, pold.key) = some pold)
    (hgot : 0 < got ∧ got ≤ pold.amountRemaining) :
    wp (tradingFeeOf env pnew pold got)
      (fun fee s₀ => FeeStep c pold.property fee s s₀ ∧ (c.Strict → s₀ = s ∧ fee = 0) ∧
        0 ≤ fee ∧ fee < got) (Fails c (Steps c s)) s := by
  unfold tradingFeeOf
  rw [wp_bind, wp_get, wp_ite]
  refine ⟨fun hactive => ?_, fun _ => ⟨FeeStep.refl hs.feesReady, fun _ => ⟨rfl, rfl⟩, le_rfl, hgot.1⟩⟩
  have hloose : ¬c.Strict := fun hstrict => by
    have := hfees hstrict
    rw [hactive.1] at this
    cases this
  have hfee : 0 ≤ got.tdiv 2000 ∧ got.tdiv 2000 < got := by
    rw [Int.tdiv_eq_ediv_of_nonneg (Int.le_of_lt hgot.1)]
    omega
  have hreserved := hs.remaining_le_reserve hstored
  have hheld := hs.range.money_le_held pold.addr pold.property (t := .METADEX_RESERVE) (by decide)
  rw [wp_bind, hblock, ← hprop]
  refine wp_mono (wp_addFee hloose hs.range fun htracks => ⟨hs.feesReady htracks, hfee.1, ?_⟩)
    (fun _ s₀ hstep => ⟨hstep, fun hstrict => absurd hstrict hloose, hfee⟩)
    fun e s₀ h => ⟨fun hlive => ?_, h.2⟩
  · have := hs.held_le htracks pold.property
    omega
  · obtain ⟨hnot, hstep⟩ := h.1 hlive
    exact .single (.distribute hloose hstep (.inr ⟨hnot, hactive.2.1⟩))

/-! ### Matching -/

/-- What is kept while `pnew₀` is matched; `pnew` is what is left of it. -/
structure Trading (c : Ctx) (pnew₀ pnew : CMPMetaDEx) (s : State) : Prop where
  sound : Sound c s
  same : pnew = { pnew₀ with amountRemaining := pnew.amountRemaining }
  block : pnew.block = c.block
  free : s.isAddressFrozen pnew.addr pnew.property = false
  feeless : c.Strict → s.aux.params.isFeatureActivated FEATURE_FEES pnew.block = false
  funded : c.Strict → pnew.amountRemaining ≤ s.money pnew.addr pnew.property .BALANCE
  remaining : pnew.amountRemaining ≤ pnew.amountForsale

/-- The tokens of a match have changed hands: all that is missing to a step is that the old order
is replaced by what is left of it. -/
structure Delivered (c : Ctx) (s s' : State) (buyer : Address) (pold : CMPMetaDEx) (price : ℚ)
    (got paid : Int) : Prop where
  step : Step c s (s'.replaceOrder pold.property price pold (pold.amountRemaining - got))
  book : s'.metadex = s.metadex
  left : c.Strict → pold.property ≠ pold.desiredProperty →
    s.money buyer pold.desiredProperty .BALANCE - paid ≤ s'.money buyer pold.desiredProperty .BALANCE

theorem wp_deliver {pnew pold : CMPMetaDEx} {price : ℚ} {got paid : Int}
    {Q : Int → State → Prop} (hs : Sound c s) (hblock : pnew.block = c.block)
    (hdesired : pold.desiredProperty = pnew.property)
    (hprop : pold.property = pnew.desiredProperty)
    (hfree : s.isAddressFrozen pnew.addr pnew.property = false)
    (hfees : c.Strict → s.aux.params.isFeatureActivated FEATURE_FEES pnew.block = false)
    (hfunded : c.Strict → paid ≤ s.money pnew.addr pnew.property .BALANCE)
    (hstored : s.orderAt (pnew.desiredProperty, price, pold.key) = some pold)
    (hgot : 0 < got ∧ got ≤ pold.amountRemaining) (hpaid : 0 < paid)
    (h : ∀ fee s', Delivered c s s' pnew.addr pold price got paid → Q fee s') :
    wp (tradingFeeOf env pnew pold got) (fun fee s₀ =>
      wp (assertUpdateTallyMap pnew.addr pnew.property (-paid) .BALANCE) (fun _ s₁ =>
      wp (assertUpdateTallyMap pold.addr pold.desiredProperty paid .BALANCE) (fun _ s₂ =>
      wp (assertUpdateTallyMap pold.addr pold.property (-got) .METADEX_RESERVE) (fun _ s₃ =>
      wp (assertUpdateTallyMap pnew.addr pnew.desiredProperty (got - fee) .BALANCE)
        (fun _ s' => Q fee s') (Fails c (Steps c s)) s₃) (Fails c (Steps c s)) s₂)
          (Fails c (Steps c s)) s₁) (Fails c (Steps c s)) s₀) (Fails c (Steps c s)) s := by
  refine wp_mono (wp_tradingFeeOf hs hblock hprop hfees hstored hgot) ?_ fun _ _ he => he
  rintro fee s₀ ⟨hfee, hfeeless, hfee_nonneg, hfee_lt⟩
  rw [← hprop] at hstored
  rw [← hdesired] at hfree hfunded
  have hfree₀ : s₀.isAddressFrozen pnew.addr pold.desiredProperty = false := by
    rw [State.isAddressFrozen, hfee.frame]
    exact hfree
  rw [← hdesired, ← hprop]
  refine wp_move (by decide) (by decide) (Int.le_of_lt hpaid) (fun _ => hfree₀)
    (fun hstrict => ?_) fun hpay => ?_
  · obtain ⟨rfl, -⟩ := hfeeless hstrict
    exact ⟨hs.range, hs.canMove hstrict (by decide) (by decide) hpaid (hfunded hstrict)⟩
  -- in strict circumstances the payment is a transfer, after which the order is still reserved
  have hdelivery : c.Strict →
      (s₀.move pold.desiredProperty paid pnew.addr .BALANCE pold.addr .BALANCE).InRange ∧
      (s₀.move pold.desiredProperty paid pnew.addr .BALANCE pold.addr .BALANCE).CanMove
        pold.property got pold.addr .METADEX_RESERVE pnew.addr .BALANCE := by
    intro hstrict
    obtain ⟨rfl, -⟩ := hfeeless hstrict
    have hsound := hs.step (.transfer hpay hfree)
    exact ⟨hsound.range, hsound.canMove hstrict (by decide) (by decide) hgot.1
      (hgot.2.trans (hsound.remaining_le_reserve hstored))⟩
  refine wp_assertUpdateTallyMap (by decide) (fun h => by cases h) (fun hstrict => ?_) fun htake => ?_
  · have := (hdelivery hstrict).2.enough
    exact ⟨by omega, by omega, by omega⟩
  refine wp_assertUpdateTallyMap (by decide) (fun _ hneg => by omega) (fun hstrict => ?_)
    fun hgive => ?_
  · obtain ⟨-, rfl⟩ := hfeeless hstrict
    obtain ⟨hrange, hmove⟩ := hdelivery hstrict
    have := (hrange.debit (Int.le_of_lt hgot.1) hmove.enough) pnew.addr pold.property .BALANCE
      (by decide)
    rw [Int.sub_zero]
    exact ⟨by omega, by omega, fun _ => hmove.room⟩
  refine h fee _ ⟨?_, hfee.metadex_eq, fun hstrict hne => ?_⟩
  · exact .orderFill hfee hfeeless hfee_nonneg hfee_lt hstored hgot.2 hfree hpay
      (by have := htake.2.1; omega) (hgive.2.2 (by omega))
  · obtain ⟨rfl, -⟩ := hfeeless hstrict
    rw [money_addTally, money_addTally, money_move]
    simp only [hne, reduceCtorEq, and_false, if_false, Int.add_zero, and_true, if_true]
    split <;> omega

theorem Trading.fill {pnew₀ pnew pold : CMPMetaDEx} {price : ℚ} {got paid : Int}
    (h : Trading c pnew₀ pnew s) (hdesired : pold.desiredProperty = pnew.property)
    (hne : pold.property ≠ pold.desiredProperty) (hpaid : 0 < paid)
    (hdelivered : Delivered c s s' pnew.addr pold price got paid) (entry : DbRecord) (s'' : State)
    (hend : s'' = { s'.replaceOrder pold.property price pold (pold.amountRemaining - got) with
      aux.records := s'.aux.records ++ [entry] }) :
    Steps c s s'' ∧
      Trading c pnew₀ { pnew with amountRemaining := pnew.amountRemaining - paid } s'' ∧
      ∀ place, place ≠ (pold.property, price, pold.key) → s''.orderAt place = s.orderAt place := by
  subst hend
  have hsteps := Steps.record (.single hdelivered.step) entry
  refine ⟨hsteps, ⟨hsteps.sound h.sound, ?_, h.block, (hsteps.isAddressFrozen _ _).trans h.free,
    fun hstrict => ?_, fun hstrict => ?_, ?_⟩, fun place hplace => ?_⟩
  · rw [h.same]
  · have hparams := hsteps.params_eq
    dsimp only at hparams ⊢
    rw [hparams]
    exact h.feeless hstrict
  · have hleft := hdelivered.left hstrict hne
    have := h.funded hstrict
    rw [hdesired] at hleft
    change pnew.amountRemaining - paid ≤ s'.money pnew.addr pnew.property .BALANCE
    omega
  · have := h.remaining
    dsimp only
    omega
  · change (s'.replaceOrder _ _ _ _).orderAt place = _
    rw [orderAt_replaceOrder_of_ne hplace, orderAt, mdSet, hdelivered.book]
    rfl

/-- **A match is one step of the exchange.** -/
theorem conforms_executeTrade {pnew₀ pnew pold : CMPMetaDEx} {price : ℚ} {got paid : Int}
    (h : Trading c pnew₀ pnew s) (hdesired : pold.desiredProperty = pnew.property)
    (hprop : pold.property = pnew.desiredProperty) (hne : pnew.property ≠ pnew.desiredProperty)
    (hstored : s.orderAt (pnew.desiredProperty, price, pold.key) = some pold)
    (hgot : 0 < got) (hpaid : 0 < paid) :
    Conforms c.contract (executeTrade env price pnew pold got paid)
      (fun traded s' => Trading c pnew₀ traded s' ∧
        ∀ place, place ≠ (pnew.desiredProperty, price, pold.key) →
          s'.orderAt place = s.orderAt place) s := by
  unfold executeTrade
  refine conforms_assertThat (fun _ => id) fun hseller => conforms_assertThat (fun _ => id)
    fun hbuyer => ?_
  replace hseller := of_decide_eq_true hseller
  replace hbuyer := of_decide_eq_true hbuyer
  rw [conforms_iff]
  simp only [wp_bind]
  refine wp_deliver h.sound h.block hdesired hprop h.free h.feeless
    (fun hstrict => by have := h.funded hstrict; omega) hstored ⟨hgot, by omega⟩ hpaid
    fun fee s' hdelivered => ?_
  have hfill := fun entry s'' => h.fill hdesired (by rw [hprop, hdesired]; exact hne.symm) hpaid
    hdelivered entry s''
  rw [hprop] at hfill
  rw [wp_record, wp_modify]
  by_cases hleft : 0 < pold.amountRemaining - got
  · rw [if_pos hleft, wp_bind, wp_modify, replaceOrder_of_pos hleft]
    exact hfill _ _ rfl
  · rw [if_neg hleft, replaceOrder_of_nonpos hleft]
    exact hfill _ _ rfl

theorem conforms_xTradeOrder {pnew₀ pnew pold : CMPMetaDEx} {price : ℚ}
    (h : Trading c pnew₀ pnew s)
    (hstored : s.orderAt (pnew₀.desiredProperty, price, pold.key) = some pold) :
    Conforms c.contract (xTradeOrder env price pnew pold)
      (fun seen s' => Trading c pnew₀ seen.1 s' ∧
        ∀ place, place ≠ (pnew₀.desiredProperty, price, pold.key) →
          s'.orderAt place = s.orderAt place) s := by
  have hsame : pnew.desiredProperty = pnew₀.desiredProperty := by rw [h.same]
  have hok := h.sound.book _ _ _ _ hstored
  rw [← hsame] at hstored ⊢
  unfold xTradeOrder
  refine conforms_assertThat (fun _ => id) fun _ => Conforms.ite
    (fun _ => Conforms.pure ⟨h, fun _ _ => rfl⟩) fun hdesired => ?_
  refine conforms_assertThat (fun _ => id) fun _ => conforms_assertThat (fun _ => id) fun _ =>
    conforms_assertThat (fun _ => id) fun hne => conforms_assertThat (fun _ => id) fun hprop =>
      conforms_assertThat (fun _ => id) fun _ => conforms_assertThat (fun _ => id) fun _ => ?_
  refine conforms_calc reads_matchAmounts fun amounts hamounts => ?_
  cases amounts with
  | none => exact Conforms.pure ⟨h, fun _ _ => rfl⟩
  | some amounts =>
    obtain ⟨hgot, hprice, -⟩ := hamounts amounts rfl
    have hpaid := CMPMetaDEx.pos_of_unitPrice_le hgot
      (Int.lt_of_lt_of_le hok.remaining_pos hok.remaining_le) hok.desired_pos hprice
    exact Conforms.bind (conforms_executeTrade h (not_not.mp hdesired) (of_decide_eq_true hprop)
      (of_decide_eq_true hne) hstored hgot hpaid) fun _ _ _ htraded => Conforms.pure htraded

/-! ### The loops -/

/-- The orders of a level are stored under their keys. -/
def LevelStored (s : State) (prop : PropertyId) (level : ℚ × MdSet) : Prop :=
  ((level.2.toList.map Prod.snd).map CMPMetaDEx.key).Nodup ∧
    ∀ o ∈ level.2.toList.map Prod.snd, s.orderAt (prop, level.1, o.key) = some o

theorem State.BookOk.levelStored (hs : s.BookOk) {prop : PropertyId} {level : ℚ × MdSet}
    (hlevel : level ∈ (s.metadex.getD prop ∅).toList) : LevelStored s prop level := by
  have hset : s.mdSet prop level.1 = level.2 := by
    rw [mdSet, ExtTreeMap.getD_eq_getD_getElem?, mem_toList.mp hlevel]
    rfl
  have hkey : ∀ entry ∈ level.2.toList, entry.2.key = entry.1 := fun entry hentry =>
    (hs prop level.1 entry.1 entry.2 (by rw [hset]; exact mem_toList.mp hentry)).key_eq
  constructor
  · rw [List.map_map, List.map_congr_left (f := CMPMetaDEx.key ∘ Prod.snd) (g := Prod.fst) hkey]
    exact nodup_keys_toList level.2
  · intro o ho
    obtain ⟨entry, hentry, rfl⟩ := List.mem_map.mp ho
    rw [orderAt, hset, hkey entry hentry]
    exact mem_toList.mp hentry

section Loops

variable {T : CMPMetaDEx → State → Prop} {E : Halt → State → Prop} {prop : PropertyId}
  (hround : ∀ (price : ℚ) (pnew pold : CMPMetaDEx) (s : State), T pnew s →
    s.orderAt (prop, price, pold.key) = some pold →
    wp (xTradeOrder env price pnew pold) (fun seen s' => T seen.1 s' ∧
      ∀ place, place ≠ (prop, price, pold.key) → s'.orderAt place = s.orderAt place) E s)

include hround

theorem wp_xTradeLevel {price : ℚ} :
    ∀ {orders : List CMPMetaDEx} {pnew : CMPMetaDEx} {s : State}, T pnew s →
      (orders.map CMPMetaDEx.key).Nodup →
      (∀ o ∈ orders, s.orderAt (prop, price, o.key) = some o) →
      wp (xTradeLevel env price pnew orders) (fun seen s' => T seen.1 s' ∧
        ∀ place, place.2.1 ≠ price → s'.orderAt place = s.orderAt place) E s
  | [], _, _, h, _, _ => ⟨h, fun _ _ => rfl⟩
  | pold :: rest, pnew, s, h, hnodup, hstored => by
    obtain ⟨hfresh, hnodup⟩ := List.nodup_cons.mp hnodup
    unfold xTradeLevel
    rw [wp_bind]
    refine wp_mono (hround price pnew pold s h (hstored pold List.mem_cons_self)) ?_
      fun _ _ he => he
    rintro seen s' ⟨h', hframe⟩
    have hlevel : ∀ place : PropertyId × ℚ × OrderKey, place.2.1 ≠ price →
        s'.orderAt place = s.orderAt place :=
      fun place hplace => hframe place fun heq => hplace (by rw [heq])
    rw [wp_ite]
    refine ⟨fun _ => ⟨h', hlevel⟩, fun _ => ?_⟩
    -- the orders still to come have other keys, so they are still stored
    refine wp_mono (wp_xTradeLevel h' hnodup fun o ho => ?_) ?_ fun _ _ he => he
    · rw [hframe]
      · exact hstored o (List.mem_cons_of_mem pold ho)
      · intro heq
        have hkey : o.key = pold.key := by simpa using heq
        exact hfresh (hkey ▸ List.mem_map_of_mem ho)
    · rintro seen' s'' ⟨h'', hframe'⟩
      exact ⟨h'', fun place hplace => (hframe' place hplace).trans (hlevel place hplace)⟩

theorem wp_xTradePrices :
    ∀ {levels : List (ℚ × MdSet)} {pnew : CMPMetaDEx} {s : State}, T pnew s →
      (levels.map Prod.fst).Nodup → (∀ level ∈ levels, LevelStored s prop level) →
      wp (xTradePrices env pnew levels) (fun traded s' => T traded s') E s
  | [], _, _, h, _, _ => h
  | (price, offers) :: rest, pnew, s, h, hnodup, hstored => by
    obtain ⟨hfresh, hnodup⟩ := List.nodup_cons.mp hnodup
    have hrest := fun level hlevel => hstored level (List.mem_cons_of_mem (price, offers) hlevel)
    obtain ⟨hkeys, horders⟩ := hstored (price, offers) List.mem_cons_self
    unfold xTradePrices
    rw [wp_ite]
    refine ⟨fun _ => wp_xTradePrices h hnodup hrest, fun _ => ?_⟩
    rw [wp_bind]
    refine wp_mono (wp_xTradeLevel hround h hkeys horders) ?_ fun _ _ he => he
    rintro seen s' ⟨h', hframe⟩
    rw [wp_ite]
    refine ⟨fun _ => h', fun _ => wp_xTradePrices h' hnodup fun level hlevel => ?_⟩
    refine ⟨(hrest level hlevel).1, fun o ho => ?_⟩
    rw [hframe]
    · exact (hrest level hlevel).2 o ho
    · intro heq
      exact hfresh (List.mem_map.mpr ⟨level, hlevel, heq⟩)

/-- **What a round keeps is kept by the whole matching.** -/
theorem wp_xTrade {pnew : CMPMetaDEx} (hbook : s.BookOk) (hprop : pnew.desiredProperty = prop)
    (h : T pnew s) : wp (xTrade env pnew) (fun traded s' => T traded s') E s := by
  unfold xTrade
  rw [wp_bind, wp_get, hprop]
  exact wp_xTradePrices hround h (nodup_keys_toList _) fun _ => hbook.levelStored

end Loops

theorem conforms_xTrade {pnew : CMPMetaDEx} (h : Trading c pnew pnew s) :
    Conforms c.contract (xTrade env pnew) (fun traded s' => Trading c pnew traded s') s := by
  rw [conforms_iff]
  refine wp_mono (wp_xTrade (T := fun traded s' => Steps c s s' ∧ Trading c pnew traded s')
    (E := Fails c (Steps c s)) (fun price pnew' pold s' h' hstored => ?_) h.sound.book rfl ⟨.refl, h⟩)
    (fun _ _ h' => h') fun _ _ he => he
  refine wp_mono (conforms_iff.mp (conforms_xTradeOrder h'.2 hstored)) ?_ ?_
  · rintro seen s'' ⟨hsteps, htrading, hframe⟩
    exact ⟨⟨h'.1.trans hsteps, htrading⟩, hframe⟩
  · rintro e s'' ⟨hlive, hbad⟩
    exact ⟨fun he => h'.1.trans (hlive he), hbad⟩

theorem conforms_metaDExAdd {a : Address} {p desired : PropertyId} {n block nDesired : Int}
    {txid : Hash} {idx : Nat} (hs : Sound c s) (hblock : block = c.block)
    (hfrozen : s.isAddressFrozen a p = false) (hn : n ≤ MAX_INT_8_BYTES)
    (hdesired : 0 < nDesired ∧ nDesired ≤ MAX_INT_8_BYTES)
    (hfees : c.Strict → s.aux.params.isFeatureActivated FEATURE_FEES block = false)
    (hfunded : c.Strict → n ≤ s.money a p .BALANCE) (hplace : c.Place block idx) :
    Conforms c.contract (metaDExAdd env a p n block desired nDesired txid idx)
      (fun _ _ => True) s := by
  unfold metaDExAdd
  refine conforms_rejectIf fun _ => Conforms.bind
    (conforms_xTrade ⟨hs, rfl, hblock, hfrozen, hfees, hfunded, le_rfl⟩) fun order s' _ h => ?_
  have hsame := h.same
  have haddr : order.addr = a := by rw [hsame]
  have hprop : order.property = p := by rw [hsame]
  have hforsale : order.amountForsale = n := by rw [hsame]
  have hnDesired : order.amountDesired = nDesired := by rw [hsame]
  by_cases hpos : 0 < order.amountRemaining
  · rw [if_pos hpos, conforms_iff]
    unfold metaDExInsert
    simp only [wp_bind, wp_get, wp_ite, wp_pure, wp_set]
    refine ⟨fun _ => ⟨fun _ => .refl, id⟩, fun hnew => ?_⟩
    rw [← haddr, ← hprop]
    refine wp_move (s := s'.insertOrder order.property order.unitPrice order) (by decide) (by decide)
      (Int.le_of_lt hpos) (fun _ => h.free) (fun hstrict => ?_) fun hmove => ⟨.single ?_, trivial⟩
    · have hmove : s'.CanMove order.property order.amountRemaining order.addr .BALANCE order.addr
          .METADEX_RESERVE :=
        h.sound.canMove hstrict (by decide) (by decide) hpos (h.funded hstrict)
      exact ⟨h.sound.range, hmove.pos, hmove.enough, hmove.room⟩
    · exact Step.orderAdd ⟨hmove.pos, hmove.enough, hmove.room⟩ h.free (by simpa using hnew)
        ⟨h.remaining, hforsale ▸ hn⟩ (hnDesired ▸ hdesired) (by rw [hsame]; exact hplace)
  · rw [if_neg hpos]
    exact Conforms.pure trivial

/-! ### Removing orders -/

/-- All that is written about a removed order is at most one record. -/
def Notes (note : CMPMetaDEx → Op Unit) : Prop :=
  ∀ order, note order = pure () ∨ ∃ entry, note order = record entry

theorem notes_recordCancel {txid : Hash} {block : Int} : Notes (recordCancel txid block) :=
  fun _ => .inr ⟨_, rfl⟩

theorem notes_pure : Notes fun _ => pure () := fun _ => .inl rfl

theorem conforms_removeOrder {note : CMPMetaDEx → Op Unit} {prop : PropertyId} {price : ℚ}
    {order : CMPMetaDEx} (hnote : Notes note) (hs : Sound c s)
    (hstored : s.orderAt (prop, price, order.key) = some order) :
    Conforms c.contract (removeOrder note prop price order)
      (fun _ s' => Sound c s' ∧
        ∀ place, place ≠ (prop, price, order.key) → s'.orderAt place = s.orderAt place) s := by
  have hpos := (hs.book _ _ _ _ hstored).remaining_pos
  unfold removeOrder
  rw [conforms_iff]
  simp only [wp_bind]
  refine wp_move (by decide) (by decide) (Int.le_of_lt hpos) (fun h => by cases h) (fun hstrict => ?_)
    fun hmove => ?_
  · exact ⟨hs.range, hs.canMove hstrict (by decide) (by decide) hpos
      (hs.remaining_le_reserve hstored)⟩
  have hstep := Step.orderRemove (c := c) hstored hmove
  have hframe := fun (place : PropertyId × ℚ × OrderKey) (hplace : place ≠ (prop, price, order.key)) =>
    orderAt_eraseOrder_of_ne (s := s) hplace
  rcases hnote order with hpure | ⟨entry, hrecord⟩
  · rw [hpure]
    exact ⟨.single hstep, hs.step hstep, hframe⟩
  · rw [hrecord]
    have hsteps := Steps.record (.single hstep) entry
    exact ⟨hsteps, hsteps.sound hs, hframe⟩

theorem State.BookOk.mem_bookOrders (hs : s.BookOk) {entry : PropertyId × ℚ × CMPMetaDEx}
    (hentry : entry ∈ s.bookOrders) : s.orderAt (placeOf entry) = some entry.2.2 := by
  unfold bookOrders at hentry
  obtain ⟨prices, hprices, hentry⟩ := List.mem_flatMap.mp hentry
  obtain ⟨level, hlevel, hentry⟩ := List.mem_flatMap.mp hentry
  obtain ⟨stored, hstored, rfl⟩ := List.mem_map.mp hentry
  have hget : s.metadex.getD prices.1 ∅ = prices.2 := by
    rw [ExtTreeMap.getD_eq_getD_getElem?, mem_toList.mp hprices]
    rfl
  rw [← hget] at hlevel
  exact (hs.levelStored hlevel).2 stored.2 (List.mem_map_of_mem hstored)

theorem State.BookOk.nodup_bookOrders (hs : s.BookOk) : (s.bookOrders.map placeOf).Nodup := by
  unfold bookOrders
  simp only [List.map_flatMap, List.map_map]
  -- places of different properties, or of different levels, are different
  refine List.nodup_flatMap.mpr ⟨fun prices hprices => List.nodup_flatMap.mpr
    ⟨fun level hlevel => ?_, ?_⟩, ?_⟩
  · have hget : s.metadex.getD prices.1 ∅ = prices.2 := by
      rw [ExtTreeMap.getD_eq_getD_getElem?, mem_toList.mp hprices]
      rfl
    have hkeys := (hs.levelStored (hget.symm ▸ hlevel)).1.map
      (f := fun key => (prices.1, level.1, key)) fun key key' heq => by simpa using heq
    rwa [List.map_map, List.map_map] at hkeys
  · refine (List.pairwise_map.mp (nodup_keys_toList prices.2)).imp fun {level level'} hne => ?_
    rintro place hmem hmem'
    obtain ⟨entry, -, rfl⟩ := List.mem_map.mp hmem
    obtain ⟨entry', -, heq⟩ := List.mem_map.mp hmem'
    exact hne (congrArg (fun place => place.2.1) heq).symm
  · refine (List.pairwise_map.mp (nodup_keys_toList s.metadex)).imp fun {prices prices'} hne => ?_
    rintro place hmem hmem'
    obtain ⟨level, -, hmem⟩ := List.mem_flatMap.mp hmem
    obtain ⟨entry, -, rfl⟩ := List.mem_map.mp hmem
    obtain ⟨level', -, hmem'⟩ := List.mem_flatMap.mp hmem'
    obtain ⟨entry', -, heq⟩ := List.mem_map.mp hmem'
    exact hne (congrArg (fun place => place.1) heq).symm

/-- **The loop of the cancels.**  Every order it removes is still stored when its turn comes. -/
theorem conforms_removeOrders {select : PropertyId × ℚ × CMPMetaDEx → Bool}
    {note : CMPMetaDEx → Op Unit} {rc : Int} (hnote : Notes note) (hs : Sound c s) :
    Conforms c.contract (removeOrders select note rc) (fun _ _ => True) s := by
  unfold removeOrders
  refine Conforms.get (Conforms.bind (Conforms.forM_stored State.orderAt (I := Sound c) ?_ ?_ hs
    fun entry s' hs' hstored => conforms_removeOrder hnote hs' hstored) fun _ _ _ _ =>
      Conforms.pure trivial)
  · exact hs.book.nodup_bookOrders.sublist (List.filter_sublist.map placeOf)
  · exact fun entry hentry => hs.book.mem_bookOrders (List.mem_of_mem_filter hentry)

section Cancels

variable {txid : Hash} {block n nDesired : Int} {a : Address} {p desired : PropertyId}

theorem conforms_metaDExCancelAtPrice (hs : Sound c s) :
    Conforms c.contract (metaDExCancelAtPrice txid block a p n desired nDesired)
      (fun _ _ => True) s :=
  Conforms.get (conforms_rejectIf fun _ => conforms_removeOrders notes_recordCancel hs)

theorem conforms_metaDExCancelAllForPair (hs : Sound c s) :
    Conforms c.contract (metaDExCancelAllForPair txid block a p desired) (fun _ _ => True) s :=
  Conforms.get (conforms_rejectIf fun _ => conforms_removeOrders notes_recordCancel hs)

theorem conforms_metaDExCancelEverything {ecosystem : Nat} (hs : Sound c s) :
    Conforms c.contract (metaDExCancelEverything txid block a ecosystem) (fun _ _ => True) s :=
  conforms_removeOrders notes_recordCancel hs

theorem conforms_metaDExShutdown (hs : Sound c s) :
    Conforms c.contract metaDExShutdown (fun _ _ => True) s :=
  conforms_removeOrders notes_pure hs

theorem conforms_metaDExShutdownAllpair (hs : Sound c s) :
    Conforms c.contract metaDExShutdownAllpair (fun _ _ => True) s := by
  unfold metaDExShutdownAllpair
  refine Conforms.get (Conforms.bind (Conforms.forM_stored State.orderAt (I := Sound c)
    hs.book.nodup_bookOrders (fun entry hentry => hs.book.mem_bookOrders hentry) hs
    fun entry s' hs' hstored => ?_) fun _ _ _ _ => Conforms.pure trivial)
  exact Conforms.ite (fun _ => conforms_removeOrder notes_pure hs' hstored)
    fun _ => Conforms.throw id

end Cancels

end HcOmni
