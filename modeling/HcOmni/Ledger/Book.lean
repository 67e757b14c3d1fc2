import HcOmni.Ledger.Frame

/-!
# The order book and the tokens reserved for it

The book holds every order under its own property, price and key, and what is reserved for the
token exchange differs from what the orders of the book still offer by an amount that no step
changes.
-/

namespace HcOmni

open Std MapSum Program CMPTally State

/-! ### Sums over the book -/

/-- What an order contributes to the reserve of `a` for `p`. -/
def orderWeight (a : Address) (p : PropertyId) (order : CMPMetaDEx) : Int :=
  if order.addr = a ∧ order.property = p then order.amountRemaining else 0

/-- The sum of a weight over the orders of one price level. -/
def levelSum (w : CMPMetaDEx → Int) (orders : MdSet) : Int :=
  mapSum orders fun _ order => w order

/-- The sum of a weight over the orders for one property. -/
def pricesSum (w : CMPMetaDEx → Int) (prices : MdPricesMap) : Int :=
  mapSum prices fun _ orders => levelSum w orders

namespace State

/-- What the orders of `a` in the book still offer of `p`. -/
def bookSum (s : State) (a : Address) (p : PropertyId) : Int :=
  mapSum s.metadex fun _ prices => pricesSum (orderWeight a p) prices

theorem mdSet_putMdSet (s : State) (prop prop' : PropertyId) (price price' : ℚ) (orders : MdSet) :
    (s.putMdSet prop price orders).mdSet prop' price' =
      if prop = prop' ∧ price = price' then orders else s.mdSet prop' price' := by
  unfold mdSet putMdSet
  simp only [ExtTreeMap.getD_insert, Std.compare_eq_iff_eq]
  by_cases hprop : prop = prop'
  · subst hprop
    by_cases hprice : price = price'
    · subst hprice
      simp
    · simp [ExtTreeMap.getD_insert, hprice]
  · simp [hprop]

theorem of_mdSet_putMdSet (s : State) {prop prop' : PropertyId} {price price' : ℚ} {orders : MdSet}
    {key : OrderKey} {order : CMPMetaDEx}
    (h : ((s.putMdSet prop price orders).mdSet prop' price')[key]? = some order) :
    prop = prop' ∧ price = price' ∧ orders[key]? = some order ∨
      (s.mdSet prop' price')[key]? = some order := by
  rw [mdSet_putMdSet] at h
  split at h
  · next hlevel => exact .inl ⟨hlevel.1, hlevel.2, h⟩
  · exact .inr h

theorem bookSum_putMdSet (s : State) (a : Address) (p prop : PropertyId) (price : ℚ)
    (orders : MdSet) :
    (s.putMdSet prop price orders).bookSum a p + levelSum (orderWeight a p) (s.mdSet prop price) =
      s.bookSum a p + levelSum (orderWeight a p) orders := by
  have hprices := mapSum_insert_getD s.metadex (fun _ prices => pricesSum (orderWeight a p) prices)
    prop ((s.metadex.getD prop ∅).insert price orders) ∅ (by simp [pricesSum])
  have hlevel := mapSum_insert_getD (s.metadex.getD prop ∅)
    (fun _ orders => levelSum (orderWeight a p) orders) price orders ∅ (by simp [levelSum])
  unfold bookSum putMdSet mdSet
  simp only [pricesSum] at hprices hlevel ⊢
  omega

end State

/-! ### Levels -/

theorem levelSum_erase {w : CMPMetaDEx → Int} {orders : MdSet} {key : OrderKey} {order : CMPMetaDEx}
    (h : orders[key]? = some order) :
    levelSum w (orders.erase key) = levelSum w orders - w order := by
  have hsplit := mapSum_split orders (fun _ order => w order) key
  rw [weightAt_some h] at hsplit
  unfold levelSum
  omega

theorem levelSum_insert {w : CMPMetaDEx → Int} {orders : MdSet} {key : OrderKey}
    {order : CMPMetaDEx} (h : orders[key]? = none) :
    levelSum w (orders.insert key order) = levelSum w orders + w order := by
  unfold levelSum
  rw [mapSum_insert_new h]
  omega

/-! ### The reserve -/

/-- What is reserved for the token exchange beyond what the orders of the book offer. -/
def State.reserveSlack (s : State) (a : Address) (p : PropertyId) : Int :=
  s.money a p .METADEX_RESERVE - s.bookSum a p

variable {c : Ctx} {s s' : State}

theorem reserveSlack_move {p q : PropertyId} {n : Int} {a b e : Address} {t u : TallyType}
    (ht : t ≠ .METADEX_RESERVE) (hu : u ≠ .METADEX_RESERVE) :
    (s.move p n a t b u).reserveSlack e q = s.reserveSlack e q := by
  unfold reserveSlack
  rw [money_move]
  simp only [ht, hu, and_false, if_false, Int.add_zero]
  rfl

theorem reserveSlack_credit {p q : PropertyId} {n : Int} {a e : Address} :
    (s.credit a p n).reserveSlack e q = s.reserveSlack e q := by
  unfold reserveSlack
  rw [money_credit]
  simp only [reduceCtorEq, and_false, if_false, Int.add_zero]
  rfl

theorem reserveSlack_addTally {p q : PropertyId} {n : Int} {a e : Address} {t : TallyType}
    (ht : t ≠ .METADEX_RESERVE) :
    (s.addTally a p n t).reserveSlack e q = s.reserveSlack e q := by
  unfold reserveSlack
  rw [money_addTally]
  simp only [ht, and_false, if_false, Int.add_zero]
  rfl

theorem FeeStep.reserveSlack_eq {p q : PropertyId} {fee : Int} {e : Address}
    (h : FeeStep c p fee s s') : s'.reserveSlack e q = s.reserveSlack e q := by
  unfold reserveSlack bookSum
  rw [h.money_of_ne e q (by decide), h.metadex_eq]

theorem reserveSlack_orderAdd {order : CMPMetaDEx} {a : Address} {p : PropertyId}
    (hnew : (s.mdSet order.property order.unitPrice)[order.key]? = none) :
    ((s.move order.property order.amountRemaining order.addr .BALANCE order.addr
      .METADEX_RESERVE).insertOrder order.property order.unitPrice order).reserveSlack a p =
        s.reserveSlack a p := by
  have hbook := bookSum_putMdSet s a p order.property order.unitPrice
    ((s.mdSet order.property order.unitPrice).insert order.key order)
  have hmoney := money_move s order.property p order.amountRemaining order.addr order.addr a
    .BALANCE .METADEX_RESERVE .METADEX_RESERVE
  rw [levelSum_insert hnew, orderWeight] at hbook
  unfold reserveSlack
  change (s.move _ _ _ _ _ _).money a p .METADEX_RESERVE -
    (s.putMdSet _ _ ((s.mdSet _ _).insert _ _)).bookSum a p = _
  rw [hmoney]
  by_cases h : order.addr = a ∧ order.property = p <;> simp [h] at hbook ⊢ <;> omega

theorem reserveSlack_orderRemove {order : CMPMetaDEx} {prop : PropertyId} {price : ℚ} {a : Address}
    {p : PropertyId} (hstored : (s.mdSet prop price)[order.key]? = some order) :
    ((s.move order.property order.amountRemaining order.addr .METADEX_RESERVE order.addr
      .BALANCE).eraseOrder prop price order.key).reserveSlack a p = s.reserveSlack a p := by
  have hbook := bookSum_putMdSet s a p prop price ((s.mdSet prop price).erase order.key)
  have hmoney := money_move s order.property p order.amountRemaining order.addr order.addr a
    .METADEX_RESERVE .BALANCE .METADEX_RESERVE
  rw [levelSum_erase hstored, orderWeight] at hbook
  unfold reserveSlack
  change (s.move _ _ _ _ _ _).money a p .METADEX_RESERVE -
    (s.putMdSet _ _ ((s.mdSet _ _).erase _)).bookSum a p = _
  rw [hmoney]
  by_cases h : order.addr = a ∧ order.property = p <;> simp [h] at hbook ⊢ <;> omega

theorem bookSum_replaceOrder {order : CMPMetaDEx} {prop : PropertyId} {price : ℚ} {a : Address}
    {p : PropertyId} {got : Int} (hstored : (s.mdSet prop price)[order.key]? = some order)
    (hgot : got ≤ order.amountRemaining) :
    (s.replaceOrder prop price order (order.amountRemaining - got)).bookSum a p =
      s.bookSum a p - if order.addr = a ∧ order.property = p then got else 0 := by
  unfold replaceOrder
  by_cases hleft : 0 < order.amountRemaining - got
  · rw [if_pos hleft]
    have hbook := bookSum_putMdSet s a p prop price (((s.mdSet prop price).erase order.key).insert
      order.key { order with amountRemaining := order.amountRemaining - got })
    have hnone : ((s.mdSet prop price).erase order.key)[order.key]? = none := by simp
    rw [levelSum_insert hnone, levelSum_erase hstored, orderWeight, orderWeight] at hbook
    by_cases h : order.addr = a ∧ order.property = p <;> simp [h] at hbook ⊢ <;> omega
  · rw [if_neg hleft]
    have hall : got = order.amountRemaining := by omega
    have hbook := bookSum_putMdSet s a p prop price ((s.mdSet prop price).erase order.key)
    rw [levelSum_erase hstored, orderWeight] at hbook
    by_cases h : order.addr = a ∧ order.property = p <;> simp [h] at hbook ⊢ <;> omega

/-- **Reserve and book change together.** -/
theorem Step.reserveSlack_eq (h : Step c s s') (a : Address) (p : PropertyId) :
    s'.reserveSlack a p = s.reserveSlack a p := by
  cases h with
  | aux | offerPut | offerErase | acceptGrow | acceptDrop | createManaged | createCrowdsale
  | changeIssuer => rfl
  | pending | burn => exact reserveSlack_addTally (by decide)
  | revoke => exact reserveSlack_addTally (s := s) (by decide)
  | transfer | offerReserve | offerRelease | acceptOpen | acceptPay | acceptPaid =>
    exact reserveSlack_move (s := s) (by decide) (by decide)
  | acceptEnd _ _ _ ht =>
    refine reserveSlack_move (s := s) (by decide) ?_
    rcases ht with rfl | ⟨rfl, -⟩ <;> decide
  | feePaid _ _ _ _ _ hfee => rw [hfee.reserveSlack_eq, reserveSlack_addTally (by decide)]
  | distribute _ hfee => exact hfee.reserveSlack_eq
  | vest => exact reserveSlack_credit (s := s)
  | createFixed => exact reserveSlack_credit (s := s.putNew _ _)
  | grant | closeCrowdsale => exact reserveSlack_credit (s := s.putEntry _ _)
  | participate =>
    exact (reserveSlack_credit (s := s.credit _ _ _)).trans reserveSlack_credit
  | orderAdd _ _ hnew => exact reserveSlack_orderAdd hnew
  | orderRemove hstored => exact reserveSlack_orderRemove hstored
  | @orderFill s₀ price order buyer paid got fee hfee _ _ _ hstored hgot =>
    -- the fee only adds to balances, so the reserve is that before the fee
    have hmoney := hfee.money_of_ne a p (t := .METADEX_RESERVE) (by decide)
    have hset : (s₀.mdSet order.property price)[order.key]? = some order := by
      rw [mdSet, hfee.metadex_eq]
      exact hstored
    have hbook := bookSum_replaceOrder (a := a) (p := p) hset hgot
    have hsame : s₀.bookSum a p = s.bookSum a p := by rw [bookSum, hfee.metadex_eq, bookSum]
    change ((State.addTally _ _ _ _ _).addTally _ _ _ _).money a p .METADEX_RESERVE -
      (s₀.replaceOrder _ _ _ _).bookSum a p = _
    unfold reserveSlack
    rw [hbook, hsame, ← hmoney, money_addTally, money_addTally, money_move]
    by_cases h : order.addr = a ∧ order.property = p
    · simp [h]
      omega
    · simp [h]

/-! ### Well-formed orders -/

/-- An order where it belongs, with something left of it. -/
structure OrderOk (prop : PropertyId) (price : ℚ) (key : OrderKey) (order : CMPMetaDEx) : Prop where
  key_eq : order.key = key
  property_eq : order.property = prop
  price_eq : order.unitPrice = price
  remaining_pos : 0 < order.amountRemaining
  remaining_le : order.amountRemaining ≤ order.amountForsale
  forsale_le : order.amountForsale ≤ MAX_INT_8_BYTES
  desired_pos : 0 < order.amountDesired
  desired_le : order.amountDesired ≤ MAX_INT_8_BYTES

/-- Every order of the book is where it belongs. -/
def State.BookOk (s : State) : Prop :=
  ∀ prop price key order, (s.mdSet prop price)[key]? = some order → OrderOk prop price key order

theorem State.BookOk.putMdSet {prop : PropertyId} {price : ℚ} {orders : MdSet} (hs : s.BookOk)
    (horders : ∀ key order, orders[key]? = some order →
      (s.mdSet prop price)[key]? = some order ∨ OrderOk prop price key order) :
    (s.putMdSet prop price orders).BookOk := by
  intro prop' price' key order hget
  rcases s.of_mdSet_putMdSet hget with ⟨rfl, rfl, hnew⟩ | hold
  · exact (horders key order hnew).elim (hs prop price key order) id
  · exact hs prop' price' key order hold

theorem State.BookOk.eraseOrder {prop : PropertyId} {price : ℚ} {key : OrderKey} (hs : s.BookOk) :
    (s.eraseOrder prop price key).BookOk :=
  hs.putMdSet fun _ _ hget => .inl (getElem?_of_erase hget).2

theorem State.BookOk.insertOrder {prop : PropertyId} {price : ℚ} {order : CMPMetaDEx}
    (hs : s.BookOk) (hok : OrderOk prop price order.key order) :
    (s.insertOrder prop price order).BookOk := by
  refine hs.putMdSet fun key order' hget => ?_
  rcases getElem?_of_insert hget with ⟨rfl, rfl⟩ | ⟨-, hold⟩
  · exact .inr hok
  · exact .inl hold

theorem State.BookOk.replaceOrder {prop : PropertyId} {price : ℚ} {order : CMPMetaDEx} {left : Int}
    (hs : s.BookOk) (hstored : (s.mdSet prop price)[order.key]? = some order)
    (hleft : left ≤ order.amountRemaining) : (s.replaceOrder prop price order left).BookOk := by
  have hok := hs _ _ _ _ hstored
  unfold State.replaceOrder
  by_cases hpos : 0 < left
  · rw [if_pos hpos]
    refine hs.putMdSet fun key order' hget => ?_
    rcases getElem?_of_insert hget with ⟨rfl, rfl⟩ | ⟨-, hold⟩
    · exact .inr ⟨rfl, hok.property_eq, hok.price_eq, hpos, hleft.trans hok.remaining_le,
        hok.forsale_le, hok.desired_pos, hok.desired_le⟩
    · exact .inl (getElem?_of_erase hold).2
  · rw [if_neg hpos]
    exact hs.eraseOrder

theorem State.BookOk.weight_le_bookSum (hs : s.BookOk) {prop : PropertyId} {price : ℚ}
    {key : OrderKey} {order : CMPMetaDEx} (hstored : (s.mdSet prop price)[key]? = some order)
    (a : Address) (p : PropertyId) : orderWeight a p order ≤ s.bookSum a p := by
  have hlevel : ∀ prop' price', 0 ≤ levelSum (orderWeight a p) (s.mdSet prop' price') ∧
      ∀ key', weightAt (s.mdSet prop' price') (fun _ o => orderWeight a p o) key' ≤
        levelSum (orderWeight a p) (s.mdSet prop' price') := by
    intro prop' price'
    have hnonneg : ∀ (key' : OrderKey) (o : CMPMetaDEx),
        (s.mdSet prop' price')[key']? = some o → 0 ≤ orderWeight a p o := by
      intro key' o ho
      have hpos := (hs prop' price' key' o ho).remaining_pos
      unfold orderWeight
      split <;> omega
    exact ⟨mapSum_nonneg hnonneg, weightAt_le_mapSum hnonneg⟩
  have hprices : ∀ prop', 0 ≤ pricesSum (orderWeight a p) (s.metadex.getD prop' ∅) ∧
      ∀ price', levelSum (orderWeight a p) (s.mdSet prop' price') ≤
        pricesSum (orderWeight a p) (s.metadex.getD prop' ∅) := by
    intro prop'
    have hnonneg : ∀ (price' : ℚ) (orders : MdSet),
        (s.metadex.getD prop' ∅)[price']? = some orders →
        0 ≤ levelSum (orderWeight a p) orders := by
      intro price' orders horders
      have hset : s.mdSet prop' price' = orders := by
        rw [mdSet, ExtTreeMap.getD_eq_getD_getElem?, horders]
        rfl
      exact hset ▸ (hlevel prop' price').1
    refine ⟨mapSum_nonneg hnonneg, fun price' => ?_⟩
    have hle := weightAt_le_mapSum (f := fun _ orders => levelSum (orderWeight a p) orders)
      hnonneg price'
    rwa [weightAt_getD _ _ _ ∅ (by simp [levelSum])] at hle
  have hbook : pricesSum (orderWeight a p) (s.metadex.getD prop ∅) ≤ s.bookSum a p := by
    have hle := weightAt_le_mapSum (t := s.metadex)
      (f := fun _ prices => pricesSum (orderWeight a p) prices)
      (fun prop' prices h => by
        have hget : s.metadex.getD prop' ∅ = prices := by
          simp [ExtTreeMap.getD_eq_getD_getElem?, h]
        exact hget ▸ (hprices prop').1) prop
    rwa [weightAt_getD _ _ _ ∅ (by simp [pricesSum])] at hle
  have horder := (hlevel prop price).2 key
  rw [weightAt_some hstored] at horder
  exact horder.trans (((hprices prop).2 price).trans hbook)

/-- **Orders stay where they belong.** -/
theorem State.BookOk.step (hs : s.BookOk) (h : Step c s s') : s'.BookOk := by
  cases h with
  | feePaid _ _ _ _ _ hfee =>
    intro prop price key order hget
    rw [mdSet, hfee.metadex_eq] at hget
    exact hs prop price key order hget
  | distribute _ hfee =>
    intro prop price key order hget
    rw [mdSet, hfee.metadex_eq] at hget
    exact hs prop price key order hget
  | orderAdd hmove _ _ hforsale hdesired =>
    exact insertOrder (s := s.move ..) hs ⟨rfl, rfl, rfl, hmove.pos, hforsale.1,
      hforsale.2, hdesired.1, hdesired.2⟩
  | orderRemove => exact eraseOrder (s := s.move ..) hs
  | @orderFill s₀ price order _ _ got _ hfee _ hnonneg hlt hstored hgot =>
    have hmeta := hfee.metadex_eq
    have hs₀ : s₀.BookOk := by
      intro prop price key order hget
      rw [mdSet, hmeta] at hget
      exact hs prop price key order hget
    refine replaceOrder (s := State.addTally ..) hs₀ ?_ (by omega)
    change (s₀.mdSet order.property price)[order.key]? = some order
    rw [mdSet, hmeta]
    exact hstored
  | _ => exact hs

/-! ### Where orders come from -/

/-- Every order of the book comes from one of the given places of the chain. -/
def State.BookFrom (place : Int → Nat → Prop) (s : State) : Prop :=
  ∀ (prop : PropertyId) (price : ℚ) (key : OrderKey) (order : CMPMetaDEx),
    (s.mdSet prop price)[key]? = some order → place order.block order.idx

theorem State.BookFrom.putMdSet {place : Int → Nat → Prop} {prop : PropertyId} {price : ℚ}
    {orders : MdSet} (hs : s.BookFrom place)
    (horders : ∀ (key : OrderKey) (order : CMPMetaDEx), orders[key]? = some order →
      (s.mdSet prop price)[key]? = some order ∨ place order.block order.idx) :
    (s.putMdSet prop price orders).BookFrom place := by
  intro prop' price' key order hget
  rcases s.of_mdSet_putMdSet hget with ⟨rfl, rfl, hnew⟩ | hold
  · exact (horders key order hnew).elim (hs prop price key order) id
  · exact hs prop' price' key order hold

theorem State.BookFrom.congr {place : Int → Nat → Prop} (hs : s.BookFrom place)
    (hbook : s'.metadex = s.metadex) : s'.BookFrom place := by
  intro prop price key order hget
  rw [mdSet, hbook] at hget
  exact hs prop price key order hget

theorem State.BookFrom.step (hs : s.BookFrom c.Place) (h : Step c s s') : s'.BookFrom c.Place := by
  cases h with
  | feePaid _ _ _ _ _ hfee => exact hs.congr hfee.metadex_eq
  | distribute _ hfee => exact hs.congr hfee.metadex_eq
  | orderAdd _ _ _ _ _ hplace =>
    refine putMdSet (s := s.move ..) hs fun key order' hget => ?_
    rcases getElem?_of_insert hget with ⟨rfl, rfl⟩ | ⟨-, hold⟩
    · exact .inr hplace
    · exact .inl hold
  | orderRemove =>
    exact putMdSet (s := s.move ..) hs fun _ _ hget => .inl (getElem?_of_erase hget).2
  | @orderFill s₀ price order _ _ got _ hfee _ _ _ hstored =>
    have hplace := hs _ _ _ _ hstored
    refine putMdSet (s := State.addTally ..) (hs.congr hfee.metadex_eq) fun key order' hget => ?_
    split at hget
    · rcases getElem?_of_insert hget with ⟨rfl, rfl⟩ | ⟨-, hold⟩
      · exact .inr hplace
      · exact .inl (getElem?_of_erase hold).2
    · exact .inl (getElem?_of_erase hget).2
  | _ => exact hs

end HcOmni
