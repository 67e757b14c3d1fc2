import HcOmni.Runs.Exhaustion
import HcOmni.Runs.Exchanges
import HcOmni.Runs.Kept
import HcOmni.Runs.Supply

/-!
# Removing orders from the book

The three cancels and the two shutdowns go through the book and take the orders out that they select.
An order that is looked at is still stored, since a removal touches no other; what remains of it goes
back to its owner, and there is room for it as long as all tokens of a property fit `int64_t`.
-/

namespace HcOmni

open Std MapSum Program CMPTally State

variable {c : Ctx} {env : Env} {s s' s₀ : State} {events : List Event}

/-! ### What is removed -/

/-- What an address gets back of a property. -/
def refund (a : Address) (p : PropertyId) (gone : List (PropertyId × ℚ × CMPMetaDEx)) : Int :=
  (gone.map fun entry =>
    if entry.2.2.addr = a ∧ entry.2.2.property = p then entry.2.2.amountRemaining else 0).sum

/-- The state without its balances, its orders and its records. -/
def State.offBook (s : State) : State :=
  { s with mpTallyMap := ∅, metadex := ∅, aux.records := [] }

/-- The orders `gone` were taken out of the book and what remained of them was refunded, with the
given records; nothing else has changed. -/
structure Removed (s : State) (gone : List (PropertyId × ℚ × CMPMetaDEx)) (notes : List DbRecord)
    (s' : State) : Prop where
  book : ∀ place, s'.orderAt place = if place ∈ gone.map placeOf then none else s.orderAt place
  money : ∀ a p t, s'.money a p t = s.money a p t + (if t = .BALANCE then refund a p gone else 0) -
    if t = .METADEX_RESERVE then refund a p gone else 0
  records : s'.aux.records = s.aux.records ++ notes
  rest : s'.offBook = s.offBook

theorem Removed.refl (s : State) : Removed s [] [] s where
  book := fun place => by simp
  money := fun a p t => by simp [refund]
  records := (List.append_nil _).symm
  rest := rfl

theorem orderAt_eraseOrder_self (prop : PropertyId) (price : ℚ) (key : OrderKey) :
    (s.eraseOrder prop price key).orderAt (prop, price, key) = none := by
  unfold eraseOrder orderAt
  rw [mdSet_putMdSet, if_pos ⟨rfl, rfl⟩]
  simp

/-- The state after an order was removed. -/
def State.dropOrder (s : State) (prop : PropertyId) (price : ℚ) (order : CMPMetaDEx)
    (notes : List DbRecord) : State :=
  { (s.move order.property order.amountRemaining order.addr .METADEX_RESERVE order.addr
      .BALANCE).eraseOrder prop price order.key with aux.records := s.aux.records ++ notes }

theorem orderAt_dropOrder (place : PropertyId × ℚ × OrderKey) (prop : PropertyId) (price : ℚ)
    (order : CMPMetaDEx) (notes : List DbRecord) : (s.dropOrder prop price order notes).orderAt place =
      (s.eraseOrder prop price order.key).orderAt place := rfl

theorem Removed.concat {gone : List (PropertyId × ℚ × CMPMetaDEx)} {notes notes' : List DbRecord}
    (h : Removed s gone notes s') (entry : PropertyId × ℚ × CMPMetaDEx) :
    Removed s (gone ++ [entry]) (notes ++ notes')
      (s'.dropOrder entry.1 entry.2.1 entry.2.2 notes') where
  book := by
    intro place
    rw [orderAt_dropOrder]
    simp only [List.map_append, List.map_singleton, List.mem_append, List.mem_singleton]
    by_cases hplace : place = placeOf entry
    · rw [hplace, if_pos (.inr rfl)]
      exact orderAt_eraseOrder_self _ _ _
    · rw [orderAt_eraseOrder_of_ne hplace, h.book]
      simp only [hplace, or_false]
  money := by
    intro a p t
    change (s'.move _ _ _ _ _ _).money a p t = _
    rw [money_move, h.money]
    simp only [refund, List.map_append, List.sum_append, List.map_singleton, List.sum_singleton]
    by_cases hmine : entry.2.2.addr = a ∧ entry.2.2.property = p
    · rw [if_pos hmine]
      cases t <;> simp [hmine] <;> omega
    · rw [if_neg hmine]
      have hother : ∀ u : TallyType, ¬(entry.2.2.addr = a ∧ entry.2.2.property = p ∧ u = t) :=
        fun u h => hmine ⟨h.1, h.2.1⟩
      rw [if_neg (hother _), if_neg (hother _)]
      simp
  records := by
    rw [← List.append_assoc, ← h.records]
    rfl
  rest := h.rest

/-! ### The loop -/

/-- What is written about a removed order. -/
def Logs (note : CMPMetaDEx → Op Unit) (notes : CMPMetaDEx → List DbRecord) : Prop :=
  ∀ order s, note order s = .ok () { s with aux.records := s.aux.records ++ notes order }

theorem logs_recordCancel (txid : Hash) (block : Int) : Logs (recordCancel txid block) fun order =>
    [.metaDExCancelTX txid order.txid block order.property order.amountRemaining] :=
  fun _ _ => rfl

theorem logs_pure : Logs (fun _ => pure ()) fun _ => [] := by
  intro order s
  simp only [List.append_nil]
  rfl

section Loop

variable {note : CMPMetaDEx → Op Unit} {notes : CMPMetaDEx → List DbRecord} {prop : PropertyId}
  {price : ℚ} {order : CMPMetaDEx} {Q : Unit → State → Prop} {E : Halt → State → Prop}

theorem Sound.canRefund (hs : Sound c s) (htracks : c.Tracks s)
    (hstored : s.orderAt (prop, price, order.key) = some order) :
    s.CanMove order.property order.amountRemaining order.addr .METADEX_RESERVE order.addr
      .BALANCE := by
  have hheld := hs.held_le htracks order.property
  have hcached := (hs.supply htracks).cached order.property
  exact hs.range.canMove (by decide) (by decide) (hs.book _ _ _ _ hstored).remaining_pos
    (hs.remaining_le_reserve hstored) (by omega)

/-- **An order is removed.** -/
theorem wp_removeOrder (hlogs : Logs note notes) (hs : Sound c s) (htracks : c.Tracks s)
    (hstored : s.orderAt (prop, price, order.key) = some order)
    (h : Q () (s.dropOrder prop price order (notes order))) :
    wp (removeOrder note prop price order) Q E s := by
  unfold removeOrder
  simp only [wp_bind]
  refine wp_move_of_canMove (fun h => by cases h) hs.range (by decide) (hs.canRefund htracks hstored) ?_
  rw [wp_ok (hlogs order _)]
  exact h

end Loop

section Loop

variable (notes : CMPMetaDEx → List DbRecord) {body : PropertyId × ℚ × CMPMetaDEx → Op PUnit}
  {P : PropertyId × ℚ × CMPMetaDEx → Prop} {E : Halt → State → Prop}
  (hbody : ∀ entry s, Sound c s → c.Tracks s → s.orderAt (placeOf entry) = some entry.2.2 →
    entry ∈ s₀.bookOrders → wp (body entry) (fun _ s' => P entry ∧
      s' = s.dropOrder entry.1 entry.2.1 entry.2.2 (notes entry.2.2)) E s)

include hbody

/-- **The loop of the removals.**  Every order it removes is still stored when its turn comes. -/
theorem wp_removeAll :
    ∀ {entries gone : List (PropertyId × ℚ × CMPMetaDEx)} {s' : State},
      Removed s gone (gone.flatMap fun entry => notes entry.2.2) s' → Sound c s' → c.Tracks s' →
      (entries.map placeOf).Nodup →
      (∀ entry ∈ entries, entry ∈ s₀.bookOrders ∧ s'.orderAt (placeOf entry) = some entry.2.2) →
      wp (entries.forM body) (fun _ s'' => (∀ entry ∈ entries, P entry) ∧ Removed s (gone ++ entries)
        ((gone ++ entries).flatMap fun entry => notes entry.2.2) s'') E s'
  | [], gone, s', hremoved, _, _, _, _ => ⟨fun _ h => (by cases h), by rwa [List.append_nil]⟩
  | entry :: rest, gone, s', hremoved, hs, htracks, hnodup, hstored => by
    obtain ⟨hfresh, hnodup⟩ := List.nodup_cons.mp hnodup
    obtain ⟨hlisted, hentry⟩ := hstored entry List.mem_cons_self
    have hstep := Step.orderRemove (c := c) hentry (hs.canRefund htracks hentry)
    change wp (body entry >>= fun _ => rest.forM _) _ E s'
    rw [wp_bind]
    refine wp_mono (hbody entry s' hs htracks hentry hlisted) ?_ fun _ _ h => h
    rintro _ _ ⟨hP, rfl⟩
    have hnext : Removed s (gone ++ [entry]) ((gone ++ [entry]).flatMap fun entry => notes entry.2.2)
        (s'.dropOrder entry.1 entry.2.1 entry.2.2 (notes entry.2.2)) := by
      rw [List.flatMap_append, List.flatMap_singleton]
      exact hremoved.concat entry
    refine wp_mono (wp_removeAll hnext ?_ htracks hnodup ?_) ?_ fun _ _ h => h
    · exact (hs.step hstep).step (.aux _ rfl rfl)
    · intro other hother
      have hne : placeOf other ≠ placeOf entry := fun hsame =>
        hfresh (hsame ▸ List.mem_map_of_mem hother)
      obtain ⟨hlisted', hget⟩ := hstored other (List.mem_cons_of_mem entry hother)
      rw [orderAt_dropOrder, orderAt_eraseOrder_of_ne hne]
      exact ⟨hlisted', hget⟩
    · rintro _ s'' ⟨hall, hremoved'⟩
      rw [List.append_assoc, List.singleton_append] at hremoved'
      exact ⟨List.forall_mem_cons.mpr ⟨hP, hall⟩, hremoved'⟩

end Loop

/-! ### Which orders are in the book -/

theorem State.BookOk.mem_bookOrders_iff (hbook : s.BookOk) {entry : PropertyId × ℚ × CMPMetaDEx} :
    entry ∈ s.bookOrders ↔ s.orderAt (placeOf entry) = some entry.2.2 := by
  refine ⟨hbook.mem_bookOrders, fun hget => ?_⟩
  unfold orderAt mdSet placeOf at hget
  rw [ExtTreeMap.getD_eq_getD_getElem?, ExtTreeMap.getD_eq_getD_getElem?] at hget
  cases hprices : s.metadex[entry.1]? with
  | none => simp [hprices] at hget
  | some prices =>
    rw [hprices, Option.getD_some] at hget
    cases hlevel : prices[entry.2.1]? with
    | none => simp [hlevel] at hget
    | some level =>
      rw [hlevel, Option.getD_some] at hget
      unfold bookOrders
      refine List.mem_flatMap.mpr ⟨(entry.1, prices), mem_toList.mpr hprices, ?_⟩
      refine List.mem_flatMap.mpr ⟨(entry.2.1, level), mem_toList.mpr hlevel, ?_⟩
      exact List.mem_map.mpr ⟨(entry.2.2.key, entry.2.2), mem_toList.mpr hget, rfl⟩

theorem State.BookOk.forall_orderAt_iff (hbook : s.BookOk) {P : CMPMetaDEx → Prop} :
    (∀ place order, s.orderAt place = some order → P order) ↔ ∀ entry ∈ s.bookOrders, P entry.2.2 := by
  refine ⟨fun h entry hentry => h _ _ (hbook.mem_bookOrders hentry), fun h place order hget => ?_⟩
  have hkey := (hbook _ _ _ _ hget).key_eq
  refine h (place.1, place.2.1, order) (hbook.mem_bookOrders_iff.mpr ?_)
  rw [placeOf, hkey]
  exact hget

/-- The orders that meet a condition, each listed once. -/
structure Lists (s : State) (P : CMPMetaDEx → Prop) (gone : List (PropertyId × ℚ × CMPMetaDEx)) :
    Prop where
  once : (gone.map placeOf).Nodup
  mem : ∀ entry, entry ∈ gone ↔ s.orderAt (placeOf entry) = some entry.2.2 ∧ P entry.2.2

theorem State.BookOk.lists (hbook : s.BookOk) {select : PropertyId × ℚ × CMPMetaDEx → Bool}
    {P : CMPMetaDEx → Prop} (hselect : ∀ entry, s.orderAt (placeOf entry) = some entry.2.2 →
      (select entry = true ↔ P entry.2.2)) : Lists s P (s.bookOrders.filter select) where
  once := hbook.nodup_bookOrders.sublist (List.filter_sublist.map placeOf)
  mem := by
    intro entry
    rw [List.mem_filter, hbook.mem_bookOrders_iff]
    exact and_congr_right fun hget => hselect entry hget

/-! ### The cancels -/

theorem exists_removeOrders {note : CMPMetaDEx → Op Unit} {notes : CMPMetaDEx → List DbRecord}
    {select : PropertyId × ℚ × CMPMetaDEx → Bool} {rc : Int} (hlogs : Logs note notes)
    (hs : Sound c s) (htracks : c.Tracks s) :
    ∃ s', removeOrders select note rc s =
        .ok (if (s.bookOrders.filter select).isEmpty then rc else 0) s' ∧
      Removed s (s.bookOrders.filter select)
        ((s.bookOrders.filter select).flatMap fun entry => notes entry.2.2) s' := by
  have hbody : ∀ entry s', Sound c s' → c.Tracks s' → s'.orderAt (placeOf entry) = some entry.2.2 →
      entry ∈ s.bookOrders → wp (removeOrder note entry.1 entry.2.1 entry.2.2)
        (fun _ s'' => True ∧ s'' = s'.dropOrder entry.1 entry.2.1 entry.2.2 (notes entry.2.2))
        (fun _ _ => False) s' :=
    fun entry s' hs' htracks' hget _ => wp_removeOrder hlogs hs' htracks' hget ⟨trivial, rfl⟩
  obtain ⟨_, s', hm, -, hremoved⟩ := exists_of_wp (wp_removeAll notes hbody (.refl s) hs htracks
    (hs.book.nodup_bookOrders.sublist (List.filter_sublist.map placeOf)) fun entry hentry =>
      ⟨List.mem_of_mem_filter hentry, hs.book.mem_bookOrders (List.mem_of_mem_filter hentry)⟩)
  refine ⟨s', ?_, hremoved⟩
  unfold removeOrders
  rw [bind_of_ok (rfl : (get : Op State) s = .ok s s)]
  exact bind_of_ok hm

/-- The call returns, and it has removed exactly the orders of the sender that it is meant for. -/
def CancelsExactly (m : Op Int) (sender : Address) (txid : Hash) (block : Int)
    (Meant : CMPMetaDEx → Prop) (s : State) : Prop :=
  ∃ rc s' gone, callRc m s = .ok rc s' ∧
    Lists s (fun order => order.addr = sender ∧ Meant order) gone ∧
    Removed s gone (gone.map fun entry => .metaDExCancelTX txid entry.2.2.txid block
      entry.2.2.property entry.2.2.amountRemaining) s' ∧
    (gone ≠ [] → rc = 0) ∧ (gone = [] → rc < 0)

section Cancels

variable {txid : Hash} {block n nDesired : Int} {sender : Address} {p desired : PropertyId}
  {Meant : CMPMetaDEx → Prop}

theorem cancelsExactly_removeOrders {select : PropertyId × ℚ × CMPMetaDEx → Bool} {rc : Int}
    (hs : Sound c s) (htracks : c.Tracks s) (hrc : rc < 0)
    (hselect : ∀ entry, s.orderAt (placeOf entry) = some entry.2.2 →
      (select entry = true ↔ entry.2.2.addr = sender ∧ Meant entry.2.2)) :
    CancelsExactly (removeOrders select (recordCancel txid block) rc) sender txid block Meant s := by
  obtain ⟨s', hm, hremoved⟩ := exists_removeOrders (logs_recordCancel txid block) hs htracks
  rw [← List.map_eq_flatMap] at hremoved
  refine ⟨_, s', _, by rw [callRc, hm], hs.book.lists hselect, hremoved, fun hne => ?_, fun hnil => ?_⟩
  · rw [if_neg (by simpa using hne)]
  · rw [hnil]
    exact hrc

theorem cancelsExactly_checked {select : PropertyId × ℚ × CMPMetaDEx → Bool} {rc rc' : Int}
    (hs : Sound c s) (htracks : c.Tracks s) (hrc : rc < 0) (hrc' : rc' < 0)
    (hmeant : ∀ order, Meant order → order.property = p)
    (hselect : ∀ entry, s.orderAt (placeOf entry) = some entry.2.2 →
      (select entry = true ↔ entry.2.2.addr = sender ∧ Meant entry.2.2)) :
    CancelsExactly (get >>= fun s => rejectIf (s.metadex[p]?).isNone rc' >>= fun _ =>
      removeOrders select (recordCancel txid block) rc) sender txid block Meant s := by
  cases hprices : s.metadex[p]? with
  | none =>
    refine ⟨rc', s, [], ?_, ⟨List.nodup_nil, fun entry => ?_⟩, .refl s, fun h => absurd rfl h, fun _ => hrc'⟩
    · rw [callRc, bind_of_ok (rfl : (get : Op State) s = .ok s s), hprices]
      rfl
    · refine iff_of_false List.not_mem_nil ?_
      rintro ⟨hget, -, hmine⟩
      have hprop : p = entry.1 := (hmeant _ hmine).symm.trans (hs.book _ _ _ _ hget).property_eq
      unfold orderAt mdSet placeOf at hget
      rw [ExtTreeMap.getD_eq_getD_getElem?, ExtTreeMap.getD_eq_getD_getElem?, ← hprop,
        hprices] at hget
      simp at hget
  | some prices =>
    have hsame : ∀ m : Op Int, (get >>= fun s => rejectIf (s.metadex[p]?).isNone rc' >>= fun _ => m)
        s = m s := by
      intro m
      rw [bind_of_ok (rfl : (get : Op State) s = .ok s s), hprices]
      rfl
    unfold CancelsExactly callRc
    rw [hsame]
    exact cancelsExactly_removeOrders hs htracks hrc hselect

theorem unitPrice_eq_div (order : CMPMetaDEx) :
    order.unitPrice = (order.amountDesired : ℚ) / order.amountForsale := by
  unfold CMPMetaDEx.unitPrice
  by_cases hzero : order.amountForsale = 0
  · simp [hzero]
  · rw [if_pos hzero]

theorem cancelsExactly_metaDExCancelAtPrice (hs : Sound c s) (htracks : c.Tracks s) :
    CancelsExactly (metaDExCancelAtPrice txid block sender p n desired nDesired) sender txid block
      (fun order => order.property = p ∧ order.desiredProperty = desired ∧
        order.unitPrice = (nDesired : ℚ) / n) s := by
  refine cancelsExactly_checked hs htracks (by decide) (by decide) (fun order h => h.1) ?_
  intro entry hget
  have hok := hs.book _ _ _ _ hget
  have hprop : entry.2.2.property = entry.1 := hok.property_eq
  have hprice : entry.2.2.unitPrice = entry.2.1 := hok.price_eq
  simp only [unitPrice_eq_div, Bool.and_eq_true, beq_iff_eq, decide_eq_true_eq]
  rw [← unitPrice_eq_div, hprop, hprice]
  grind

theorem cancelsExactly_metaDExCancelAllForPair (hs : Sound c s) (htracks : c.Tracks s) :
    CancelsExactly (metaDExCancelAllForPair txid block sender p desired) sender txid block
      (fun order => order.property = p ∧ order.desiredProperty = desired) s := by
  refine cancelsExactly_checked hs htracks (by decide) (by decide) (fun order h => h.1) ?_
  intro entry hget
  have hprop : entry.2.2.property = entry.1 := (hs.book _ _ _ _ hget).property_eq
  simp only [Bool.and_eq_true, beq_iff_eq]
  rw [hprop]
  grind

theorem cancelsExactly_metaDExCancelEverything {ecosystem : Nat} (hs : Sound c s)
    (htracks : c.Tracks s) (hmeant : ∀ order, Meant order ↔
      (isMainEcosystemProperty ecosystem = true → isMainEcosystemProperty order.property = true) ∧
      (isTestEcosystemProperty ecosystem = true → isTestEcosystemProperty order.property = true)) :
    CancelsExactly (metaDExCancelEverything txid block sender ecosystem) sender txid block Meant
      s := by
  refine cancelsExactly_removeOrders hs htracks (by decide) ?_
  intro entry hget
  have hprop : entry.2.2.property = entry.1 := (hs.book _ _ _ _ hget).property_eq
  rw [hmeant, hprop]
  simp only [Bool.and_eq_true, beq_iff_eq, Bool.not_eq_true', Bool.and_eq_false_iff]
  grind

end Cancels

/-- Neither side of the order is OMNI or TOMNI. -/
def CMPMetaDEx.AllPair (order : CMPMetaDEx) : Prop :=
  OMNI_PROPERTY_TMSC < order.desiredProperty ∧ OMNI_PROPERTY_TMSC < order.property

instance (order : CMPMetaDEx) : Decidable order.AllPair := instDecidableAnd

theorem wp_metaDExShutdownAllpair (hs : Sound c s) (htracks : c.Tracks s) :
    wp metaDExShutdownAllpair
      (fun rc s' => rc = 0 ∧ (∀ entry ∈ s.bookOrders, entry.2.2.AllPair) ∧
        Removed s s.bookOrders [] s')
      (fun halt _ => halt = .hang ∧ ∃ entry ∈ s.bookOrders, ¬entry.2.2.AllPair) s := by
  unfold metaDExShutdownAllpair
  rw [wp_bind, wp_get, wp_bind]
  have hbody : ∀ entry s', Sound c s' → c.Tracks s' → s'.orderAt (placeOf entry) = some entry.2.2 →
      entry ∈ s.bookOrders → wp (if entry.2.2.desiredProperty > OMNI_PROPERTY_TMSC ∧
            entry.2.2.property > OMNI_PROPERTY_TMSC then
          removeOrder (fun _ => pure ()) entry.1 entry.2.1 entry.2.2 else throw .hang)
        (fun _ s'' => entry.2.2.AllPair ∧ s'' = s'.dropOrder entry.1 entry.2.1 entry.2.2 [])
        (fun halt _ => halt = .hang ∧ ∃ entry ∈ s.bookOrders, ¬entry.2.2.AllPair) s' := by
    intro entry s' hs' htracks' hget hentry
    rw [wp_ite]
    constructor
    · intro hpair
      exact wp_removeOrder logs_pure hs' htracks' hget ⟨hpair, rfl⟩
    · intro hkept
      exact ⟨rfl, entry, hentry, hkept⟩
  refine wp_mono (wp_removeAll (fun _ => []) hbody (.refl s) hs htracks hs.book.nodup_bookOrders
    fun entry hentry => ⟨hentry, hs.book.mem_bookOrders hentry⟩) ?_ fun _ _ h => h
  rintro _ s' ⟨hall, hremoved⟩
  rw [List.nil_append, List.flatMap_eq_nil_iff.mpr fun _ _ => rfl] at hremoved
  exact ⟨rfl, hall, hremoved⟩

/-- **Shutting down all-pair trading** ends if and only if there is no order with OMNI or TOMNI on
either side; all orders are removed then.  Otherwise the loop never gets past such an order. -/
theorem run_shutdown_allpair_iff (hstart : Genesis s₀)
    (htxids : (events.filterMap Event.txid?).Nodup)
    (hheights : (events.filterMap Event.height?).Pairwise (· ≤ ·))
    (hrun : run env s₀ events = some s) (hspace : ¬s.Overrun) :
    ((∃ s' gone, metaDExShutdownAllpair s = .ok 0 s' ∧ Lists s CMPMetaDEx.AllPair gone ∧
        Removed s gone [] s') ↔
      ∀ place order, s.orderAt place = some order → order.AllPair) ∧
    ((∃ s', metaDExShutdownAllpair s = .error .hang s') ↔
      ∃ place order, s.orderAt place = some order ∧ ¬order.AllPair) := by
  obtain ⟨top, hs⟩ := exists_sound_tracked hstart htxids hheights hrun
  have hwp := wp_metaDExShutdownAllpair hs ⟨trivial, hspace⟩
  cases hm : metaDExShutdownAllpair s with
  | ok rc s' =>
      obtain ⟨rfl, hall, hremoved⟩ := (wp_ok hm).mp hwp
      have hpairs := hs.book.forall_orderAt_iff.mpr hall
      refine ⟨iff_of_true ⟨s', s.bookOrders, rfl, ⟨hs.book.nodup_bookOrders, fun entry => ?_⟩,
        hremoved⟩ hpairs, iff_of_false ?_ ?_⟩
      · rw [hs.book.mem_bookOrders_iff]
        exact ⟨fun hget => ⟨hget, hpairs _ _ hget⟩, And.left⟩
      · rintro ⟨s'', ⟨⟩⟩
      · rintro ⟨place, order, hget, hkept⟩
        exact hkept (hpairs place order hget)
  | error halt s' =>
      obtain ⟨rfl, entry, hentry, hkept⟩ := (wp_error hm).mp hwp
      have hget := hs.book.mem_bookOrders hentry
      refine ⟨iff_of_false (by rintro ⟨s', gone, ⟨⟩, -⟩) fun hall => hkept (hall _ _ hget),
        iff_of_true ⟨s', rfl⟩ ⟨_, _, hget, hkept⟩⟩

/-- Two tokens of the main ecosystem, one of them offered for the other. -/
def pairEvents : List Event := [
  samplePacket 50000 0 "issuer".toList []
    (createPayloadIssuanceFixed 1 1 0 [] [] "token".toList [] [] 100),
  samplePacket 50000 1 "other".toList []
    (createPayloadIssuanceFixed 1 1 0 [] [] "coin".toList [] [] 100),
  samplePacket 50001 0 "issuer".toList [] (createPayloadMetaDExTrade 3 20 4 10)]

/-- The only order is removed. -/
theorem run_shutdown_allpair_iff_pair :
    ∃ s s' gone, run sampleEnv (State.empty sampleEnv mainConsensusParams) pairEvents = some s ∧
      metaDExShutdownAllpair s = .ok 0 s' ∧ Lists s CMPMetaDEx.AllPair gone ∧ Removed s gone [] s' := by
  have hvalues : (run sampleEnv (State.empty sampleEnv mainConsensusParams) pairEvents).map
      (fun s => (s.mySps.nextSpid, s.bookOrders.map fun entry => decide entry.2.2.AllPair)) =
      some (5, [true]) := by decide +kernel
  obtain ⟨s, hrun, hs⟩ := Option.map_eq_some_iff.mp hvalues
  obtain ⟨hcounter, hpairs⟩ := Prod.mk.inj hs
  have hspace : ¬s.Overrun := not_overrun_of_eq hcounter (by decide)
  have hsound := (runSuits_any.sound (genesis_empty _ _) (List.append_nil _).symm hrun).sound 0
    False.elim 0
  obtain ⟨s', gone, hm, hlists, hremoved⟩ := (run_shutdown_allpair_iff (genesis_empty _ _)
    (by decide +kernel) (by decide +kernel) hrun hspace).1.mpr
    (hsound.book.forall_orderAt_iff.mpr fun entry hentry => by
      have hmem := List.mem_map_of_mem (f := fun entry => decide entry.2.2.AllPair) hentry
      rw [hpairs, List.mem_singleton] at hmem
      exact of_decide_eq_true hmem)
  exact ⟨s, s', gone, hrun, hm, hlists, hremoved⟩

/-- **A shutdown that never ends.**  The book has one order, which offers OMNI. -/
theorem exists_shutdown_allpair_hangs :
    ∃ s s', run sampleEnv (State.empty sampleEnv mainConsensusParams) tradedEvents = some s ∧
      metaDExShutdownAllpair s = .error .hang s' := by
  have hhalt : (run sampleEnv (State.empty sampleEnv mainConsensusParams) tradedEvents).map
      (haltOf metaDExShutdownAllpair) = some (some .hang) := by decide +kernel
  obtain ⟨s, hrun, hs⟩ := Option.map_eq_some_iff.mp hhalt
  obtain ⟨s', hm⟩ := exists_of_haltOf hs
  exact ⟨s, s', hrun, hm⟩

/-! ### Exhausted identifiers -/

/-- All tokens of the first property of the test ecosystem are offered. -/
def allOfferedEvents : List Event := [
  issuance 2 "seller".toList 0,
  .packet {
    txid := 1
    block := 50000
    blockTime := 1500000000
    txIdx := 1
    txFeePaid := 0
    blockHash := 50000
    payload := createPayloadMetaDExTrade 0x80000003 0x7fffffffffffffff 2 1
    sender := "seller".toList
    receiver := [] }]

/-- The order that offers them. -/
def offeredOrder : PropertyId × ℚ × CMPMetaDEx :=
  (TEST_ECO_PROPERTY_1, 1 / 0x7fffffffffffffff,
    { block := 50000, txid := 1, idx := 1, property := TEST_ECO_PROPERTY_1,
      amountForsale := MAX_INT_8_BYTES, desiredProperty := 2, amountDesired := 1,
      amountRemaining := MAX_INT_8_BYTES, subaction := 1, addr := "seller".toList })

theorem exists_offered : ∃ s, run sampleEnv (State.empty sampleEnv mainConsensusParams) allOfferedEvents =
      some s ∧ Issued s 3 s ∧ (∀ p, s.money "issuer".toList p .BALANCE = 0) ∧
      s.bookOrders = [offeredOrder] ∧ (s.metadex[TEST_ECO_PROPERTY_1]?).isNone = false ∧
      s.money "seller".toList TEST_ECO_PROPERTY_1 .BALANCE = 0 ∧
      s.money "seller".toList TEST_ECO_PROPERTY_1 .METADEX_RESERVE = MAX_INT_8_BYTES := by
  have hvalues : (run sampleEnv (State.empty sampleEnv mainConsensusParams) allOfferedEvents).map
      (fun s => (s.mySps.nextSpid, s.feecache.isEmpty, (s.mpTallyMap["issuer".toList]?).isNone)) =
      some (3, true, true) := by decide +kernel
  have hmoney : (run sampleEnv (State.empty sampleEnv mainConsensusParams) allOfferedEvents).map
      (fun s => (s.money "seller".toList TEST_ECO_PROPERTY_1 .BALANCE,
        s.money "seller".toList TEST_ECO_PROPERTY_1 .METADEX_RESERVE)) =
      some (0, MAX_INT_8_BYTES) := by decide +kernel
  have hbook : (run sampleEnv (State.empty sampleEnv mainConsensusParams) allOfferedEvents).map
      State.bookOrders = some [offeredOrder] := by decide +kernel
  have hlevel : (run sampleEnv (State.empty sampleEnv mainConsensusParams) allOfferedEvents).map
      (fun s => (s.metadex[TEST_ECO_PROPERTY_1]?).isNone) = some false := by decide +kernel
  have hparts : ∀ event ∈ allOfferedEvents, event.parts ⊆
      [.properties, .counters, .tally .BALANCE, .tally .METADEX_RESERVE, .cache, .book, .trades,
        .thresholds] := by decide +kernel
  obtain ⟨s, hrun, hs⟩ := Option.map_eq_some_iff.mp hvalues
  rw [hrun, Option.map_some, Option.some.injEq] at hmoney hbook hlevel
  simp only [Prod.mk.injEq] at hs hmoney
  obtain ⟨hcounter, hcache, hissuer⟩ := hs
  have hagree := run_agree hparts hrun
  have hfrozen : s.setFrozenAddresses = ∅ := congrArg Prod.snd (hagree .freezing (by decide))
  refine ⟨s, hrun, ⟨hagree .params (by decide), ?_, hfrozen, hcounter, rfl, fun _ _ _ => rfl,
    fun _ _ => rfl⟩, fun p => ?_, hbook, hlevel, hmoney⟩
  · exact ExtTreeMap.isEmpty_iff.mp hcache
  · rw [Option.isNone_iff_eq_none] at hissuer
    rw [State.money, hissuer]

theorem parts_issuance (sender : Address) (idx : Nat) :
    (issuance 1 sender idx).parts = partsOfType MSC_TYPE_CREATE_PROPERTY_FIXED := by
  have htype := (fields_issuanceParsed 1 sender idx).1
  change ((issuanceTx 1 sender idx).interpretTransaction.map _).getD [] = _
  rw [interpretTransaction_issuance, Option.map_some, htype]
  rfl

theorem wp_removeOrder_of_overflow {order : CMPMetaDEx} {note : CMPMetaDEx → Op Unit}
    {prop : PropertyId} {price : ℚ} (hpos : 0 < order.amountRemaining)
    (hreserve : s.money order.addr order.property .METADEX_RESERVE = order.amountRemaining)
    (hbalance : MAX_INT_8_BYTES < s.money order.addr order.property .BALANCE + order.amountRemaining) :
    wp (removeOrder note prop price order) (fun _ _ => False)
      (fun halt _ => halt = .abort .tallyUpdated) s := by
  have hadmits : Admits (s.money order.addr order.property .METADEX_RESERVE)
      (-order.amountRemaining) := ⟨by omega, by omega, fun _ => by omega⟩
  have hfirst : assertUpdateTallyMap order.addr order.property (-order.amountRemaining)
      .METADEX_RESERVE s = .ok () (s.addTally order.addr order.property (-order.amountRemaining)
        .METADEX_RESERVE) := bind_of_ok (updateTallyMap_of_admits (t := .METADEX_RESERVE) (fun h => by cases h) hadmits)
  unfold removeOrder
  rw [wp_bind, wp_ok hfirst, wp_bind]
  refine wp_mono (wp_assertUpdateTallyMap_of_overflow hpos (by decide) ?_) (fun _ _ h => h.elim)
    fun _ _ h => h
  rw [money_addTally, if_neg (by simp), Int.add_zero]
  exact hbalance

end HcOmni
