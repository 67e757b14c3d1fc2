import HcOmni.Runs.Kept
import HcOmni.Runs.Supply

/-!
# Who can spend a balance

Nearly every function of the engine moves tokens, and each checks in its own way that the sender may
do so.  Here it is followed through all of them that a spendable balance is lowered only by a
transaction of its holder.  Purchases, expiries, distributions, matches and removed orders can only
add to the balances of others; for removed orders that depends on the book, since an order with a
negative remaining amount would take from its owner.
-/

namespace HcOmni

open Std MapSum Program CMPTally State

variable {a who : Address} {s t : State} {env : Env} {tx : CMPTransaction} {p : PropertyId}
  {n block : Int} {ttype : TallyType} {W : List Part} {α β : Type}

/-! ### The contract -/

/-- No spendable balance of the address gets smaller, unless the process ends. -/
def sparing (a : Address) : Contract Halt State where
  rel s s' := ∀ p, s.money a p .BALANCE ≤ s'.money a p .BALANCE
  refl _ _ := Int.le_refl _
  trans h h' p := Int.le_trans (h p) (h' p)
  live := Halt.Live
  bad _ := False

abbrev Spares (a : Address) (m : Op α) (s : State) (Q : α → State → Prop := fun _ _ => True) : Prop :=
  Conforms (sparing a) m Q s

theorem sparing_addTally (h : who = a → ttype = .BALANCE → 0 ≤ n) :
    (sparing a).rel s (s.addTally who p n ttype) := by
  intro q
  rw [money_addTally]
  by_cases hsame : who = a ∧ p = q ∧ ttype = TallyType.BALANCE
  · have hnonneg := h hsame.1 hsame.2.2
    rw [if_pos hsame]
    omega
  · rw [if_neg hsame, Int.add_zero]

theorem spares_updateTallyMap (h : who = a → ttype = .BALANCE → 0 ≤ n) :
    Spares a (updateTallyMap who p n ttype) s := by
  unfold updateTallyMap
  by_cases hzero : n = 0
  · rw [if_pos hzero]
    exact Conforms.pure trivial
  rw [if_neg hzero]
  apply Conforms.get
  cases !(decide (ttype = .BALANCE) && decide (n < 0) && s.isAddressFrozen who p) with
  | false => exact Conforms.throw id
  | true =>
    refine ⟨?_, trivial⟩
    rcases (updateMoney_cases hzero :
      (s.mpTallyMap.getD who {}).updateMoney p n ttype = _ ∨ _) with hcase | hcase
    · -- the update is refused: only an empty record may be new
      rw [hcase]
      exact sparing_addTally fun _ hpending => by cases hpending
    · rw [hcase]
      exact sparing_addTally h

namespace Spares

variable {Q : β → State → Prop} {f : Unit → Op β}

theorem of_touches {m : Op α} (h : Touches W m s) (hW : Part.tally .BALANCE ∉ W) :
    Spares a m s := by
  have hle : ∀ s', stateParts.Agree W s s' → (sparing a).rel s s' := by
    intro s' hagree p
    have hsame : (fun b q => s'.money b q .BALANCE) = fun b q => s.money b q .BALANCE :=
      hagree _ hW
    exact Int.le_of_eq (congrFun (congrFun hsame a) p).symm
  exact wp_mono h (fun _ s' hagree => ⟨hle s' hagree, trivial⟩)
    fun _ s' hagree => ⟨fun _ => hle s' hagree, id⟩

protected theorem pure {x : α} : Spares a (pure x) s := Conforms.pure trivial

protected theorem throw {e : Halt} : Spares a (throw e : Op β) s Q := Conforms.throw id

protected theorem get {f : State → Op β} (h : Spares a (f s) s Q) : Spares a (get >>= f) s Q :=
  Conforms.get h

protected theorem seq {R : α → State → Prop} {m : Op α} {f : α → Op β} (hm : Spares a m s R)
    (hf : ∀ x s', R x s' → Spares a (f x) s' Q) : Spares a (m >>= f) s Q :=
  Conforms.bind hm fun x s' _ => hf x s'

protected theorem bind {m : Op α} {f : α → Op β} (hm : Spares a m s)
    (hf : ∀ x s', Spares a (f x) s' Q) : Spares a (m >>= f) s Q :=
  .seq hm fun x s' _ => hf x s'

theorem done {m : Op α} {g : α → β} (hm : Spares a m s) : Spares a (m >>= fun x => pure (g x)) s :=
  hm.bind fun _ _ => .pure

/-- A statement that leaves the balances alone. -/
protected theorem skip {m : Op α} {f : α → Op β} (hm : Touches W m s)
    (hW : Part.tally .BALANCE ∉ W) (hf : ∀ x s', Spares a (f x) s' Q) : Spares a (m >>= f) s Q :=
  (of_touches hm hW).bind hf

protected theorem check {what : Assertion} {cond : Bool} (hf : ∀ s', Spares a (f ()) s' Q) :
    Spares a (assertThat what cond >>= f) s Q :=
  .skip (touches_assertThat (W := [])) (by simp) fun _ s' => hf s'

protected theorem note {entry : DbRecord} (hf : ∀ s', Spares a (f ()) s' Q) :
    Spares a (record entry >>= f) s Q :=
  .skip (touches_record (W := [.trades]) (.inr (by decide))) (by decide) fun _ s' => hf s'

protected theorem reads {P : α → Prop} {E : Halt → Prop} {m : Op α} {f : α → Op β}
    (hm : Reads m P E s) (hf : ∀ x, P x → Spares a (f x) s Q) : Spares a (m >>= f) s Q :=
  Conforms.reads hm (fun _ _ => id) hf

protected theorem reject {cond : Bool} {rc : Int} (h : Spares a (f ()) s Q) :
    Spares a (rejectIf cond rc >>= f) s Q :=
  .reads reads_rejectIf fun _ _ => h

protected theorem ite {c : Prop} [Decidable c] {m m' : Op β} (ht : c → Spares a m s Q)
    (hf : Spares a m' s Q) : Spares a (if c then m else m') s Q :=
  Conforms.ite ht fun _ => hf

protected theorem forM {ι : Type} {body : ι → Op PUnit} {items : List ι}
    (hbody : ∀ i ∈ items, ∀ s, Spares a (body i) s) : Spares a (items.forM body) s := by
  have hloop : Conforms (sparing a) (items.forM body) _ s :=
    Conforms.forM (I := fun rest _ => ∀ i ∈ rest, i ∈ items) (fun _ hi => hi) ?_
  · exact hloop.mono fun _ _ _ _ => trivial
  · intro i rest s' hrest
    refine (hbody i (hrest i List.mem_cons_self) s').mono fun _ _ _ _ => ?_
    exact fun j hj => hrest j (List.mem_cons_of_mem i hj)

protected theorem callRc {m : Op Int} (h : Spares a m s) : Spares a (callRc m) s := by
  refine wp_callRc_of (wp_mono h (fun _ _ hrel => hrel) ?_)
  intro e s' hrel
  cases e with
  | ret rc => exact ⟨hrel.1 trivial, trivial⟩
  | thrown | abort | crash | hang => exact hrel

theorem assertUpdate (h : who = a → ttype = .BALANCE → 0 ≤ n) :
    Spares a (assertUpdateTallyMap who p n ttype) s :=
  .bind (spares_updateTallyMap h) fun _ _ => .of_touches (touches_assertThat (W := [])) (by simp)

theorem debit (hne : who ≠ a) (hf : ∀ s', Spares a (f ()) s' Q) :
    Spares a (assertUpdateTallyMap who p n ttype >>= f) s Q :=
  .bind (assertUpdate fun heq => absurd heq hne) fun _ s' => hf s'

theorem reserve (ht : ttype ≠ .BALANCE) (hf : ∀ s', Spares a (f ()) s' Q) :
    Spares a (assertUpdateTallyMap who p n ttype >>= f) s Q :=
  .bind (assertUpdate fun _ heq => absurd heq ht) fun _ s' => hf s'

theorem credit (hn : 0 ≤ n) (hf : ∀ s', Spares a (f ()) s' Q) :
    Spares a (assertUpdateTallyMap who p n ttype >>= f) s Q :=
  .bind (assertUpdate fun _ _ => hn) fun _ s' => hf s'

theorem assertCredit (hf : ∀ s', Spares a (f ()) s' Q) :
    Spares a (assertCredit who p n >>= f) s Q :=
  .bind (.ite (fun hpos => assertUpdate fun _ _ => Int.le_of_lt hpos) .pure) fun _ s' => hf s'

end Spares

/-! ### Distributed fees -/

theorem reads_receivers_pos :
    Reads (stoGetReceivers who p n) (fun receivers => ∀ r ∈ receivers, 0 < r.1) (fun _ => True) s := by
  apply Reads.get
  refine .bind ((reads_splitAmount _ 0).mono_error fun _ _ => trivial) fun receivers h => .pure ?_
  intro r hr
  exact h.1 r ((List.mem_insertionSort _).mp hr)

theorem spares_evalCache : Spares a (evalCache env p block) s := by
  refine .get (.ite (fun _ => .get (.reads reads_receivers_pos fun receivers hpos => ?_)) .pure)
  refine .bind (.forM fun r hr _ => .assertUpdate fun _ _ => Int.le_of_lt (hpos r hr))
    fun _ _ => .note fun _ => .check fun _ => .skip (.modify agree_cache) (by decide) fun _ _ => ?_
  exact .of_touches (.modify agree_pruneFees) (by decide)

theorem spares_addFee : Spares a (addFee env p block n) s :=
  .skip (.modify agree_cache) (by decide) fun _ _ =>
    .skip (.modify agree_pruneFees) (by decide) fun _ _ => spares_evalCache

theorem spares_notifyTotalTokensChanged : Spares a (notifyTotalTokensChanged env p block) s :=
  .skip (.modify agree_thresholds) (by decide) fun _ _ => spares_evalCache

/-! ### The classic exchange -/

section DEx

variable {seller buyer : Address} {txid : Hash}

theorem spares_dexOfferCreate {offered desired minFee : Int} {window : Nat} (hne : seller ≠ a) :
    Spares a (dexOfferCreate env seller p offered block desired minFee window txid) s := by
  refine .reject (.reject (.get (.reject (.reject (.ite (fun _ => ?_) .pure)))))
  refine .debit hne fun _ => .debit hne fun _ => ?_
  exact .skip (.modify agree_offers) (by decide) fun _ _ => .pure

theorem spares_dexOfferDestroy : Spares a (dexOfferDestroy seller p) s := by
  refine .get (.reject (.ite (fun hpos => .reserve (by decide) fun _ =>
    .credit (Int.le_of_lt hpos) fun _ => ?_) ?_))
  all_goals exact .skip (.modify agree_offers) (by decide) fun _ _ => .pure

theorem spares_dexOfferUpdate {offered desired minFee : Int} {window : Nat} (hne : seller ≠ a) :
    Spares a (dexOfferUpdate env seller p offered block desired minFee window txid) s :=
  .get (.reject (.bind spares_dexOfferDestroy.callRc fun _ _ =>
    .ite (fun _ => spares_dexOfferCreate hne) .pure))

theorem spares_dexAcceptDestroy {force : Bool} :
    Spares a (dexAcceptDestroy buyer seller p force) s := by
  unfold dexAcceptDestroy
  apply Spares.get
  cases s.dexGetAccept seller p buyer with
  | none => exact .throw
  | some accept =>
    refine .ite (fun hpos => .reserve (by decide) fun _ => .credit (Int.le_of_lt hpos) fun _ => ?_) ?_
    all_goals
      exact .ite (fun _ => .skip (.modify agree_accepts) (by decide) fun _ _ => .pure) .pure

theorem spares_dexPay {vout : Nat} {accept : CMPAccept} {paid : Int} :
    Spares a (dexPay env txid vout seller buyer p accept paid block) s := by
  refine .reject (.bind (.get (.ite (fun _ => ?_) .pure)) fun _ _ => .bind ?_ fun _ _ => .pure)
  · exact .of_touches (.of_reads reads_calculateDExPurchase) (W := []) (by simp)
  refine .ite (fun hpos => .reserve (by decide) fun _ => .credit (Int.le_of_lt hpos) fun _ =>
    .note fun _ => ?_) ?_
  all_goals
    refine .skip (.modify agree_accepts) (by decide) fun _ _ => .ite (fun _ => .get ?_) .pure
    refine .bind spares_dexAcceptDestroy.callRc fun _ _ => .ite (fun _ => ?_) .pure
    exact spares_dexOfferDestroy.callRc.done

theorem spares_dexPayment {vout : Nat} {paid : Int} :
    Spares a (dexPayment env txid vout seller buyer paid block) s := by
  unfold dexPayment
  apply Spares.get
  cases s.dexGetAccept seller OMNI_PROPERTY_MSC buyer with
  | some accept => exact spares_dexPay
  | none =>
    cases s.dexGetAccept seller OMNI_PROPERTY_TMSC buyer with
    | some accept => exact spares_dexPay
    | none => exact .throw

theorem spares_eraseExpiredAccepts {blockNow : Int} : Spares a (eraseExpiredAccepts blockNow) s := by
  refine .get (.forM fun entry _ s' => ?_)
  unfold eraseExpiredAccept
  refine .ite (fun _ => ?_) .pure
  cases parseAcceptKey entry.1 with
  | none => exact .throw
  | some parts =>
    refine .bind spares_dexAcceptDestroy.callRc fun _ _ => ?_
    exact .of_touches (.modify agree_accepts) (by decide)

end DEx

/-! ### The token exchange -/

section MetaDEx

variable {pnew pold order : CMPMetaDEx} {price : ℚ}

theorem reads_matchAmounts_nonneg :
    Reads (matchAmounts pnew pold) (fun r => ∀ amounts, r = some amounts → 0 ≤ amounts.2)
      (CalcError True) s := by
  refine .bind reads_amountCouldBuy fun _ _ => .ite (fun _ => .pure (by simp)) fun _ => ?_
  refine .bind reads_convertTo256 fun _ _ => .bind reads_convertTo256 fun _ _ =>
    .bind reads_convertTo256 fun _ _ => .bind (reads_divideAndRoundUp fun _ => trivial) fun _ _ =>
      .bind reads_convertTo64 fun paid hpaid => .ite (fun _ => .pure (by simp)) fun _ => ?_
  refine .bind reads_assertOther fun _ _ => .bind reads_assertOther fun _ _ => .pure ?_
  intro amounts hsome
  cases hsome
  rw [hpaid.1]
  exact Int.natCast_nonneg _

/-- The buyer pays, and what is left of the new order is still the buyer's. -/
theorem spares_executeTrade {got paid : Int} (hne : pnew.addr ≠ a) (hpaid : 0 ≤ paid) :
    Spares a (executeTrade env price pnew pold got paid) s fun left _ => left.addr = pnew.addr := by
  refine .check fun _ => .check fun _ => .bind (.get (.ite (fun _ => ?_) .pure)) fun fee _ => ?_
  · exact spares_addFee.done
  refine .debit hne fun _ => .credit hpaid fun _ => .reserve (by decide) fun _ =>
    .debit hne fun _ => .note fun _ => .skip (.modify agree_putMdSet) (by decide) fun _ _ => ?_
  refine .ite (fun _ => .skip (.modify agree_putMdSet) (by decide) fun _ _ => ?_) ?_
  all_goals exact Conforms.pure rfl

theorem spares_xTradeOrder (hne : pnew.addr ≠ a) :
    Spares a (xTradeOrder env price pnew pold) s fun seen _ => seen.1.addr = pnew.addr := by
  refine .check fun _ => .ite (fun _ => Conforms.pure rfl) (.check fun _ => .check fun _ =>
    .check fun _ => .check fun _ => .check fun _ => .check fun _ => ?_)
  refine .reads reads_matchAmounts_nonneg fun amounts hpaid => ?_
  cases amounts with
  | none => exact Conforms.pure rfl
  | some amounts =>
    refine .seq (spares_executeTrade hne (hpaid amounts rfl)) ?_
    intro traded _ haddr
    exact Conforms.pure haddr

theorem spares_xTradeLevel : ∀ (orders : List CMPMetaDEx) (pnew : CMPMetaDEx) (s : State),
    pnew.addr ≠ a →
      Spares a (xTradeLevel env price pnew orders) s fun seen _ => seen.1.addr = pnew.addr
  | [], _, _, _ => Conforms.pure rfl
  | _ :: rest, pnew, _, hne => by
    refine .seq (spares_xTradeOrder hne) fun seen s' haddr => ?_
    refine .ite (fun _ => Conforms.pure haddr) ?_
    rw [← haddr] at hne ⊢
    exact spares_xTradeLevel rest seen.1 s' hne

theorem spares_xTradePrices : ∀ (levels : List (ℚ × MdSet)) (pnew : CMPMetaDEx) (s : State),
    pnew.addr ≠ a → Spares a (xTradePrices env pnew levels) s
  | [], _, _, _ => .pure
  | _ :: rest, pnew, s, hne => by
    refine .ite (fun _ => spares_xTradePrices rest pnew s hne) ?_
    refine .seq (spares_xTradeLevel _ pnew s hne) fun seen s' haddr => ?_
    exact .ite (fun _ => .pure) (spares_xTradePrices rest seen.1 s' (haddr ▸ hne))

theorem spares_metaDExAdd {desired : PropertyId} {nDesired : Int} {txid : Hash} {idx : Nat}
    (hne : who ≠ a) : Spares a (metaDExAdd env who p n block desired nDesired txid idx) s := by
  refine .reject (.bind (.get (spares_xTradePrices _ _ _ hne)) fun left _ => .ite (fun _ => ?_) .pure)
  refine .skip touches_metaDExInsert (by decide) fun _ _ => .reject ?_
  exact .debit hne fun _ => .debit hne fun _ => .pure

theorem spares_removeOrder {note : CMPMetaDEx → Op Unit} {entry : PropertyId × ℚ × CMPMetaDEx}
    (hbook : t.BookOk) (hentry : entry ∈ t.bookOrders)
    (hnote : ∀ order s, Touches [] (note order) s) :
    Spares a (removeOrder note entry.1 entry.2.1 entry.2.2) s := by
  have hpos := (hbook _ _ _ _ (hbook.mem_bookOrders hentry)).remaining_pos
  refine .reserve (by decide) fun _ => .credit (Int.le_of_lt hpos) fun _ => ?_
  refine .skip (hnote _ _) (by simp) fun _ _ => ?_
  exact .of_touches (.modify agree_putMdSet) (by decide)

theorem spares_removeOrders {select : PropertyId × ℚ × CMPMetaDEx → Bool}
    {note : CMPMetaDEx → Op Unit} {rc : Int} (hbook : s.BookOk)
    (hnote : ∀ order s, Touches [] (note order) s) : Spares a (removeOrders select note rc) s :=
  .get (.bind (.forM fun _ hentry _ => spares_removeOrder hbook (List.mem_of_mem_filter hentry) hnote)
    fun _ _ => .pure)

end MetaDEx

/-! ### Crowdsales -/

theorem spares_closeCrowdsale {sp : Entry} : Spares a (closeCrowdsale who p sp) s :=
  .skip touches_assertUpdateSP (by decide) fun _ _ => .assertCredit fun _ =>
    .of_touches (.modify agree_crowds) (by decide)

theorem spares_eraseExpiredCrowdsale {time : Int} {blockHash : Hash} :
    Spares a (eraseExpiredCrowdsale time blockHash) s :=
  .get (.forM fun _ _ _ => .ite (fun _ => .reads reads_assertGetSP fun _ _ =>
    .reads reads_getMissedIssuerBonus fun _ _ => spares_closeCrowdsale) .pure)

theorem spares_logicHelperCrowdsaleParticipation :
    Spares a (logicHelperCrowdsaleParticipation env tx) s := by
  unfold logicHelperCrowdsaleParticipation
  apply Spares.get
  cases s.myCrowds[tx.receiver]? with
  | none => exact .throw
  | some crowd =>
    refine .reject (.reads reads_assertGetSP fun sp _ => .reads reads_calculateFundraiser
      fun tokens _ => .skip (.modify agree_crowds) (by decide) fun _ _ => ?_)
    refine .assertCredit fun _ => .assertCredit fun _ => ?_
    refine .bind spares_notifyTotalTokensChanged fun _ _ => .ite (fun _ => ?_) .pure
    exact .skip touches_eraseMaxedCrowdsale (by decide) fun _ _ => .pure

/-! ### Transactions -/

section Transactions

variable (hne : tx.sender ≠ a)

include hne

theorem spares_logicMathSimpleSend : Spares a (logicMathSimpleSend env tx) s := by
  refine .get (.reject (.reject (.reject (.reject (.debit hne fun _ => ?_)))))
  refine .credit (Int.natCast_nonneg _) fun _ => ?_
  exact spares_logicHelperCrowdsaleParticipation.callRc.done

theorem spares_logicMathSendToOwners : Spares a (logicMathSendToOwners env tx) s := by
  refine .get (.reject (.reject (.reject (.reject (.reject (.reads reads_receivers_pos
    fun receivers hpos => .reject (.reject (.reject ?_))))))))
  refine .bind (.debit hne fun _ => .ite (fun _ => .pure) spares_addFee) fun _ _ => ?_
  refine .bind (.forM fun r hr _ => .debit hne fun _ => .credit (Int.le_of_lt (hpos r hr)) fun _ =>
    .note (f := pure) fun _ => .pure) fun _ _ => .check fun _ => .ite (fun _ => ?_) .pure
  exact spares_notifyTotalTokensChanged.done

theorem spares_sendAllProperties : ∀ (properties : List PropertyId) (sent : Nat) (s : State),
    Spares a (sendAllProperties tx properties sent) s
  | [], _, _ => .pure
  | _ :: rest, sent, s => by
    have hrest := spares_sendAllProperties rest
    refine .get (.ite (fun _ => hrest sent s) (.ite (fun _ => hrest sent s) (.ite
      (fun _ => hrest sent s) (.ite (fun hpos => .debit hne fun _ => ?_) (hrest sent s)))))
    exact .credit (Int.le_of_lt hpos) fun _ => .note fun s' => hrest (sent + 1) s'

theorem spares_logicMathSendAll : Spares a (logicMathSendAll tx) s := by
  unfold logicMathSendAll
  refine .get (.reject ?_)
  cases s.mpTallyMap[tx.sender]? with
  | none => exact .throw
  | some tally => exact .bind (spares_sendAllProperties hne _ _ _) fun _ _ => .reject .pure

theorem spares_logicMathTradeOffer : Spares a (logicMathTradeOffer env tx) s := by
  refine .get (.reject (.reject (.reject (.ite (fun _ => ?_) (.ite (fun _ => ?_) .pure)))))
  · refine .ite (fun _ => .ite (fun _ => ?_) ?_) (.ite (fun _ => spares_dexOfferDestroy) .pure)
    · exact (spares_dexOfferUpdate hne).done
    · exact (spares_dexOfferCreate hne).done
  · refine .reject (.reject (.ite (fun _ => ?_) (.ite (fun _ => ?_)
      (.ite (fun _ => spares_dexOfferDestroy) .pure))))
    · exact (spares_dexOfferCreate hne).done
    · exact (spares_dexOfferUpdate hne).done

theorem spares_logicMathMetaDExTrade : Spares a (logicMathMetaDExTrade env tx) s :=
  .reads reads_checkTradingPair fun _ _ => .reads reads_checkOrderAmounts fun _ _ =>
    .get (.reject (.reject (.note fun _ => spares_metaDExAdd hne)))

theorem spares_logicMathRevokeTokens : Spares a (logicMathRevokeTokens env tx) s := by
  refine .get (.reject (.reject (.reject (.reads reads_assertGetSP fun _ _ => .reject (.reject
    (.debit hne fun _ => .skip touches_assertUpdateSP (by decide) fun _ _ => ?_))))))
  exact spares_notifyTotalTokensChanged.done

omit hne

theorem spares_logicMathCreatePropertyFixed : Spares a (logicMathCreatePropertyFixed env tx) s := by
  refine .get (.reject (.reject (.reject (.reject (.reject
    (.skip touches_putNewProperty (by decide) fun _ _ => ?_))))))
  refine .credit (Int.natCast_nonneg _) fun _ => ?_
  exact spares_notifyTotalTokensChanged.done

theorem spares_logicMathCloseCrowdsale : Spares a (logicMathCloseCrowdsale tx) s := by
  unfold logicMathCloseCrowdsale
  refine .get (.reject (.reject ?_))
  cases s.myCrowds[tx.sender]? with
  | none => exact .throw
  | some crowd =>
    exact .reject (.reads reads_assertGetSP fun _ _ => .reads reads_getMissedIssuerBonus
      fun _ _ => spares_closeCrowdsale.done)

theorem spares_logicMathGrantTokens : Spares a (logicMathGrantTokens env tx) s := by
  refine .get (.reject (.reject (.reject (.reads reads_assertGetSP fun _ _ => .reject (.reject
    (.reject (.skip touches_assertUpdateSP (by decide) fun _ _ => ?_)))))))
  refine .credit (Int.natCast_nonneg _) fun s' => .ite (fun _ => ?_)
    (.bind spares_logicHelperCrowdsaleParticipation.callRc fun _ _ => ?_)
  all_goals exact spares_notifyTotalTokensChanged.done

theorem spares_logicMathDeactivation (hbook : s.BookOk) :
    Spares a (logicMathDeactivation env tx) s := by
  unfold logicMathDeactivation
  refine .get (.reject (.reject ?_))
  cases s.aux.deactivateFeature tx.featureId tx.block with
  | none => exact .throw
  | some aux =>
    -- only the settings differ from the state whose book is known to be in order
    have hbook' : State.BookOk { s with aux := aux } := hbook
    refine .seq (R := fun _ s' => s' = { s with aux := aux }) ⟨fun p => Int.le_refl _, rfl⟩ ?_
    rintro _ s' rfl
    refine .ite (fun _ => .bind ?_ fun _ _ => .pure) (.ite (fun _ => .bind ?_ fun _ _ => .pure) .pure)
    · exact spares_removeOrders hbook' fun _ _ => .pure
    · exact .get (.bind (.forM fun _ hentry _ => .ite (fun _ => spares_removeOrder hbook' hentry
        fun _ _ => .pure) .throw) fun _ _ => .pure)

theorem spares_logicMath (hne : tx.sender ≠ a) (hbook : s.BookOk) :
    Spares a (logicMath env tx) s := by
  have hcancel : ∀ {select : PropertyId × ℚ × CMPMetaDEx → Bool} {rc : Int},
      Spares a (removeOrders select (recordCancel tx.txid tx.block) rc) s :=
    spares_removeOrders hbook touches_recordCancel
  unfold logicMath
  refine .ite (fun _ => spares_logicMathSimpleSend hne) ?_
  refine .ite (fun _ => spares_logicMathSendToOwners hne) ?_
  refine .ite (fun _ => spares_logicMathSendAll hne) ?_
  refine .ite (fun _ => spares_logicMathTradeOffer hne) ?_
  refine .ite (fun _ => .of_touches touches_logicMathAcceptOfferBTC (by decide)) ?_
  refine .ite (fun _ => spares_logicMathMetaDExTrade hne) ?_
  refine .ite (fun _ => .reads reads_checkTradingPair fun _ _ => .reads reads_checkOrderAmounts
    fun _ _ => .get (.reject hcancel)) ?_
  refine .ite (fun _ => .reads reads_checkTradingPair fun _ _ => .get (.reject hcancel)) ?_
  refine .ite (fun _ => .get (.reject (.reject hcancel))) ?_
  refine .ite (fun _ => spares_logicMathCreatePropertyFixed) ?_
  refine .ite (fun _ => .of_touches touches_logicMathCreatePropertyVariable (by decide)) ?_
  refine .ite (fun _ => spares_logicMathCloseCrowdsale) ?_
  refine .ite (fun _ => .of_touches touches_logicMathCreatePropertyManaged (by decide)) ?_
  refine .ite (fun _ => spares_logicMathGrantTokens) ?_
  refine .ite (fun _ => spares_logicMathRevokeTokens hne) ?_
  refine .ite (fun _ => .of_touches touches_logicMathChangeIssuer (by decide)) ?_
  refine .ite (fun _ => .of_touches touches_logicMathEnableFreezing (by decide)) ?_
  refine .ite (fun _ => .of_touches touches_logicMathDisableFreezing (by decide)) ?_
  refine .ite (fun _ => .of_touches touches_logicMathFreezeTokens (by decide)) ?_
  refine .ite (fun _ => .of_touches touches_logicMathUnfreezeTokens (by decide)) ?_
  refine .ite (fun _ => spares_logicMathDeactivation hbook) ?_
  refine .ite (fun _ => .of_touches touches_logicMathActivation (by decide)) ?_
  refine .ite (fun _ => .of_touches touches_logicMathAlert (by simp)) ?_
  exact .ite (fun _ => .of_touches touches_logicMathSendAgreement (by simp)) .pure

end Transactions

/-! ### Events and runs -/

theorem spares_calculateAndUpdateDevmsc {nTime : Nat} :
    Spares a (calculateAndUpdateDevmsc env nTime block) s := by
  refine .reject (.get (.reject (.reject (.ite (fun hpos => ?_) ?_))))
  · refine .bind (spares_updateTallyMap fun _ _ => Int.le_of_lt hpos) fun _ s' => ?_
    refine .skip (.modify (agree_aux rfl rfl rfl rfl rfl)) (by simp) fun _ _ => ?_
    exact spares_notifyTotalTokensChanged.done
  · exact spares_notifyTotalTokensChanged.done

/-- The sender of a transaction. -/
def Event.sender? : Event → Option Address
  | .packet tx => some tx.sender
  | _ => none

theorem spares_exec {event : Event} (hbook : s.BookOk) (hnot : event.sender? ≠ some a) :
    Spares a (event.exec env) s := by
  cases event with
  | packet tx =>
    refine .bind ?_ fun _ _ => .pure
    unfold interpretPacket
    apply Spares.reject
    cases hparse : tx.interpretTransaction with
    | none => exact .throw
    | some parsed =>
      have hsender := (parsedFrom_of_interpretTransaction hparse).sender
      have hne : parsed.sender ≠ a := fun heq => hnot (congrArg some (hsender ▸ heq))
      exact .reads reads_decodeAgreement fun _ _ => .get (.reject (spares_logicMath hne hbook))
  | payment => exact spares_dexPayment.done
  | expireAccepts => exact spares_eraseExpiredAccepts
  | expireCrowdsales => exact spares_eraseExpiredCrowdsale
  | vestDevmsc => exact spares_calculateAndUpdateDevmsc.done
  | pending => exact .skip touches_updateTallyMap (by decide) fun _ _ => .pure

/-- **Nobody else spends a balance.**  Whatever a run has led to: as long as the later events hold no
transaction of an address, none of its spendable balances gets smaller, whatever the other addresses
and the chain do in the meantime. -/
theorem run_balance_le_unless_sent {s₀ : State} {before after : List Event} (hstart : Genesis s₀)
    (hrun : run env s₀ before = some s) (hlater : run env s after = some t)
    (hnot : ∀ event ∈ after, event.sender? ≠ some a) (p : PropertyId) :
    s.money a p .BALANCE ≤ t.money a p .BALANCE := by
  refine foldlM_invariant (I := fun _ u => (sparing a).rel s u) ((sparing a).refl s) ?_ hlater p
  intro earlier event later u u' hsplit hearlier hle hstep
  have hwhole : run env s₀ (before ++ earlier) = some u := by
    unfold run at hrun ⊢
    rw [List.foldlM_append, hrun]
    exact hearlier
  have hbook : u.BookOk :=
    ((runSuits_any.sound hstart (List.append_nil _).symm hwhole).sound 0 False.elim 0).book
  have hkeeps : Keeps ((sparing a).rel u) (event.exec env) u :=
    wp_mono (spares_exec hbook (hnot event (by simp [hsplit]))) (fun _ _ h => h.1) fun _ _ h => h.1
  exact (sparing a).trans hle (hkeeps.step hstep)

/-- The issuer goes on, and accepts expire. -/
def laterEvents : List Event := [
  samplePacket 50003 0 "issuer".toList "holder".toList (createPayloadSimpleSend 3 20),
  samplePacket 50004 0 "issuer".toList "other".toList (createPayloadSendAll 1), .expireAccepts 50005]

theorem run_balance_le_unless_sent_holder :
    ∃ s t, run sampleEnv (State.empty sampleEnv mainConsensusParams) issuedEvents = some s ∧
      run sampleEnv s laterEvents = some t ∧ s.money "holder".toList 3 .BALANCE = 30 ∧
      30 ≤ t.money "holder".toList 3 .BALANCE := by
  obtain ⟨s, hrun⟩ := Option.isSome_iff_exists.mp (by decide +kernel :
    (run sampleEnv (State.empty sampleEnv mainConsensusParams) issuedEvents).isSome = true)
  have hvalues : (run sampleEnv (State.empty sampleEnv mainConsensusParams) issuedEvents).map
      (fun s => (s.money "holder".toList 3 .BALANCE, (run sampleEnv s laterEvents).isSome)) =
      some (30, true) := by decide +kernel
  simp only [hrun, Option.map_some, Option.some.injEq, Prod.mk.injEq] at hvalues
  obtain ⟨t, hlater⟩ := Option.isSome_iff_exists.mp hvalues.2
  have hle := run_balance_le_unless_sent (a := "holder".toList) (genesis_empty _ _) hrun hlater
    (by decide +kernel) 3
  rw [hvalues.1] at hle
  exact ⟨s, t, hrun, hlater, hvalues.1, hle⟩

end HcOmni
