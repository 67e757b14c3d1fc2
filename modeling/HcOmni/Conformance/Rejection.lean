import HcOmni.Conformance.System

/-!
# Rejected transactions

A transaction is rejected by an early return or by a code other than zero at the end.  The logic of every
type first checks and then changes the state, and the second part does not return early, so a
rejected transaction leaves nothing behind.  The exceptions are the token exchange, which inserts
an order after matching it, and the update of an offer of the classic exchange, which first
destroys the old one.
-/

namespace HcOmni

open Std MapSum Program CMPTally State

variable {c : Ctx} {s s' : State} {env : Env} {tx : CMPTransaction}

/-! ### Programs that do not return early -/

/-- The failure is an early return. -/
def Halt.Returns (e : Halt) : Prop := ∃ rc, e = .ret rc

theorem CalcError.not_returns {zero : Prop} {e : Halt} (h : CalcError zero e) : ¬e.Returns := by
  rintro ⟨rc, rfl⟩
  rcases h with h | ⟨-, h⟩ <;> cases h

/-- `m` runs to its last statement, unless the process ends or an exception is thrown. -/
abbrev Straight {α : Type} (m : Op α) : Prop := Avoids m (fun _ => True) Halt.Returns

namespace Straight

variable {α β : Type}

theorem seq {m : Op α} {f : α → Op β} (hm : Straight m) (hf : ∀ a, Straight (f a)) :
    Straight (m >>= f) :=
  Avoids.bind hm fun a _ => hf a

theorem pure {a : α} : Straight (pure a) := Avoids.pure trivial

theorem get : Straight get := Avoids.get

theorem set (s : State) : Straight (set s) := Avoids.set s

theorem modify (f : State → State) : Straight (modify f) := Avoids.modify f

theorem done : Avoids (Pure.pure 0 : Op Int) (· = 0) Halt.Returns := Avoids.pure rfl

theorem of_calc {zero : Prop} {P : α → Prop} {m : Op α}
    (hm : ∀ s, Reads m P (CalcError zero) s) : Straight m :=
  Avoids.of_reads (fun s => (hm s).mono fun _ _ => trivial) fun _ he => he.not_returns

theorem callRc (m : Op Int) : Straight (callRc m) := by
  intro s
  cases hm : m s with
  | ok rc s' => exact (wp_ok (callRc_of_ok hm)).mpr trivial
  | error e s' =>
    unfold HcOmni.callRc wp
    cases e with
    | ret rc => simp [hm]
    | thrown | abort | crash | hang => simp [hm, Halt.Returns]

theorem assertThat {what : Assertion} {cond : Bool} : Straight (assertThat what cond) :=
  Avoids.ite (fun _ => Straight.pure) fun _ => Avoids.throw (by rintro ⟨_, h⟩; cases h)

theorem record {entry : DbRecord} : Straight (record entry) := Straight.modify _

end Straight

/-! ### Tallies and fees -/

section Tallies

variable {a : Address} {p : PropertyId} {n block : Int} {t : TallyType}

theorem straight_updateTallyMap : Straight (updateTallyMap a p n t) :=
  Avoids.ite (fun _ => Straight.pure) fun _ => Straight.get.seq fun _ =>
    Straight.assertThat.seq fun _ => (Straight.set _).seq fun _ => Straight.pure

theorem straight_assertUpdateTallyMap : Straight (assertUpdateTallyMap a p n t) :=
  straight_updateTallyMap.seq fun _ => Straight.assertThat

theorem straight_assertCredit : Straight (assertCredit a p n) :=
  Avoids.ite (fun _ => straight_assertUpdateTallyMap) fun _ => Straight.pure

theorem reads_receiversOf {amount : Int} :
    Reads (stoGetReceivers a p amount) (fun _ => True) (CalcError True) s := by
  refine .get (.bind ((reads_splitAmount _ 0).mono_error ?_) fun _ _ => .pure trivial)
  intro e he
  exact he.imp_right fun h => ⟨trivial, h.2⟩

theorem straight_distributeCache : Straight (distributeCache env p block) := by
  unfold distributeCache
  refine Straight.get.seq fun s => (Straight.of_calc fun _ => reads_receiversOf).seq fun _ => ?_
  refine Straight.seq (Avoids.forM (fun _ => straight_assertUpdateTallyMap) _) fun _ => ?_
  exact Straight.record.seq fun _ => Straight.assertThat.seq fun _ =>
    (Straight.modify _).seq fun _ => Straight.modify _

theorem straight_evalCache : Straight (evalCache env p block) :=
  Straight.get.seq fun _ => Avoids.ite (fun _ => straight_distributeCache) fun _ =>
    Straight.pure

theorem straight_addFee : Straight (addFee env p block n) :=
  (Straight.modify _).seq fun _ => (Straight.modify _).seq fun _ => straight_evalCache

theorem straight_notifyTotalTokensChanged : Straight (notifyTotalTokensChanged env p block) :=
  (Straight.modify _).seq fun _ => straight_evalCache

theorem straight_payTransferFee {fee : Int} : Straight (payTransferFee env tx p fee) :=
  straight_assertUpdateTallyMap.seq fun _ =>
    Avoids.ite (fun _ => Straight.pure) fun _ => straight_addFee

theorem straight_sendToReceivers {receivers : List (Int × Address)} :
    Straight (sendToReceivers tx receivers) :=
  Avoids.forM (fun _ => straight_assertUpdateTallyMap.seq fun _ =>
    straight_assertUpdateTallyMap.seq fun _ => Straight.record) _

end Tallies

/-! ### Properties -/

theorem straight_assertUpdateSP {p : PropertyId} {sp : Entry} : Straight (assertUpdateSP p sp) :=
  Straight.get.seq fun _ => Straight.assertThat.seq fun _ => Straight.set _

theorem straight_putNewProperty {ecosystem : Nat} {info : Entry} :
    Straight (putNewProperty ecosystem info) :=
  Straight.get.seq fun _ => (Straight.set _).seq fun _ => Straight.assertThat.seq fun _ =>
    Straight.pure

theorem straight_closeCrowdsale {a : Address} {p : PropertyId} {sp : Entry} :
    Straight (closeCrowdsale a p sp) :=
  straight_assertUpdateSP.seq fun _ => straight_assertCredit.seq fun _ => Straight.modify _

/-! ### The token exchange -/

section Matching

variable {price : ℚ} {pnew pold order : CMPMetaDEx}

theorem reads_amountsOf : Reads (matchAmounts pnew pold) (fun _ => True) (CalcError True) s :=
  reads_matchAmounts.mono fun _ _ => trivial

theorem straight_executeTrade {got paid : Int} :
    Straight (executeTrade env price pnew pold got paid) := by
  have hfee : Straight (tradingFeeOf env pnew pold got) :=
    Straight.get.seq fun _ => Avoids.ite
      (fun _ => straight_addFee.seq fun _ => Straight.pure) fun _ => Straight.pure
  unfold executeTrade
  refine Straight.assertThat.seq fun _ => Straight.assertThat.seq fun _ => hfee.seq fun _ => ?_
  refine straight_assertUpdateTallyMap.seq fun _ => straight_assertUpdateTallyMap.seq fun _ =>
    straight_assertUpdateTallyMap.seq fun _ => straight_assertUpdateTallyMap.seq fun _ => ?_
  refine Straight.record.seq fun _ => (Straight.modify _).seq fun _ => ?_
  exact Avoids.ite (fun _ => (Straight.modify _).seq fun _ => Straight.pure) fun _ => Straight.pure

theorem straight_xTradeOrder : Straight (xTradeOrder env price pnew pold) := by
  unfold xTradeOrder
  refine Straight.assertThat.seq fun _ => Avoids.ite (fun _ => Straight.pure) fun _ => ?_
  refine Straight.assertThat.seq fun _ => Straight.assertThat.seq fun _ =>
    Straight.assertThat.seq fun _ => Straight.assertThat.seq fun _ =>
      Straight.assertThat.seq fun _ => Straight.assertThat.seq fun _ => ?_
  refine (Straight.of_calc fun _ => reads_amountsOf).seq fun amounts => ?_
  cases amounts with
  | none => exact Straight.pure
  | some amounts => exact straight_executeTrade.seq fun _ => Straight.pure

theorem straight_xTradeLevel :
    ∀ (orders : List CMPMetaDEx) (pnew : CMPMetaDEx), Straight (xTradeLevel env price pnew orders)
  | [], _ => Straight.pure
  | _ :: rest, _ => straight_xTradeOrder.seq fun _ =>
    Avoids.ite (fun _ => Straight.pure) fun _ => straight_xTradeLevel rest _

theorem straight_xTradePrices :
    ∀ (levels : List (ℚ × MdSet)) (pnew : CMPMetaDEx), Straight (xTradePrices env pnew levels)
  | [], _ => Straight.pure
  | _ :: rest, _ => Avoids.ite (fun _ => straight_xTradePrices rest _) fun _ =>
    (straight_xTradeLevel _ _).seq fun _ =>
      Avoids.ite (fun _ => Straight.pure) fun _ => straight_xTradePrices rest _

theorem straight_removeOrder {note : CMPMetaDEx → Op Unit} {p : PropertyId}
    (hnote : ∀ order, Straight (note order)) : Straight (removeOrder note p price order) :=
  straight_assertUpdateTallyMap.seq fun _ => straight_assertUpdateTallyMap.seq fun _ =>
    (hnote order).seq fun _ => Straight.modify _

end Matching

/-! ### What a rejection leaves behind -/

/-- Everything is as before; only the records of new orders may have grown. -/
def Unchanged (s s' : State) : Prop := ∃ records, s' = { s with aux.records := records }

theorem Unchanged.refl (s : State) : Unchanged s s := ⟨s.aux.records, rfl⟩

/-- If `m` is rejected, nothing has changed. -/
def Atomic (m : Op Int) (s : State) : Prop :=
  wp m (fun rc s' => rc ≠ 0 → Unchanged s s') (fun e s' => e.Returns → Unchanged s s') s

namespace Atomic

variable {α : Type} {P : α → Prop}

theorem reads {E : Halt → Prop} {m : Op α} {f : α → Op Int} (hm : Reads m P E s)
    (hf : ∀ a, P a → Atomic (f a) s) : Atomic (m >>= f) s :=
  hm.wp_bind hf fun _ _ _ => Unchanged.refl s

theorem get {f : State → Op Int} (h : Atomic (f s) s) : Atomic (get >>= f) s := h

theorem ret {rc : Int} : Atomic (throw (.ret rc)) s := fun _ => Unchanged.refl s

theorem pure {rc : Int} : Atomic (pure rc) s := fun _ => Unchanged.refl s

/-- A part that changes the state, but neither returns early nor with another code than that of
success. -/
theorem of_avoids {m : Op Int} (h : Avoids m (· = 0) Halt.Returns) : Atomic m s :=
  wp_mono (h s) (fun _ _ hrc hne => absurd hrc hne) fun _ _ he hret => absurd hret he

theorem straight {m : Op α} (h : Straight m) : Atomic (m >>= fun _ => Pure.pure 0) s :=
  of_avoids (h.bind fun _ _ => Straight.done)

theorem ite {cond : Prop} [Decidable cond] {m m' : Op Int} (ht : cond → Atomic m s)
    (hf : ¬cond → Atomic m' s) : Atomic (if cond then m else m') s := by
  by_cases h : cond
  · rw [if_pos h]
    exact ht h
  · rw [if_neg h]
    exact hf h

end Atomic

/-! ### Sending -/

theorem atomic_logicMathSimpleSend : Atomic (logicMathSimpleSend env tx) s := by
  refine Atomic.get (.reads reads_rejectIf fun _ _ => .reads reads_rejectIf fun _ _ =>
    .reads reads_rejectIf fun _ _ => .reads reads_rejectIf fun _ _ => .of_avoids ?_)
  refine straight_assertUpdateTallyMap.bind fun _ _ => straight_assertUpdateTallyMap.bind fun _ _ => ?_
  exact (Straight.callRc _).bind fun _ _ => Straight.done

theorem atomic_logicMathSendToOwners : Atomic (logicMathSendToOwners env tx) s := by
  refine Atomic.get (.reads reads_rejectIf fun _ _ => .reads reads_rejectIf fun _ _ =>
    .reads reads_rejectIf fun _ _ => .reads reads_rejectIf fun _ _ =>
      .reads reads_rejectIf fun _ _ => .reads reads_receiversOf fun _ _ => ?_)
  refine .reads reads_rejectIf fun _ _ => .reads reads_rejectIf fun _ _ =>
    .reads reads_rejectIf fun _ _ => .of_avoids ?_
  refine straight_payTransferFee.bind fun _ _ => straight_sendToReceivers.bind fun _ _ =>
    Straight.assertThat.bind fun _ _ => ?_
  exact Avoids.ite (fun _ => straight_notifyTotalTokensChanged.bind fun _ _ => Straight.done)
    fun _ => Straight.done

theorem wp_sendAllProperties (properties : List PropertyId) (sent : Nat) :
    wp (sendAllProperties tx properties sent) (fun n s' => sent ≤ n ∧ (n = sent → s' = s))
      (fun e _ => ¬e.Returns) s := by
  induction properties generalizing sent s with
  | nil => exact ⟨le_rfl, fun _ => rfl⟩
  | cons p rest ih =>
    unfold sendAllProperties
    rw [wp_bind, wp_get]
    simp only [wp_ite]
    refine ⟨fun _ => ih sent, fun _ => ⟨fun _ => ih sent, fun _ => ⟨fun _ => ih sent,
      fun _ => ⟨fun _ => ?_, fun _ => ih sent⟩⟩⟩⟩
    simp only [wp_bind]
    refine wp_mono (straight_assertUpdateTallyMap s) (fun _ s₁ _ => ?_) fun _ _ h => h
    refine wp_mono (straight_assertUpdateTallyMap s₁) (fun _ s₂ _ => ?_) fun _ _ h => h
    refine wp_mono (Straight.record s₂) (fun _ s₃ _ => ?_) fun _ _ h => h
    refine wp_mono (ih (s := s₃) (sent + 1)) (fun n s' h => ?_) fun _ _ h => h
    exact ⟨by omega, fun heq => by omega⟩

theorem atomic_logicMathSendAll : Atomic (logicMathSendAll tx) s := by
  refine Atomic.get (.reads reads_rejectIf fun _ _ => ?_)
  cases s.mpTallyMap[tx.sender]? with
  | none => exact Atomic.ret
  | some tally =>
    unfold Atomic
    rw [wp_bind]
    refine wp_mono (wp_sendAllProperties _ 0) (fun n s' h => ?_) fun _ _ he hret => absurd hret he
    cases n with
    | zero =>
      cases h.2 rfl
      exact fun _ => Unchanged.refl s
    | succ n => exact fun hne => absurd rfl hne

/-! ### The exchanges -/

theorem atomic_logicMathAcceptOfferBTC : Atomic (logicMathAcceptOfferBTC tx) s := by
  unfold logicMathAcceptOfferBTC dexAcceptCreate
  refine Atomic.get (.reads reads_rejectIf fun _ _ => .reads reads_rejectIf fun _ _ => ?_)
  rw [bind_assoc]
  refine Atomic.get ?_
  cases s.dexGetOffer tx.receiver tx.property with
  | none => exact Atomic.ret
  | some offer =>
    simp only [bind_assoc]
    refine .reads reads_rejectIf fun _ _ => .reads reads_rejectIf fun _ _ => ?_
    rw [apply_ite (· >>= fun accepted : Int × Option Int => (pure accepted.1 : Op Int))]
    refine Atomic.ite (fun _ => .of_avoids ?_) fun _ => Atomic.pure
    simp only [bind_assoc, pure_bind]
    exact straight_assertUpdateTallyMap.bind fun _ _ => straight_assertUpdateTallyMap.bind
      fun _ _ => (Straight.modify _).bind fun _ _ => Straight.done

theorem atomic_removeOrders {select : PropertyId × ℚ × CMPMetaDEx → Bool}
    {note : CMPMetaDEx → Op Unit} {rc : Int} (hnote : ∀ order, Straight (note order)) :
    Atomic (removeOrders select note rc) s := by
  refine Atomic.get ?_
  cases s.bookOrders.filter select with
  | nil => exact Atomic.pure
  | cons entry rest => exact Atomic.straight (Avoids.forM (fun _ => straight_removeOrder hnote) _)

theorem wp_xTrade_room {pnew : CMPMetaDEx} (h : Trading c pnew pnew s) (hbook : s.BookFrom c.Place)
    (hfree : ¬c.Place pnew.block pnew.idx) :
    wp (xTrade env pnew)
      (fun traded s' => (s'.mdSet traded.property traded.unitPrice)[traded.key]? = none)
      (fun e _ => ¬e.Returns) s := by
  have hstraight : Straight (xTrade env pnew) := Straight.get.seq fun _ => straight_xTradePrices _ _
  refine wp_mono (wp_and (conforms_xTrade h) (hstraight s)) ?_ fun _ _ he => he.2
  rintro traded s' ⟨⟨hsteps, htrading⟩, -⟩
  have hbook' : s'.BookFrom c.Place := by
    clear htrading
    induction hsteps with
    | refl => exact hbook
    | tail _ hstep ih => exact ih.step hstep
  rw [Option.eq_none_iff_forall_ne_some]
  intro order hstored
  -- an order in the way would have the block and the index of the new one
  have hkey := (htrading.sound.book _ _ _ _ hstored).key_eq
  have hplace := hbook' _ _ _ _ hstored
  obtain ⟨hblock, hidx⟩ := Prod.mk.inj (show (order.block, order.idx) = (traded.block, traded.idx)
    from hkey)
  rw [hblock, hidx, htrading.same] at hplace
  exact hfree hplace

theorem atomic_metaDExAdd {a : Address} {p desired : PropertyId} {n block nDesired : Int}
    {txid : Hash} {idx : Nat} (hs : Sound c s) (hbook : s.BookFrom c.Place) (hblock : block = c.block)
    (hfrozen : s.isAddressFrozen a p = false) (hloose : ¬c.Strict) (hfree : ¬c.Place block idx) :
    Atomic (metaDExAdd env a p n block desired nDesired txid idx) s := by
  unfold metaDExAdd
  refine .reads reads_rejectIf fun _ _ => ?_
  unfold Atomic
  rw [wp_bind]
  refine wp_mono (wp_xTrade_room ⟨hs, rfl, hblock, hfrozen, fun h => absurd h hloose,
    fun h => absurd h hloose, le_rfl⟩ hbook hfree) (fun traded s' hroom => ?_)
    fun _ _ he hret => absurd hret he
  rw [wp_ite]
  refine ⟨fun _ => ?_, fun _ hne => absurd rfl hne⟩
  unfold metaDExInsert
  simp only [wp_bind, wp_get, wp_ite, wp_pure, wp_set, hroom]
  refine ⟨fun h => (by cases h), fun _ => ?_⟩
  change wp (assertUpdateTallyMap a p (-traded.amountRemaining) .BALANCE) _ _ _
  refine wp_mono (straight_assertUpdateTallyMap _) (fun _ s₁ _ => ?_) fun _ _ he hret => absurd hret he
  exact wp_mono (straight_assertUpdateTallyMap s₁) (fun _ s₂ _ hne => absurd rfl hne)
    fun _ _ he hret => absurd hret he

theorem atomic_logicMathMetaDExCancelPrice : Atomic (logicMathMetaDExCancelPrice tx) s :=
  .reads reads_checkTradingPair fun _ _ => .reads reads_checkOrderAmounts fun _ _ =>
    .get (.reads reads_rejectIf fun _ _ => atomic_removeOrders fun _ => Straight.record)

theorem atomic_logicMathMetaDExCancelPair : Atomic (logicMathMetaDExCancelPair tx) s :=
  .reads reads_checkTradingPair fun _ _ =>
    .get (.reads reads_rejectIf fun _ _ => atomic_removeOrders fun _ => Straight.record)

theorem atomic_logicMathMetaDExCancelEcosystem : Atomic (logicMathMetaDExCancelEcosystem tx) s :=
  .get (.reads reads_rejectIf fun _ _ => .reads reads_rejectIf fun _ _ =>
    atomic_removeOrders fun _ => Straight.record)

/-! ### Properties -/

theorem atomic_logicMathCreatePropertyFixed : Atomic (logicMathCreatePropertyFixed env tx) s := by
  refine Atomic.get (.reads reads_rejectIf fun _ _ => .reads reads_rejectIf fun _ _ =>
    .reads reads_rejectIf fun _ _ => .reads reads_rejectIf fun _ _ =>
      .reads reads_rejectIf fun _ _ => .of_avoids ?_)
  exact straight_putNewProperty.bind fun _ _ => straight_assertUpdateTallyMap.bind fun _ _ =>
    straight_notifyTotalTokensChanged.bind fun _ _ => Straight.done

theorem atomic_logicMathCreatePropertyVariable : Atomic (logicMathCreatePropertyVariable tx) s := by
  refine Atomic.get (.reads reads_rejectIf fun _ _ => .reads reads_rejectIf fun _ _ =>
    .reads reads_rejectIf fun _ _ => .reads reads_rejectIf fun _ _ => ?_)
  refine .reads reads_rejectIf fun _ _ => .reads reads_rejectIf fun _ _ =>
    .reads reads_rejectIf fun _ _ => .reads reads_rejectIf fun _ _ =>
      .reads reads_rejectIf fun _ _ => .of_avoids ?_
  exact straight_putNewProperty.bind fun _ _ => (Straight.modify _).bind fun _ _ => Straight.done

theorem atomic_logicMathCreatePropertyManaged : Atomic (logicMathCreatePropertyManaged tx) s :=
  .get (.reads reads_rejectIf fun _ _ => .reads reads_rejectIf fun _ _ =>
    .reads reads_rejectIf fun _ _ => .reads reads_rejectIf fun _ _ =>
      .straight straight_putNewProperty)

theorem atomic_logicMathCloseCrowdsale : Atomic (logicMathCloseCrowdsale tx) s := by
  refine Atomic.get (.reads reads_rejectIf fun _ _ => .reads reads_rejectIf fun _ _ => ?_)
  cases s.myCrowds[tx.sender]? with
  | none => exact Atomic.ret
  | some crowd =>
    exact .reads reads_rejectIf fun _ _ => .reads reads_assertGetSP fun _ _ =>
      .reads reads_getMissedIssuerBonus fun _ _ => .straight straight_closeCrowdsale

theorem atomic_logicMathGrantTokens : Atomic (logicMathGrantTokens env tx) s := by
  refine Atomic.get (.reads reads_rejectIf fun _ _ => .reads reads_rejectIf fun _ _ =>
    .reads reads_rejectIf fun _ _ => .reads reads_assertGetSP fun _ _ => ?_)
  refine .reads reads_rejectIf fun _ _ => .reads reads_rejectIf fun _ _ =>
    .reads reads_rejectIf fun _ _ => .of_avoids ?_
  refine straight_assertUpdateSP.bind fun _ _ => straight_assertUpdateTallyMap.bind fun _ _ => ?_
  refine Avoids.ite (fun _ => ?_) fun _ => (Straight.callRc _).bind fun _ _ => ?_
  · exact straight_notifyTotalTokensChanged.bind fun _ _ => Straight.done
  · exact straight_notifyTotalTokensChanged.bind fun _ _ => Straight.done

theorem atomic_logicMathRevokeTokens : Atomic (logicMathRevokeTokens env tx) s := by
  refine Atomic.get (.reads reads_rejectIf fun _ _ => .reads reads_rejectIf fun _ _ =>
    .reads reads_rejectIf fun _ _ => .reads reads_assertGetSP fun _ _ => ?_)
  refine .reads reads_rejectIf fun _ _ => .reads reads_rejectIf fun _ _ => .of_avoids ?_
  exact straight_assertUpdateTallyMap.bind fun _ _ => straight_assertUpdateSP.bind fun _ _ =>
    straight_notifyTotalTokensChanged.bind fun _ _ => Straight.done

theorem atomic_logicMathChangeIssuer : Atomic (logicMathChangeIssuer tx) s := by
  refine Atomic.get (.reads reads_rejectIf fun _ _ => .reads reads_rejectIf fun _ _ =>
    .reads reads_assertGetSP fun _ _ => .reads reads_rejectIf fun _ _ => ?_)
  exact .reads reads_rejectIf fun _ _ => .reads reads_rejectIf fun _ _ =>
    .reads reads_rejectIf fun _ _ => .straight straight_assertUpdateSP

/-! ### Freezing, activations and alerts -/

theorem atomic_logicMathEnableFreezing : Atomic (logicMathEnableFreezing tx) s :=
  .reads reads_checkManagedIssuer fun _ _ => .get (.reads reads_rejectIf fun _ _ =>
    .straight (Straight.set _))

theorem atomic_logicMathDisableFreezing : Atomic (logicMathDisableFreezing tx) s :=
  .reads reads_checkManagedIssuer fun _ _ => .get (.reads reads_rejectIf fun _ _ =>
    .of_avoids (Straight.assertThat.bind fun _ _ => (Straight.set _).bind fun _ _ => Straight.done))

theorem atomic_logicMathFreezeTokens : Atomic (logicMathFreezeTokens tx) s :=
  .reads reads_checkManagedIssuer fun _ _ => .get (.reads reads_rejectIf fun _ _ =>
    .reads reads_rejectIf fun _ _ => .straight (Straight.set _))

theorem atomic_logicMathUnfreezeTokens : Atomic (logicMathUnfreezeTokens tx) s :=
  .reads reads_checkManagedIssuer fun _ _ => .get (.reads reads_rejectIf fun _ _ =>
    .reads reads_rejectIf fun _ _ => .straight (Straight.set _))

theorem atomic_logicMathActivation : Atomic (logicMathActivation env tx) s := by
  refine Atomic.get (.reads reads_rejectIf fun _ _ => .reads reads_rejectIf fun _ _ => ?_)
  cases s.aux.activateFeature tx.featureId (toInt32 tx.activationBlock) tx.minClientVersion
      tx.block with
  | none => exact Atomic.ret
  | some aux => exact .straight (Straight.set _)

theorem atomic_logicMathDeactivation : Atomic (logicMathDeactivation env tx) s := by
  have hquiet : ∀ order : CMPMetaDEx, Straight ((fun _ => pure ()) order : Op Unit) :=
    fun _ => Straight.pure
  refine Atomic.get (.reads reads_rejectIf fun _ _ => .reads reads_rejectIf fun _ _ => ?_)
  cases s.aux.deactivateFeature tx.featureId tx.block with
  | none => exact Atomic.ret
  | some aux =>
    refine .of_avoids ((Straight.set _).bind fun _ _ => Avoids.ite (fun _ => ?_) fun _ =>
      Avoids.ite (fun _ => ?_) fun _ => Straight.done)
    · refine Avoids.bind (P := fun _ => True) (Straight.get.seq fun _ => ?_) fun _ _ => Straight.done
      exact Straight.seq (Avoids.forM (fun _ => straight_removeOrder hquiet) _) fun _ =>
        Straight.pure
    · refine Avoids.bind (P := fun _ => True) (Straight.get.seq fun _ => ?_) fun _ _ => Straight.done
      refine Straight.seq (Avoids.forM (fun _ => ?_) _) fun _ => Straight.pure
      exact Avoids.ite (fun _ => straight_removeOrder hquiet) fun _ => Avoids.throw (by rintro ⟨_, h⟩; cases h)

theorem atomic_logicMathAlert : Atomic (logicMathAlert env tx) s :=
  .get (.reads reads_rejectIf fun _ _ => .reads reads_rejectIf fun _ _ =>
    .ite (fun _ => .straight (Straight.set _)) fun _ => .straight (Straight.set _))

theorem atomic_logicMathSendAgreement : Atomic (logicMathSendAgreement tx) s :=
  .straight Straight.record

/-! ### The interpreter -/

/-- What is needed for an order: the book can be followed, and has none from its place. -/
structure RoomFor (c : Ctx) (tx : CMPTransaction) (s : State) : Prop where
  sound : Sound c s
  book : s.BookFrom c.Place
  block : tx.block = c.block
  loose : ¬c.Strict
  free : ¬c.Place tx.block tx.txIdx

theorem atomic_logicMathMetaDExTrade (h : RoomFor c tx s)
    (hfrozen : s.isAddressFrozen tx.sender tx.property = false) :
    Atomic (logicMathMetaDExTrade env tx) s := by
  refine .reads reads_checkTradingPair fun _ _ => .reads reads_checkOrderAmounts fun _ _ =>
    .get (.reads reads_rejectIf fun _ _ => .reads reads_rejectIf fun _ _ => ?_)
  unfold Atomic
  rw [wp_bind, wp_record]
  have hadd : Atomic (metaDExAdd env tx.sender tx.property tx.nNewValue tx.block tx.desiredProperty
      tx.desiredValue tx.txid tx.txIdx) { s with aux.records := s.aux.records ++ [.newTrade tx.txid
        tx.sender tx.property tx.desiredProperty tx.block tx.txIdx] } :=
    atomic_metaDExAdd (h.sound.setAux rfl) (h.book.congr rfl) h.block hfrozen h.loose h.free
  refine wp_mono hadd (fun rc s' hsame hne => ?_) fun e s' hsame hret => ?_
  · obtain ⟨records, rfl⟩ := hsame hne
    exact ⟨records, rfl⟩
  · obtain ⟨records, rfl⟩ := hsame hret
    exact ⟨records, rfl⟩

theorem Atomic.branch {cond : Prop} [Decidable cond] {m m' : Op Int} (hm : cond → Atomic m s)
    (hm' : Atomic m' s) : Atomic (if cond then m else m') s :=
  .ite hm fun _ => hm'

/-- **Rejections leave nothing behind**, whatever the type, except the offers of the classic
exchange. -/
theorem atomic_logicMath (h : RoomFor c tx s)
    (hfrozen : s.isAddressFrozen tx.sender tx.property = false)
    (htype : tx.type ≠ MSC_TYPE_TRADE_OFFER) : Atomic (logicMath env tx) s := by
  unfold logicMath
  refine .branch (fun _ => atomic_logicMathSimpleSend) ?_
  refine .branch (fun _ => atomic_logicMathSendToOwners) ?_
  refine .branch (fun _ => atomic_logicMathSendAll) ?_
  refine .branch (fun hoffer => absurd hoffer htype) ?_
  refine .branch (fun _ => atomic_logicMathAcceptOfferBTC) ?_
  refine .branch (fun _ => atomic_logicMathMetaDExTrade h hfrozen) ?_
  refine .branch (fun _ => atomic_logicMathMetaDExCancelPrice) ?_
  refine .branch (fun _ => atomic_logicMathMetaDExCancelPair) ?_
  refine .branch (fun _ => atomic_logicMathMetaDExCancelEcosystem) ?_
  refine .branch (fun _ => atomic_logicMathCreatePropertyFixed) ?_
  refine .branch (fun _ => atomic_logicMathCreatePropertyVariable) ?_
  refine .branch (fun _ => atomic_logicMathCloseCrowdsale) ?_
  refine .branch (fun _ => atomic_logicMathCreatePropertyManaged) ?_
  refine .branch (fun _ => atomic_logicMathGrantTokens) ?_
  refine .branch (fun _ => atomic_logicMathRevokeTokens) ?_
  refine .branch (fun _ => atomic_logicMathChangeIssuer) ?_
  refine .branch (fun _ => atomic_logicMathEnableFreezing) ?_
  refine .branch (fun _ => atomic_logicMathDisableFreezing) ?_
  refine .branch (fun _ => atomic_logicMathFreezeTokens) ?_
  refine .branch (fun _ => atomic_logicMathUnfreezeTokens) ?_
  refine .branch (fun _ => atomic_logicMathDeactivation) ?_
  refine .branch (fun _ => atomic_logicMathActivation) ?_
  refine .branch (fun _ => atomic_logicMathAlert) ?_
  exact .branch (fun _ => atomic_logicMathSendAgreement) Atomic.pure

theorem atomic_interpretPacket (hlogic : ∀ parsed, tx.interpretTransaction = some parsed →
      s.isAddressFrozen parsed.sender parsed.property = false → Atomic (logicMath env parsed) s) :
    Atomic (interpretPacket env tx) s := by
  unfold interpretPacket
  refine .reads reads_rejectIf fun _ _ => ?_
  cases hparse : tx.interpretTransaction with
  | none => exact Atomic.ret
  | some parsed =>
    have hdecode : Reads (decodeAgreement env parsed) (fun _ => True) (fun _ => True) s := by
      refine .ite (fun _ => ?_) fun _ => .pure trivial
      cases env.decodeAgreement parsed.pkt with
      | decoded => exact .pure trivial
      | thrown => exact .throw trivial
      | crashed => exact .throw trivial
    exact .reads hdecode fun _ _ => .get (.reads reads_rejectIf fun _ hfrozen =>
      hlogic parsed hparse hfrozen)

theorem RoomFor.parsed {parsed : CMPTransaction} (h : RoomFor c tx s)
    (hparse : tx.interpretTransaction = some parsed) : RoomFor c parsed s := by
  have hfrom := parsedFrom_of_interpretTransaction hparse
  refine ⟨h.sound, h.book, hfrom.block.trans h.block, h.loose, ?_⟩
  rw [hfrom.block, hfrom.idx]
  exact h.free

end HcOmni
