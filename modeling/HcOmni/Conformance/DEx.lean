import HcOmni.Conformance.Basic

/-!
# The classic exchange takes only steps
-/

namespace HcOmni

open Std MapSum Program CMPTally State

variable {c : Ctx} {s s' : State} {env : Env} {seller buyer : Address} {p : PropertyId}

/-! ### Sell offers -/

theorem Steps.offerCreate {n : Int} (offer : CMPOffer) (hp : p = 1 ∨ p = 2)
    (hown : offer.property = p ∧ offer.subaction = 0)
    (hmove : s.CanMove p n seller .BALANCE seller .SELLOFFER_RESERVE)
    (hfrozen : s.isAddressFrozen seller p = false) :
    Steps c s { s.move p n seller .BALANCE seller .SELLOFFER_RESERVE with
      myOffers := s.myOffers.insert (sellofferKey seller p) offer } := by
  refine .tail (.single (.offerPut seller p offer hp hown)) ?_
  exact Step.offerReserve (s := { s with myOffers := s.myOffers.insert _ offer })
    ⟨hmove.pos, hmove.enough, hmove.room⟩ hfrozen (by simp [dexGetOffer])

theorem conforms_dexOfferCreate {offered block desired minFee : Int} {window : Nat} {txid : Hash}
    (hs : Sound c s) (hp : p = 1 ∨ p = 2) (hfrozen : s.isAddressFrozen seller p = false) :
    Conforms c.contract
      (dexOfferCreate env seller p offered block desired minFee window txid) (fun _ _ => True) s := by
  unfold dexOfferCreate
  refine conforms_rejectIf fun _ => conforms_rejectIf fun _ => Conforms.get ?_
  refine conforms_rejectIf fun hnone => conforms_rejectIf fun _ => ?_
  refine Conforms.ite (fun hpos => ?_) fun _ => Conforms.pure trivial
  have hnone : s.dexGetOffer seller p = none := by simpa using hnone
  rw [conforms_iff]
  simp only [wp_bind, wp_modify, wp_pure]
  refine wp_move (by decide) (by decide) (Int.le_of_lt hpos) (fun _ => hfrozen) (fun hstrict => ?_)
    fun hmove => ⟨?_, trivial⟩
  · refine ⟨hs.range, hs.canMove hstrict (by decide) (by decide) hpos ?_⟩
    change _ ≤ s.getTokenBalance seller p .BALANCE
    split <;> omega
  · rw [insertIfNew_of_none (by exact hnone)]
    exact Steps.offerCreate _ hp ⟨rfl, rfl⟩ hmove hfrozen

theorem conforms_dexOfferDestroy (hs : Sound c s) :
    Conforms c.contract (dexOfferDestroy seller p) (fun _ _ => True) s := by
  unfold dexOfferDestroy
  refine Conforms.get (conforms_rejectIf fun _ => ?_)
  have hmoney : s.getTokenBalance seller p .SELLOFFER_RESERVE =
      s.money seller p .SELLOFFER_RESERVE := rfl
  rw [hmoney, conforms_iff]
  simp only [wp_bind, wp_ite, wp_modify, wp_pure]
  refine ⟨fun hpos => ?_, fun hempty => ⟨.single (.offerErase seller p (by omega)), trivial⟩⟩
  refine wp_move (by decide) (by decide) (Int.le_of_lt hpos) (fun h => by cases h) (fun hstrict => ?_)
    fun hmove => ⟨?_, trivial⟩
  · exact ⟨hs.range, hs.canMove hstrict (by decide) (by decide) hpos le_rfl⟩
  · refine .tail (.single (.offerRelease hmove)) (.offerErase seller p ?_)
    rw [money_move]
    simp

theorem conforms_dexOfferUpdate {offered block desired minFee : Int} {window : Nat} {txid : Hash}
    (hs : Sound c s) (hp : p = 1 ∨ p = 2) (hfrozen : s.isAddressFrozen seller p = false) :
    Conforms c.contract
      (dexOfferUpdate env seller p offered block desired minFee window txid) (fun _ _ => True) s := by
  unfold dexOfferUpdate
  refine Conforms.get (conforms_rejectIf fun _ => ?_)
  refine Conforms.bind (conforms_callRc (conforms_dexOfferDestroy hs)) fun rc s' hsteps _ => ?_
  refine Conforms.ite (fun _ => ?_) fun _ => Conforms.pure trivial
  exact conforms_dexOfferCreate (Steps.sound hsteps hs) hp
    (by rw [Steps.isAddressFrozen hsteps]; exact hfrozen)

/-! ### Accepts -/

theorem conforms_dexAcceptCreate {accepted block feePaid : Int} (hs : Sound c s)
    (haddr : c.Addr buyer ∧ c.Addr seller) :
    Conforms c.contract (dexAcceptCreate buyer seller p accepted block feePaid)
      (fun _ _ => True) s := by
  unfold dexAcceptCreate
  refine Conforms.get ?_
  cases hoffer : s.dexGetOffer seller p with
  | none => exact Conforms.throw id
  | some offer =>
    refine conforms_rejectIf fun hnone => conforms_rejectIf fun _ => ?_
    refine Conforms.ite (fun hpos => ?_) fun _ => Conforms.pure trivial
    have hnone : s.dexGetAccept seller p buyer = none := by simpa using hnone
    rw [conforms_iff]
    simp only [wp_bind, wp_modify, wp_pure]
    refine wp_move (by decide) (by decide) (Int.le_of_lt hpos) (fun h => by cases h) (fun hstrict => ?_)
      fun hmove => ⟨?_, trivial⟩
    · refine ⟨hs.range, hs.canMove hstrict (by decide) (by decide) hpos ?_⟩
      change _ ≤ s.getTokenBalance seller p .SELLOFFER_RESERVE
      split <;> omega
    · rw [insertIfNew_of_none (by exact hnone)]
      exact .single (@Step.acceptOpen c s buyer seller p ⟨_, _, _, _, _, _, _, _⟩ haddr
        (by simp [hoffer]) hnone hmove fun offer' hoffer' => by
          rw [Option.some.inj (hoffer.symm.trans hoffer')])

/-! ### Payments -/

theorem reads_calculateDExPurchase {offered desired paid : Int} :
    Reads (calculateDExPurchase offered desired paid) (fun purchased => 0 ≤ purchased)
      (CalcError True) s :=
  .bind reads_convertTo256 fun _ _ => .bind reads_convertTo256 fun _ _ =>
    .bind reads_convertTo256 fun _ _ => .bind (reads_divideAndRoundUp fun _ => trivial) fun _ _ =>
      reads_convertTo64.mono fun r hr => by
        rw [hr.1]
        omega

theorem dexAcceptDestroy_of_empty {accepts : ExtTreeMap Str CMPAccept compare} {accept : CMPAccept}
    (haccepts : s.myAccepts = accepts.insert (acceptKey seller buyer p) accept)
    (hempty : accept.acceptAmountRemaining ≤ 0) :
    dexAcceptDestroy buyer seller p true s =
      .ok 0 { s with myAccepts := accepts.erase (acceptKey seller buyer p) } := by
  have hget : s.dexGetAccept seller p buyer = some accept := by simp [dexGetAccept, haccepts]
  have hnot : ¬accept.acceptAmountRemaining > 0 := by omega
  unfold dexAcceptDestroy
  simp [bind, EStateM.bind, get, getThe, MonadStateOf.get, EStateM.get, hget, hnot, pure,
    EStateM.pure, modify, modifyGet, MonadStateOf.modifyGet, EStateM.modifyGet, haccepts,
    erase_insert_self]

theorem reads_dexPurchase {accept : CMPAccept} {paid block : Int}
    (hfits : c.Fits → s.aux.params.isFeatureActivated FEATURE_DEXMATH block = false →
      0 ≤ env.legacyCalculateDExPurchase accept.offerAmountOriginal accept.btcDesiredOriginal paid) :
    Reads (dexPurchase env accept paid block) (fun purchased => c.Fits → 0 ≤ purchased)
      (CalcError True) s :=
  .get (.ite (fun _ => reads_calculateDExPurchase.mono fun _ h _ => h) fun hinactive =>
    .pure fun hf => hfits hf (Bool.eq_false_iff.mpr hinactive))

theorem conforms_dexSettle {txid : Hash} {vout : Nat} {accept : CMPAccept} {purchased block : Int}
    (hs : Sound c s) (hget : s.dexGetAccept seller p buyer = some accept)
    (hle : purchased ≤ accept.acceptAmountRemaining) (hfits : c.Fits → 0 ≤ purchased) :
    Conforms c.contract (dexSettle txid vout seller buyer p accept purchased block)
      (fun _ _ => True) s := by
  have hremaining := hs.accepts _ _ hget
  unfold dexSettle
  rw [conforms_iff]
  by_cases hpos : purchased > 0
  · rw [if_pos hpos]
    simp only [wp_bind, wp_modify]
    refine wp_move (by decide) (by decide) (Int.le_of_lt hpos) (fun h => by cases h) (fun hstrict => ?_)
      fun hmove => ?_
    · have := hs.remaining_le_accept hstrict hget
      exact ⟨hs.range, hs.canMove hstrict (by decide) (by decide) hpos (by omega)⟩
    rw [wp_record]
    by_cases hfull : purchased = accept.acceptAmountRemaining
    · -- paid in full: the accept is closed, and perhaps the offer
      subst hfull
      rw [if_pos le_rfl, wp_bind, wp_get, wp_bind,
        wp_ok (callRc_of_ok (dexAcceptDestroy_of_empty rfl (by simp)))]
      have hsteps := Steps.record (.single (Step.acceptPaid (c := c) hget hmove))
        (.paymentTX txid block vout p accept.acceptAmountRemaining buyer seller)
      refine Conforms.after (C := c.contract) hsteps (Conforms.ite (fun _ => ?_) fun _ => ?_)
      · exact Conforms.bind (conforms_callRc (conforms_dexOfferDestroy (Steps.sound hsteps hs)))
          fun _ _ _ _ => Conforms.pure trivial
      · exact Conforms.pure trivial
    · rw [if_neg (by omega)]
      exact ⟨Steps.record (.single (.acceptPay hget (by omega) hmove)) _, trivial⟩
  · rw [if_neg hpos]
    simp only [wp_modify, wp_bind]
    rw [if_neg (by omega)]
    refine ⟨?_, trivial⟩
    by_cases hneg : purchased < 0
    · exact .single (.acceptGrow (fun hf => absurd (hfits hf) (by omega)) hget hneg)
    · have hzero : purchased = 0 := by omega
      rw [hzero, Int.sub_zero, insert_eq_self hget]

theorem conforms_dexPay {txid : Hash} {vout : Nat} {accept : CMPAccept} {paid block : Int}
    (hs : Sound c s) (hget : s.dexGetAccept seller p buyer = some accept)
    (hfits : c.Fits → s.aux.params.isFeatureActivated FEATURE_DEXMATH block = false →
      0 ≤ env.legacyCalculateDExPurchase accept.offerAmountOriginal accept.btcDesiredOriginal paid) :
    Conforms c.contract (dexPay env txid vout seller buyer p accept paid block)
      (fun _ _ => True) s := by
  have hremaining := hs.accepts _ _ hget
  unfold dexPay
  refine conforms_rejectIf fun _ => ?_
  refine conforms_calc (reads_dexPurchase hfits) fun purchased hpurchased => ?_
  refine Conforms.bind (conforms_dexSettle hs hget ?_ fun hfits => ?_) fun _ _ _ _ =>
    Conforms.pure trivial
  · split <;> omega
  · have := hpurchased hfits
    split <;> omega

theorem conforms_dexPayment {txid : Hash} {vout : Nat} {paid block : Int} (hs : Sound c s)
    (hfits : c.Fits → s.aux.params.isFeatureActivated FEATURE_DEXMATH block = false →
      ∀ p accept, s.dexGetAccept seller p buyer = some accept →
      0 ≤ env.legacyCalculateDExPurchase accept.offerAmountOriginal accept.btcDesiredOriginal paid) :
    Conforms c.contract (dexPayment env txid vout seller buyer paid block) (fun _ _ => True) s := by
  unfold dexPayment
  refine Conforms.get ?_
  cases hmain : s.dexGetAccept seller OMNI_PROPERTY_MSC buyer with
  | some accept => exact conforms_dexPay hs hmain fun hf hlegacy => hfits hf hlegacy _ _ hmain
  | none =>
    cases htest : s.dexGetAccept seller OMNI_PROPERTY_TMSC buyer with
    | some accept => exact conforms_dexPay hs htest fun hf hlegacy => hfits hf hlegacy _ _ htest
    | none => exact Conforms.throw id

/-! ### Expiry -/

theorem acceptReturnsTo_cases (seller : Address) (accept : CMPAccept) :
    acceptReturnsTo (s.dexGetOffer seller p) accept = .BALANCE ∨
      (acceptReturnsTo (s.dexGetOffer seller p) accept = .SELLOFFER_RESERVE ∧
        (s.dexGetOffer seller p).isSome) := by
  unfold acceptReturnsTo
  cases s.dexGetOffer seller p with
  | none => exact .inl rfl
  | some offer =>
    simp only
    split
    · exact .inr ⟨rfl, rfl⟩
    · exact .inl rfl

theorem conforms_eraseExpiredAccept {blockNow : Int} {key : Str} {accept : CMPAccept}
    (hs : Sound c s) (hkey : s.myAccepts[key]? = some accept) :
    Conforms c.contract (eraseExpiredAccept blockNow key accept)
      (fun _ s' => Sound c s' ∧ ∀ key', key' ≠ key → s'.myAccepts[key']? = s.myAccepts[key']?)
      s := by
  unfold eraseExpiredAccept
  refine Conforms.ite (fun _ => ?_) fun _ => Conforms.pure ⟨hs, fun _ _ => rfl⟩
  cases hparse : parseAcceptKey key with
  | none => exact Conforms.throw id
  | some parsed =>
    obtain ⟨seller, p, buyer⟩ := parsed
    have hend : ∀ {s' : State}, s'.myAccepts = s.myAccepts.erase key → Steps c s s' →
        Steps c s s' ∧ Sound c s' ∧
          ∀ key', key' ≠ key → s'.myAccepts[key']? = s.myAccepts[key']? := by
      intro s' haccepts hsteps
      refine ⟨hsteps, hsteps.sound hs, fun key' hne => ?_⟩
      rw [haccepts, getElem?_erase_of_ne (Ne.symm hne)]
    rw [conforms_iff]
    simp only [wp_bind, wp_modify]
    refine wp_callRc ?_
    unfold dexAcceptDestroy
    rw [wp_bind, wp_get]
    cases hget : s.dexGetAccept seller p buyer with
    | none =>
      refine .inl ⟨_, rfl, hend rfl (.single (.acceptDrop hparse fun e he => ?_))⟩
      rw [hget] at he
      cases he
    | some accept' =>
      have hpos := hs.accepts _ _ hget
      refine wp_mono (E := Fails c fun _ => False) ?_ (fun _ _ h => h) fun _ _ h => .inr h
      simp only [gt_iff_lt, hpos, if_true, Bool.false_eq_true, if_false, wp_bind, wp_pure]
      have hreturn := acceptReturnsTo_cases (s := s) (p := p) seller accept'
      refine wp_move (by decide) ?_ (Int.le_of_lt hpos) (fun h => by cases h) (fun hstrict => ?_)
        fun hmove => hend rfl (.single (.acceptEnd hkey hparse hget hreturn hmove))
      · rcases hreturn with h | ⟨h, -⟩ <;> rw [h] <;> decide
      · refine ⟨hs.range, hs.canMove hstrict (by decide) ?_ hpos
          (hs.remaining_le_accept hstrict hget)⟩
        rcases hreturn with h | ⟨h, -⟩ <;> rw [h] <;> decide

theorem conforms_eraseExpiredAccepts {blockNow : Int} (hs : Sound c s) :
    Conforms c.contract (eraseExpiredAccepts blockNow) (fun _ _ => True) s := by
  unfold eraseExpiredAccepts
  refine Conforms.get ?_
  refine (Conforms.forM_stored (fun s key => s.myAccepts[key]?) (I := Sound c)
    (nodup_keys_toList s.myAccepts) (fun e he => mem_toList.mp he) hs ?_).mono fun _ _ _ _ => trivial
  intro e s' hs' hstored
  exact conforms_eraseExpiredAccept hs' hstored

end HcOmni
