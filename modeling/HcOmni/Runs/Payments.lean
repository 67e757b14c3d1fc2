import HcOmni.Conformance.Basic
import HcOmni.Persist.Records
import HcOmni.Runs.Offers

/-!
# Payments that return

A payment is converted into tokens in 256 bits, and the result back to `int64_t` before it is limited
to what the accept holds.  The desired amount of an offer comes from an unsigned field and is stored
as a signed number, so it may be negative, and the quotient may be larger than `int64_t`; both fail an
assertion.  These two are the only ways in which a payment can end the process.
-/

namespace HcOmni

open Std MapSum Program CMPTally State

variable {c : Ctx} {env : Env} {s s' t s₀ : State} {events : List Event} {seller buyer : Address}
  {p : PropertyId} {α β : Type}

/-! ### The end of a payment -/

section Closing

variable {Q : Unit → State → Prop} {E : Halt → State → Prop}

theorem wp_dexOfferDestroy_of_empty {Q : Int → State → Prop}
    (hempty : s.money seller p .SELLOFFER_RESERVE = 0)
    (h : ∀ rc u, u.mpTallyMap = s.mpTallyMap → u.myAccepts = s.myAccepts →
      (u.myOffers = s.myOffers ∨ u.myOffers = s.myOffers.erase (sellofferKey seller p)) → Q rc u) :
    wp (callRc (dexOfferDestroy seller p)) Q E s := by
  refine wp_callRc_of ?_
  unfold dexOfferDestroy
  rw [wp_bind, wp_get]
  cases s.dexGetOffer seller p with
  | none => exact h _ s rfl rfl (.inl rfl)
  | some offer =>
    have hnot : ¬s.getTokenBalance seller p .SELLOFFER_RESERVE > 0 := by
      change ¬s.money seller p .SELLOFFER_RESERVE > 0
      omega
    simp only [Option.isNone_some, rejectIf_false, wp_bind, wp_pure, hnot, if_false, wp_modify]
    exact h _ _ rfl rfl (.inr rfl)

theorem wp_closeAccept {stored : CMPAccept} {purchased remaining : Int}
    (hempty : remaining ≤ purchased → stored.acceptAmountRemaining ≤ 0)
    (hopen : purchased < remaining →
      Q () { s with myAccepts := s.myAccepts.insert (acceptKey seller buyer p) stored })
    (hclosed : remaining ≤ purchased → ∀ u : State, u.mpTallyMap = s.mpTallyMap →
      u.myAccepts = s.myAccepts.erase (acceptKey seller buyer p) →
      (u.myOffers = s.myOffers ∨ u.myOffers = s.myOffers.erase (sellofferKey seller p)) → Q () u) :
    wp (do
      modify fun s => { s with myAccepts := s.myAccepts.insert (acceptKey seller buyer p) stored }
      if purchased ≥ remaining then
        let s ← get
        let reserveSell := s.getTokenBalance seller p .SELLOFFER_RESERVE
        let reserveAccept := s.getTokenBalance seller p .ACCEPT_RESERVE
        let _ ← callRc (dexAcceptDestroy buyer seller p true)
        if reserveSell = 0 ∧ reserveAccept = 0 then
          let _ ← callRc (dexOfferDestroy seller p)
          pure ()
        else
          pure ()
      else
        pure ()) Q E s := by
  rw [wp_bind, wp_modify, wp_ite]
  refine ⟨fun hfull => ?_, fun hpart => hopen (by omega)⟩
  rw [wp_bind, wp_get, wp_bind, wp_ok (callRc_of_ok (dexAcceptDestroy_of_empty rfl (hempty hfull))),
    wp_ite]
  refine ⟨fun hreserves => ?_, fun _ => hclosed hfull _ rfl rfl (.inl rfl)⟩
  rw [wp_bind]
  exact wp_dexOfferDestroy_of_empty hreserves.1 fun _ u => hclosed hfull u

end Closing

/-! ### The terms of offers and accepts -/

/-- Something is offered, and both amounts fit `int64_t`. -/
def FitTerms (offered desired : Int) : Prop :=
  0 < offered ∧ offered ≤ MAX_INT_8_BYTES ∧ desired ≤ MAX_INT_8_BYTES

structure State.TermsOk (s : State) : Prop where
  offers : ∀ (key : Str) (offer : CMPOffer), s.myOffers[key]? = some offer →
    FitTerms offer.offerAmountOriginal offer.btcDesiredOriginal
  accepts : ∀ (key : Str) (accept : CMPAccept), s.myAccepts[key]? = some accept →
    FitTerms accept.offerAmountOriginal accept.btcDesiredOriginal

/-- Every stored offer and every stored accept is of the given kind. -/
structure State.AllTerms (O : CMPOffer → Prop) (R : CMPAccept → Prop) (s : State) : Prop where
  offers : ∀ (key : Str) (offer : CMPOffer), s.myOffers[key]? = some offer → O offer
  accepts : ∀ (key : Str) (accept : CMPAccept), s.myAccepts[key]? = some accept → R accept

theorem State.termsOk_eq : State.TermsOk =
    AllTerms (fun offer => FitTerms offer.offerAmountOriginal offer.btcDesiredOriginal)
      fun accept => FitTerms accept.offerAmountOriginal accept.btcDesiredOriginal :=
  funext fun _ => propext ⟨fun h => ⟨h.offers, h.accepts⟩, fun h => ⟨h.offers, h.accepts⟩⟩

section Kinds

variable {O : CMPOffer → Prop} {R : CMPAccept → Prop}

namespace State.AllTerms

theorem congr (h : s.AllTerms O R) (hoffers : s'.myOffers = s.myOffers)
    (haccepts : s'.myAccepts = s.myAccepts) : s'.AllTerms O R := by
  refine ⟨?_, ?_⟩
  · rw [hoffers]
    exact h.offers
  · rw [haccepts]
    exact h.accepts

theorem insertAccept (h : s.AllTerms O R) {key : Str} {accept : CMPAccept}
    (hoffers : s'.myOffers = s.myOffers) (haccepts : s'.myAccepts = s.myAccepts.insert key accept)
    (haccept : R accept) : s'.AllTerms O R := by
  refine ⟨?_, fun key' accept' hget => ?_⟩
  · rw [hoffers]
    exact h.offers
  · rw [haccepts] at hget
    rcases getElem?_of_insert hget with ⟨-, rfl⟩ | ⟨-, hold⟩
    · exact haccept
    · exact h.accepts key' accept' hold

theorem eraseAccept (h : s.AllTerms O R) (key : Str) (hoffers : s'.myOffers = s.myOffers)
    (haccepts : s'.myAccepts = s.myAccepts.erase key) : s'.AllTerms O R := by
  refine ⟨?_, fun key' accept hget => ?_⟩
  · rw [hoffers]
    exact h.offers
  · rw [haccepts] at hget
    exact h.accepts key' accept (getElem?_of_erase hget).2

theorem eraseOffer (h : s.AllTerms O R) (key : Str) (hoffers : s'.myOffers = s.myOffers.erase key)
    (haccepts : s'.myAccepts = s.myAccepts) : s'.AllTerms O R := by
  refine ⟨fun key' offer hget => ?_, ?_⟩
  · rw [hoffers] at hget
    exact h.offers key' offer (getElem?_of_erase hget).2
  · rw [haccepts]
    exact h.accepts

end State.AllTerms

theorem allTerms_dexOfferDestroy (h : s.AllTerms O R) :
    Keeps (AllTerms O R) (dexOfferDestroy seller p) s := by
  unfold dexOfferDestroy
  refine survives_get (survives_rejectIf h fun _ => ?_)
  simp only [wp_bind, wp_ite, wp_modify, wp_pure]
  refine ⟨fun hpos => ?_, fun _ => h.eraseOffer (sellofferKey seller p) rfl rfl⟩
  exact survives_move (by decide) (by decide) (Int.le_of_lt hpos) fun _ =>
    h.eraseOffer (sellofferKey seller p) rfl rfl

theorem allTerms_dexAcceptCreate {accepted block feePaid : Int}
    (hnew : ∀ offer amount, O offer → R
      { acceptAmountOriginal := amount, acceptAmountRemaining := amount,
        blocktimelimit := offer.blocktimelimit, property := offer.property,
        offerAmountOriginal := offer.offerAmountOriginal,
        btcDesiredOriginal := offer.btcDesiredOriginal, offerTxid := offer.txid, block := block })
    (h : s.AllTerms O R) :
    Keeps (AllTerms O R) (dexAcceptCreate buyer seller p accepted block feePaid) s := by
  unfold dexAcceptCreate
  refine survives_get ?_
  cases hoffer : s.dexGetOffer seller p with
  | none => exact fun _ => h
  | some offer =>
    refine survives_rejectIf h fun hnone => survives_rejectIf h fun _ => ?_
    rw [wp_ite]
    refine ⟨fun hpos => ?_, fun _ => h⟩
    simp only [wp_bind, wp_modify, wp_pure]
    refine survives_move (by decide) (by decide) (Int.le_of_lt hpos) fun _ => ?_
    have hnone : s.dexGetAccept seller p buyer = none := by simpa using hnone
    rw [insertIfNew_of_none (by exact hnone)]
    exact h.insertAccept rfl rfl (hnew offer _ (h.offers _ offer hoffer))

theorem allTerms_dexAcceptDestroy {force : Bool} (h : s.AllTerms O R) :
    Keeps (AllTerms O R) (dexAcceptDestroy buyer seller p force) s := by
  unfold dexAcceptDestroy
  refine survives_get ?_
  cases hget : s.dexGetAccept seller p buyer with
  | none => exact fun _ => h
  | some accept =>
    have hend : ∀ s' : State, s'.myOffers = s.myOffers → s'.myAccepts = s.myAccepts →
        (force = true → State.AllTerms O R
          { s' with myAccepts := s'.myAccepts.erase (acceptKey seller buyer p) }) ∧
        (¬force = true → s'.AllTerms O R) := by
      intro s' hoffers haccepts
      refine ⟨fun _ => h.eraseAccept (acceptKey seller buyer p) hoffers ?_,
        fun _ => h.congr hoffers haccepts⟩
      rw [haccepts]
    have hreturn : acceptReturnsTo (s.dexGetOffer seller p) accept ≠ .PENDING := by
      rcases acceptReturnsTo_cases (s := s) (p := p) seller accept with hto | ⟨hto, -⟩ <;>
        rw [hto] <;> decide
    simp only [wp_bind, wp_ite, wp_modify, wp_pure]
    refine ⟨fun hpos => ?_, fun _ => hend s rfl rfl⟩
    exact survives_move (by decide) hreturn (Int.le_of_lt hpos) fun _ => hend _ rfl rfl

theorem allTerms_eraseExpiredAccepts {blockNow : Int} (h : s.AllTerms O R) :
    Keeps (AllTerms O R) (eraseExpiredAccepts blockNow) s := by
  unfold eraseExpiredAccepts
  refine survives_get (Keeps.forM _ _ s (fun entry _ s' h' => ?_) h)
  unfold eraseExpiredAccept Keeps
  rw [wp_ite]
  refine ⟨fun _ => ?_, fun _ => h'⟩
  cases parseAcceptKey entry.1 with
  | none => exact False.elim
  | some parts =>
    refine Keeps.bind (keeps_callRc (allTerms_dexAcceptDestroy h')) fun _ u hu => ?_
    exact hu.eraseAccept entry.1 rfl rfl

variable (hR : ∀ accept n, R accept → R { accept with acceptAmountRemaining := n })

include hR

theorem allTerms_dexSettle {txid : Hash} {vout : Nat} {accept : CMPAccept} {purchased block : Int}
    (haccept : R accept) (h : s.AllTerms O R) :
    Keeps (AllTerms O R) (dexSettle txid vout seller buyer p accept purchased block) s := by
  -- an offer that goes with its last accept
  have hclosed : ∀ t : State, t.AllTerms O R → ∀ u : State,
      u.myAccepts = t.myAccepts.erase (acceptKey seller buyer p) →
      (u.myOffers = t.myOffers ∨ u.myOffers = t.myOffers.erase (sellofferKey seller p)) →
      u.AllTerms O R := by
    rintro t ht u haccepts (hoffers | hoffers)
    · exact ht.eraseAccept _ hoffers haccepts
    · have herased : State.AllTerms O R { t with myOffers := u.myOffers } :=
        ht.eraseOffer _ hoffers rfl
      exact herased.eraseAccept _ rfl haccepts
  unfold Keeps dexSettle
  by_cases hpos : purchased > 0
  · rw [if_pos hpos, wp_bind]
    refine survives_update (by decide) fun _ => ?_
    rw [wp_bind]
    refine survives_update (by decide) fun _ => ?_
    rw [wp_bind, wp_record]
    exact wp_closeAccept (fun _ => by dsimp only; omega)
      (fun _ => h.insertAccept rfl rfl (hR accept _ haccept))
      fun _ u _ => hclosed _ (h.congr rfl rfl) u
  · rw [if_neg hpos]
    exact wp_closeAccept (fun _ => by dsimp only; omega)
      (fun _ => h.insertAccept rfl rfl (hR accept _ haccept)) fun _ u _ => hclosed s h u

theorem allTerms_dexPayment {txid : Hash} {vout : Nat} {paid block : Int} (h : s.AllTerms O R) :
    Keeps (AllTerms O R) (dexPayment env txid vout seller buyer paid block) s := by
  have hpay : ∀ q accept, s.dexGetAccept seller q buyer = some accept →
      Keeps (AllTerms O R) (dexPay env txid vout seller buyer q accept paid block) s := by
    intro q accept hget
    unfold dexPay
    refine survives_rejectIf h fun _ => survives_reads h reads_dexPurchase_any fun _ _ => ?_
    exact Keeps.bind (allTerms_dexSettle hR (h.accepts _ accept hget) h) fun _ _ h' => h'
  unfold dexPayment
  refine survives_get ?_
  cases hmain : s.dexGetAccept seller OMNI_PROPERTY_MSC buyer with
  | some accept => exact hpay _ accept hmain
  | none =>
    cases htest : s.dexGetAccept seller OMNI_PROPERTY_TMSC buyer with
    | some accept => exact hpay _ accept htest
    | none => exact fun _ => h

end Kinds

/-- The price of what is available, calculated in floating point, is of type `int64_t`. -/
def Env.DesiredFits (env : Env) : Prop :=
  ∀ offered desired available, available ≤ MAX_INT_8_BYTES →
    env.legacyCalculateDesiredBTC offered desired available ≤ MAX_INT_8_BYTES

theorem terms_dexOfferCreate {offered block desired minFee : Int} {window : Nat} {txid : Hash}
    (henv : env.DesiredFits) (hrange : s.InRange) (hdesired : desired ≤ MAX_INT_8_BYTES)
    (h : s.TermsOk) :
    Keeps TermsOk (dexOfferCreate env seller p offered block desired minFee window txid) s := by
  unfold dexOfferCreate
  refine survives_rejectIf h fun _ => survives_rejectIf h fun _ => survives_get ?_
  refine survives_rejectIf h fun hnone => survives_rejectIf h fun _ => ?_
  rw [wp_ite]
  refine ⟨fun hpos => ?_, fun _ => h⟩
  simp only [wp_bind, wp_modify, wp_pure]
  refine survives_move (by decide) (by decide) (Int.le_of_lt hpos) fun hmove => ?_
  have hnone : s.dexGetOffer seller p = none := by simpa using hnone
  rw [insertIfNew_of_none (by exact hnone)]
  refine ⟨fun key offer hget => ?_, h.accepts⟩
  rcases getElem?_of_insert hget with ⟨-, rfl⟩ | ⟨-, hold⟩
  · have hmax := (hrange seller p .BALANCE (by decide)).2
    refine ⟨hmove.pos, Int.le_trans hmove.enough hmax, ?_⟩
    dsimp only
    split
    · exact henv _ _ _ hmax
    · exact hdesired
  · exact h.offers key offer hold

theorem terms_dexOfferDestroy (h : s.TermsOk) : Keeps TermsOk (dexOfferDestroy seller p) s := by
  rw [termsOk_eq] at h ⊢
  exact allTerms_dexOfferDestroy h

theorem terms_dexOfferUpdate {offered block desired minFee : Int} {window : Nat} {txid : Hash}
    (henv : env.DesiredFits) (hrange : s.InRange) (hdesired : desired ≤ MAX_INT_8_BYTES)
    (h : s.TermsOk) :
    Keeps TermsOk (dexOfferUpdate env seller p offered block desired minFee window txid) s := by
  unfold dexOfferUpdate
  refine survives_get (survives_rejectIf h fun _ => ?_)
  have hdestroyed : Keeps (fun s => s.InRange ∧ s.TermsOk) (dexOfferDestroy seller p) s :=
    wp_mono (wp_and (inRange_dexOfferDestroy hrange) (terms_dexOfferDestroy h)) (fun _ _ h => h)
      fun _ _ hboth hlive => ⟨hboth.1 hlive, hboth.2 hlive⟩
  rw [wp_bind]
  refine wp_mono (keeps_callRc hdestroyed) ?_ fun _ _ hboth hlive => (hboth hlive).2
  rintro rc s' ⟨hrange', h'⟩
  rw [wp_ite]
  exact ⟨fun _ => terms_dexOfferCreate henv hrange' hdesired h', fun _ => h'⟩

theorem terms_logicMathTradeOffer {tx : CMPTransaction} (henv : env.DesiredFits)
    (hrange : s.InRange) (h : s.TermsOk) : Keeps TermsOk (logicMathTradeOffer env tx) s :=
  keeps_tradeOffer_of h
    (Keeps.bind (terms_dexOfferCreate henv hrange (toInt64_le _) h) fun _ _ h' => h')
    (Keeps.bind (terms_dexOfferUpdate henv hrange (toInt64_le _) h) fun _ _ h' => h')
    (terms_dexOfferDestroy h)

/-! ### The purchase -/

section Purchase

variable {offered desired paid : Int} {E : Halt → State → Prop}

theorem wp_convertTo256 {Q : ArithUint256 → State → Prop} {n : Int} :
    wp (convertTo256 n) Q E s ↔
      if 0 ≤ n then Q (BitVec.ofNat 256 n.toNat) s else E (.abort .other) s := by
  unfold convertTo256
  by_cases h : 0 ≤ n
  · rw [if_pos h, decide_eq_true h]
    exact Iff.rfl
  · rw [if_neg h, decide_eq_false h]
    exact Iff.rfl

theorem wp_convertTo64 {Q : Int → State → Prop} {n : ArithUint256} :
    wp (convertTo64 n) Q E s ↔
      if (n.toNat : Int) ≤ MAX_INT_8_BYTES then Q n.toNat s else E (.abort .other) s := by
  unfold convertTo64
  by_cases h : (n.toNat : Int) ≤ MAX_INT_8_BYTES
  · rw [if_pos h, decide_eq_true h]
    exact Iff.rfl
  · rw [if_neg h, decide_eq_false h]
    exact Iff.rfl

theorem wp_divideAndRoundUp {Q : ArithUint256 → State → Prop} {n d : ArithUint256} (hd : d ≠ 0) :
    wp (divideAndRoundUp n d) Q E s ↔ Q (if n = 0 then 0 else 1 + (n - 1) / d) s := by
  unfold divideAndRoundUp divide256
  rw [if_neg hd]
  split <;> exact Iff.rfl

/-- What the payment buys can be calculated. -/
def PurchaseInRange (offered desired paid : Int) : Prop :=
  0 < desired ∧ paid * offered ≤ desired * MAX_INT_8_BYTES

theorem purchase_le_iff (hoffered : 0 ≤ offered ∧ offered ≤ MAX_INT_8_BYTES)
    (hdesired : 0 ≤ desired ∧ desired ≤ MAX_INT_8_BYTES) (hne : desired ≠ 0)
    (hpaid : 0 ≤ paid ∧ paid ≤ MAX_INT_8_BYTES) :
    ((if BitVec.ofNat 256 paid.toNat * BitVec.ofNat 256 offered.toNat = 0 then 0 else
        1 + (BitVec.ofNat 256 paid.toNat * BitVec.ofNat 256 offered.toNat - 1) /
          BitVec.ofNat 256 desired.toNat : ArithUint256).toNat : Int) ≤
      MAX_INT_8_BYTES ↔ PurchaseInRange offered desired paid := by
  rw [toNat_roundUp_le_iff hpaid hoffered hdesired (by omega), Int.mul_comm MAX_INT_8_BYTES]
  exact ⟨fun hle => ⟨by omega, hle⟩, And.right⟩

/-- **How a purchase is calculated.**  A negative price fails an assertion, and so does an amount of
tokens above the range of `int64_t`. -/
theorem wp_calculateDExPurchase {Q : Int → State → Prop} (hterms : FitTerms offered desired)
    (hne : desired ≠ 0) (hpaid : 0 ≤ paid ∧ paid ≤ MAX_INT_8_BYTES) :
    (PurchaseInRange offered desired paid ∧ (∀ purchased, 0 ≤ purchased → Q purchased s)) ∨
      (¬PurchaseInRange offered desired paid ∧ E (.abort .other) s) →
    wp (calculateDExPurchase offered desired paid) Q E s := by
  obtain ⟨hpos, hmax, hdmax⟩ := hterms
  intro h
  unfold calculateDExPurchase
  rw [wp_bind, wp_convertTo256, if_pos (Int.le_of_lt hpos), wp_bind, wp_convertTo256]
  by_cases hdesired : 0 ≤ desired
  · have hd := ofAmount_ne_zero ⟨hdesired, hdmax⟩ hne
    rw [if_pos hdesired, wp_bind, wp_convertTo256, if_pos hpaid.1, wp_bind, wp_divideAndRoundUp hd,
      wp_convertTo64]
    have hiff := purchase_le_iff ⟨Int.le_of_lt hpos, hmax⟩ ⟨hdesired, hdmax⟩ hne hpaid
    rcases h with ⟨hin, hQ⟩ | ⟨hout, hE⟩
    · rw [if_pos (hiff.mpr hin)]
      exact hQ _ (Int.natCast_nonneg _)
    · rw [if_neg fun hle => hout (hiff.mp hle)]
      exact hE
  · rw [if_neg hdesired]
    rcases h with ⟨hin, -⟩ | ⟨-, hE⟩
    · exact absurd hin.1 (by omega)
    · exact hE

end Purchase

/-! ### The settlement -/

theorem State.DExOk.remaining_le {accept : CMPAccept} (h : s.DExOk)
    (hget : s.dexGetAccept seller p buyer = some accept) :
    accept.acceptAmountRemaining ≤ s.money seller p .ACCEPT_RESERVE := by
  have hle := h.accepts.remaining_le_acceptSum hget
  have hslack := h.slack seller p
  unfold acceptSlack at hslack
  omega

theorem returns_dexSettle {txid : Hash} {vout : Nat} {accept : CMPAccept} {purchased block : Int}
    (hrange : s.InRange) (hheld : s.held p ≤ MAX_INT_8_BYTES)
    (hremaining : 0 < accept.acceptAmountRemaining)
    (hreserved : accept.acceptAmountRemaining ≤ s.money seller p .ACCEPT_RESERVE)
    (hle : purchased ≤ accept.acceptAmountRemaining) :
    wp (dexSettle txid vout seller buyer p accept purchased block) (fun _ _ => True)
      (fun _ _ => False) s := by
  unfold dexSettle
  by_cases hpos : purchased > 0
  · rw [if_pos hpos, wp_bind]
    simp only [wp_bind (assertUpdateTallyMap buyer p purchased .BALANCE)]
    refine wp_move_of_canMove (fun h => by cases h) hrange (by decide)
      (hrange.canMove (by decide) (by decide) hpos (by omega) hheld) ?_
    rw [wp_bind, wp_record]
    exact wp_closeAccept (fun _ => by dsimp only; omega) (fun _ => trivial) fun _ _ _ _ _ => trivial
  · rw [if_neg hpos]
    exact wp_closeAccept (fun _ => by dsimp only; omega) (fun _ => trivial) fun _ _ _ _ _ => trivial

/-! ### Payments -/

/-- The accept that a payment is for: one for property 1 comes first. -/
def State.paidAccept (s : State) (seller buyer : Address) : Option (PropertyId × CMPAccept) :=
  match s.dexGetAccept seller OMNI_PROPERTY_MSC buyer with
  | some accept => some (OMNI_PROPERTY_MSC, accept)
  | none => (s.dexGetAccept seller OMNI_PROPERTY_TMSC buyer).map fun accept =>
      (OMNI_PROPERTY_TMSC, accept)

/-- The payment is for no accept, for one without a price, or it buys an amount in range. -/
def State.PaymentInRange (s : State) (seller buyer : Address) (paid : Int) : Prop :=
  ∀ p accept, s.paidAccept seller buyer = some (p, accept) → accept.btcDesiredOriginal = 0 ∨
    PurchaseInRange accept.offerAmountOriginal accept.btcDesiredOriginal paid

theorem returns_dexPay_iff {txid : Hash} {vout : Nat} {accept : CMPAccept} {paid block : Int}
    (hrange : s.InRange) (hheld : s.held p ≤ MAX_INT_8_BYTES)
    (hremaining : 0 < accept.acceptAmountRemaining)
    (hreserved : accept.acceptAmountRemaining ≤ s.money seller p .ACCEPT_RESERVE)
    (hfit : FitTerms accept.offerAmountOriginal accept.btcDesiredOriginal)
    (hactive : s.aux.params.isFeatureActivated FEATURE_DEXMATH block = true)
    (hpaid : 0 ≤ paid ∧ paid ≤ MAX_INT_8_BYTES) :
    Returns (dexPay env txid vout seller buyer p accept paid block) s ↔
      (accept.btcDesiredOriginal = 0 ∨
        PurchaseInRange accept.offerAmountOriginal accept.btcDesiredOriginal paid) := by
  unfold Returns dexPay
  by_cases hprice : accept.btcDesiredOriginal = 0
  · have hreject : (accept.btcDesiredOriginal == 0) = true := by simp [hprice]
    rw [hreject]
    exact ⟨fun _ => .inl hprice, fun _ => ⟨_, rfl⟩⟩
  have haccept : (accept.btcDesiredOriginal == 0) = false := by simp [hprice]
  rw [haccept, rejectIf_false, wp_bind, wp_pure, wp_bind]
  unfold dexPurchase
  rw [wp_bind, wp_get, if_pos hactive]
  constructor
  · intro hreturns
    by_contra hnot
    have hfails := wp_and hreturns (wp_calculateDExPurchase (Q := fun _ _ => False)
      (E := fun e _ => e = .abort .other) hfit hprice hpaid
      (.inr ⟨fun hin => hnot (.inr hin), rfl⟩))
    unfold wp at hfails
    split at hfails
    · exact hfails.2
    · obtain ⟨⟨rc, hret⟩, habort⟩ := hfails
      rw [hret] at habort
      cases habort
  · rintro (hzero | hin)
    · exact absurd hzero hprice
    refine wp_calculateDExPurchase hfit hprice hpaid (.inl ⟨hin, fun purchased hnonneg => ?_⟩)
    rw [wp_bind]
    refine wp_mono (returns_dexSettle hrange hheld hremaining hreserved ?_) (fun _ _ _ => trivial)
      fun _ _ hfalse => hfalse.elim
    split <;> omega

/-- **When a payment returns.** -/
theorem returns_dexPayment_iff {txid : Hash} {vout : Nat} {paid block : Int} (hrange : s.InRange)
    (hheld : ∀ p, s.held p ≤ MAX_INT_8_BYTES) (hok : s.DExOk) (hterms : s.TermsOk)
    (hactive : s.aux.params.isFeatureActivated FEATURE_DEXMATH block = true)
    (hpaid : 0 ≤ paid ∧ paid ≤ MAX_INT_8_BYTES) :
    Returns (dexPayment env txid vout seller buyer paid block) s ↔
      s.PaymentInRange seller buyer paid := by
  have hpay : ∀ q accept, s.dexGetAccept seller q buyer = some accept →
      s.paidAccept seller buyer = some (q, accept) →
      (Returns (dexPay env txid vout seller buyer q accept paid block) s ↔
        s.PaymentInRange seller buyer paid) := by
    intro q accept hget hfirst
    rw [returns_dexPay_iff hrange (hheld q) (hok.accepts.of_accept hget).1 (hok.remaining_le hget)
      (hterms.accepts _ accept hget) hactive hpaid]
    unfold State.PaymentInRange
    simp [hfirst]
  unfold dexPayment Returns
  rw [wp_bind, wp_get]
  cases hmain : s.dexGetAccept seller OMNI_PROPERTY_MSC buyer with
  | some accept => exact hpay _ accept hmain (by simp [paidAccept, hmain])
  | none =>
    cases htest : s.dexGetAccept seller OMNI_PROPERTY_TMSC buyer with
    | some accept => exact hpay _ accept htest (by simp [paidAccept, hmain, htest])
    | none =>
      refine ⟨fun _ q accept hfirst => ?_, fun _ => ⟨_, rfl⟩⟩
      simp [paidAccept, hmain, htest] at hfirst

/-! ### Runs -/

theorem terms_exec {event : Event} (henv : env.DesiredFits) (hrange : s.InRange) (h : s.TermsOk) :
    Keeps TermsOk (event.exec env) s := by
  have hall := h
  rw [termsOk_eq] at hall
  have hother : ∀ {W : List Part} {s' : State}, Apart W [.offers, .accepts] →
      stateParts.Agree W s s' → s'.TermsOk := by
    intro W s' hW hagree
    rw [termsOk_eq]
    exact hall.congr (hagree .offers (hW _ (by simp))) (hagree .accepts (hW _ (by simp)))
  cases event with
  | packet tx =>
    refine keeps_packet h fun parsed hparse _ => ?_
    refine keeps_logicMath_of (fun _ => terms_logicMathTradeOffer henv hrange h) (fun _ => ?_)
      fun hapart => keeps_of_touches touches_logicMath fun s' hagree => hother ?_ hagree
    · unfold logicMathAcceptOfferBTC
      refine survives_get (survives_rejectIf h fun _ => survives_rejectIf h fun _ => ?_)
      rw [termsOk_eq]
      exact Keeps.bind (allTerms_dexAcceptCreate (fun _ _ hfit => hfit) hall) fun _ _ h' => h'
    · exact fun part hmem => hapart part (by simp at hmem ⊢; tauto)
  | payment =>
    rw [termsOk_eq]
    exact Keeps.bind (allTerms_dexPayment (fun _ _ hfit => hfit) hall) fun _ _ h' => h'
  | expireAccepts =>
    rw [termsOk_eq]
    exact allTerms_eraseExpiredAccepts hall
  | expireCrowdsales | vestDevmsc | pending =>
    exact keeps_of_touches (touches_exec _) fun s' hagree =>
      hother (by simp only [Event.parts]; decide) hagree

/-- Transactions are executed once and in the order of the chain, addresses are clean, and payments
buy what they should. -/
def Ctx.trackedExchange : Ctx := { Ctx.exchange with
  Tracked := True
  tracked_of_strict := fun _ => trivial }

/-- **When a payment returns, along a run.**  In every state that a run reaches while the identifiers
last, a payment of any amount comes back without a failed assertion exactly if it buys an amount in
range: the price of the accept is not negative, and the purchase, rounded up, fits `int64_t`. -/
theorem run_payment_returns_iff (hstart : Genesis s₀)
    (hreserve : ∀ a p, s₀.money a p .ACCEPT_RESERVE = 0 ∧ s₀.money a p .SELLOFFER_RESERVE = 0)
    (henv : env.DesiredFits) (htxids : (events.filterMap Event.txid?).Nodup)
    (hheights : (events.filterMap Event.height?).Pairwise (· ≤ ·))
    (hclean : ∀ tx, Event.packet tx ∈ events → CleanAddress tx.sender ∧ CleanAddress tx.receiver)
    (hfits : ∀ before event after t, events = before ++ event :: after →
      run env s₀ before = some t → event.PurchaseFits env t)
    (hrun : run env s₀ events = some s) (hspace : ¬s.Overrun) (txid : Hash) (vout : Nat)
    (seller buyer : Address) (paid block : Int)
    (hactive : s.aux.params.isFeatureActivated FEATURE_DEXMATH block = true)
    (hpaid : 0 ≤ paid ∧ paid ≤ MAX_INT_8_BYTES) :
    Returns (dexPayment env txid vout seller buyer paid block) s ↔
      s.PaymentInRange seller buyer paid := by
  have hsuits : RunSuits .trackedExchange env s₀ events :=
    ⟨fun _ => htxids, fun _ _ => hheights, hclean, fun _ _ => trivial, fun _ _ _ => trivial,
      fun _ => hfits, False.elim, False.elim⟩
  have hnone : s₀.TermsOk := ⟨by simp [hstart.offers], by simp [hstart.accepts]⟩
  have hboth : s.DExOk ∧ s.TermsOk := by
    refine foldlM_invariant (I := fun _ s => s.DExOk ∧ s.TermsOk)
      ⟨hstart.dexOk hreserve, hnone⟩ ?_ hrun
    rintro before event after u u' hsplit hbefore ⟨hok, hterms⟩ hnext
    obtain ⟨block, txid, hsound, hsuit⟩ := hsuits.next hstart hsplit hbefore
    exact ⟨hok.outcome (fun _ => id) trivial hsound (step_outcome hsound hsuit hnext),
      (terms_exec henv hsound.range hterms).step hnext⟩
  obtain ⟨top, hsound⟩ := hsuits.exists_sound hstart hrun
  have hheld : ∀ p, s.held p ≤ MAX_INT_8_BYTES := fun p => by
    have hle := hsound.held_le ⟨trivial, hspace⟩ p
    have hcached := (hsound.supply ⟨trivial, hspace⟩).cached p
    omega
  exact returns_dexPayment_iff hsound.range hheld hboth.1 hboth.2 hactive hpaid

/-- The accept of 40 tokens at the price of one coin each, before it is paid. -/
theorem run_payment_returns_iff_accepted :
    ∃ s, run sampleEnv (State.empty sampleEnv mainConsensusParams) (acceptedEvents.take 3) = some s ∧
      (Returns (dexPayment sampleEnv 7 0 "exodus".toList "buyer".toList 15 50002) s ↔
        s.PaymentInRange "exodus".toList "buyer".toList 15) := by
  obtain ⟨s, hrun⟩ := Option.isSome_iff_exists.mp (by decide +kernel :
    (run sampleEnv (State.empty sampleEnv mainConsensusParams)
      (acceptedEvents.take 3)).isSome = true)
  have hvalues : (run sampleEnv (State.empty sampleEnv mainConsensusParams)
      (acceptedEvents.take 3)).map (fun s => (s.mySps.nextSpid,
        s.aux.params.isFeatureActivated FEATURE_DEXMATH 50002)) = some (3, true) := by
    decide +kernel
  simp only [hrun, Option.map_some, Option.some.injEq, Prod.mk.injEq] at hvalues
  have hspace : ¬s.Overrun := not_overrun_of_eq hvalues.1 (by decide)
  have hclean : ∀ tx, Event.packet tx ∈ acceptedEvents.take 3 →
      CleanAddress tx.sender ∧ CleanAddress tx.receiver := fun tx hmem =>
    clean_acceptedEvents tx (List.mem_of_mem_take hmem)
  have hfits : ∀ before event after t, acceptedEvents.take 3 = before ++ event :: after →
      run sampleEnv (State.empty sampleEnv mainConsensusParams) before = some t →
      event.PurchaseFits sampleEnv t := by
    intro before event after t hsplit hbefore
    refine purchaseFits_acceptedEvents before event (after ++ acceptedEvents.drop 3) t ?_ hbefore
    rw [← List.cons_append, ← List.append_assoc, ← hsplit, List.take_append_drop]
  exact ⟨s, hrun, run_payment_returns_iff (genesis_empty _ _) (fun _ _ => ⟨rfl, rfl⟩)
    (fun _ _ _ hle => hle) (by decide +kernel) (by decide +kernel) hclean hfits hrun hspace
    7 0 "exodus".toList "buyer".toList 15 50002 hvalues.2 (by decide)⟩

/-- An offer whose price does not fit a signed number, and an accept. -/
def overpricedEvents : List Event := [
  .vestDevmsc 1500000000 50000,
  samplePacket 50000 0 "exodus".toList [] (createPayloadDExSell 1 100 (2 ^ 63) 10 0 1),
  samplePacket 50001 0 "buyer".toList "exodus".toList (createPayloadDExAccept 1 40)]

/-- **A payment ends the process**: the price of the accept is negative. -/
theorem exists_payment_aborts :
    ∃ s s', run sampleEnv (State.empty sampleEnv mainConsensusParams) overpricedEvents = some s ∧
      s.aux.params.isFeatureActivated FEATURE_DEXMATH 50002 = true ∧
      dexPayment sampleEnv 7 0 "exodus".toList "buyer".toList 1 50002 s =
        .error (.abort .other) s' := by
  have hvalues : (run sampleEnv (State.empty sampleEnv mainConsensusParams) overpricedEvents).map
      (fun s => (s.aux.params.isFeatureActivated FEATURE_DEXMATH 50002,
        haltOf (dexPayment sampleEnv 7 0 "exodus".toList "buyer".toList 1 50002) s)) =
      some (true, some (.abort .other)) := by decide +kernel
  obtain ⟨s, hrun, hs⟩ := Option.map_eq_some_iff.mp hvalues
  obtain ⟨hactive, hhalt⟩ := Prod.mk.injEq .. ▸ hs
  obtain ⟨s', hfails⟩ := exists_of_haltOf hhalt
  exact ⟨s, s', hrun, hactive, hfails⟩

end HcOmni
