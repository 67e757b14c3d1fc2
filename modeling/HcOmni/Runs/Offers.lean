import HcOmni.Runs.Exchanges
import HcOmni.Runs.Kept

/-!
# Open offers

An offer is closed by the payment that finds both reserves of its seller empty.  The reserve for
accepts is shared with the accepts of an earlier offer, so that payment may find something there that
does not belong to the offer, and the offer stays open with nothing left of it.  As long as no such
accept is around when a payment comes in, every open offer has tokens reserved for it or an accept of
its own.
-/

namespace HcOmni

open Std MapSum Program CMPTally State

variable {c : Ctx} {env : Env} {s s' t s₀ : State} {events : List Event} {seller buyer : Address}
  {p : PropertyId} {offer : CMPOffer}

namespace State

/-- Something is left of the offer: tokens are reserved for it, or an accept that belongs to it is
outstanding. -/
def OfferLive (s : State) (seller : Address) (p : PropertyId) (offer : CMPOffer) : Prop :=
  0 < s.money seller p .SELLOFFER_RESERVE ∨
    ∃ buyer accept, s.dexGetAccept seller p buyer = some accept ∧ accept.offerTxid = offer.txid

def OffersLive (s : State) : Prop :=
  ∀ seller p offer, s.dexGetOffer seller p = some offer → s.OfferLive seller p offer

/-- Every accept from the seller belongs to the offer that is open now. -/
def NoStale (s : State) (seller : Address) (p : PropertyId) : Prop :=
  ∀ offer, s.dexGetOffer seller p = some offer → ∀ (key : Str) (accept : CMPAccept),
    s.myAccepts[key]? = some accept → acceptNames seller p key = true → accept.offerTxid = offer.txid

/-- The other sellers, and the other property of this one, are not concerned. -/
structure SameElsewhere (seller : Address) (p : PropertyId) (s s' : State) : Prop where
  offers : ∀ a q, ¬(a = seller ∧ q = p) → s'.dexGetOffer a q = s.dexGetOffer a q
  reserves : ∀ a q, ¬(a = seller ∧ q = p) →
    s'.money a q .SELLOFFER_RESERVE = s.money a q .SELLOFFER_RESERVE
  accepts : ∀ a q b, ¬(a = seller ∧ q = p) → s'.dexGetAccept a q b = s.dexGetAccept a q b

theorem SameElsewhere.trans (h : SameElsewhere seller p s t) (h' : SameElsewhere seller p t s') :
    SameElsewhere seller p s s' where
  offers a q hne := (h'.offers a q hne).trans (h.offers a q hne)
  reserves a q hne := (h'.reserves a q hne).trans (h.reserves a q hne)
  accepts a q b hne := (h'.accepts a q b hne).trans (h.accepts a q b hne)

theorem OffersLive.elsewhere (h : s.OffersLive) (seller : Address) (p : PropertyId) (hsame : SameElsewhere seller p s s')
    (hown : ∀ offer, s'.dexGetOffer seller p = some offer → s'.OfferLive seller p offer) :
    s'.OffersLive := by
  intro a q offer hget
  by_cases hpair : a = seller ∧ q = p
  · obtain ⟨rfl, rfl⟩ := hpair
    exact hown offer hget
  · rw [hsame.offers a q hpair] at hget
    rcases h a q offer hget with hreserve | ⟨b, accept, haccept, htxid⟩
    · exact .inl (by rw [hsame.reserves a q hpair]; exact hreserve)
    · exact .inr ⟨b, accept, by rw [hsame.accepts a q b hpair]; exact haccept, htxid⟩

theorem OffersLive.of_agree {W : List Part} (h : s.OffersLive) (hagree : stateParts.Agree W s s')
    (hW : Apart W [.offers, .accepts, .tally .SELLOFFER_RESERVE]) : s'.OffersLive := by
  have hoffers : s'.myOffers = s.myOffers := hagree .offers (hW _ (by simp))
  have haccepts : s'.myAccepts = s.myAccepts := hagree .accepts (hW _ (by simp))
  have hmoney : ∀ a q, s'.money a q .SELLOFFER_RESERVE = s.money a q .SELLOFFER_RESERVE :=
    fun a q => congrFun (congrFun (hagree (.tally .SELLOFFER_RESERVE) (hW _ (by simp))) a) q
  intro a q offer hget
  unfold OfferLive dexGetAccept
  rw [haccepts, hmoney]
  refine h a q offer ?_
  rwa [dexGetOffer, hoffers] at hget

/-! ### What the exchange writes -/

theorem sellofferKey_ne {a : Address} {q : PropertyId} (hne : ¬(a = seller ∧ q = p)) :
    sellofferKey seller p ≠ sellofferKey a q := by
  intro heq
  obtain ⟨rfl, rfl⟩ := sellofferKey_injective heq
  exact hne ⟨rfl, rfl⟩

theorem acceptKey_ne (hseller : CleanAddress seller) (hbuyer : CleanAddress buyer) {a b : Address}
    {q : PropertyId} (hne : ¬(a = seller ∧ b = buyer ∧ q = p)) :
    acceptKey seller buyer p ≠ acceptKey a b q := by
  intro heq
  obtain ⟨rfl, rfl, rfl⟩ := acceptKey_injective hseller hbuyer heq
  exact hne ⟨rfl, rfl, rfl⟩

theorem reserve_move_of_ne {n : Int} {b : Address} {t u : TallyType} {a : Address} {q : PropertyId}
    (hb : b = seller ∨ u ≠ .SELLOFFER_RESERVE) (hne : ¬(a = seller ∧ q = p)) :
    (s.move p n seller t b u).money a q .SELLOFFER_RESERVE = s.money a q .SELLOFFER_RESERVE := by
  have hfirst : ¬(seller = a ∧ p = q ∧ t = .SELLOFFER_RESERVE) := fun h => hne ⟨h.1.symm, h.2.1.symm⟩
  have hsecond : ¬(b = a ∧ p = q ∧ u = .SELLOFFER_RESERVE) := by
    rintro ⟨rfl, rfl, rfl⟩
    rcases hb with rfl | hu
    · exact hne ⟨rfl, rfl⟩
    · exact hu rfl
  rw [money_move, if_neg hfirst, if_neg hsecond, Int.add_zero, Int.add_zero]

end State

/-! ### Sell offers -/

theorem keeps_dexOfferCreate {offered block desired minFee : Int} {window : Nat} {txid : Hash}
    (hrange : s.InRange) (h : s.OffersLive) :
    Keeps OffersLive (dexOfferCreate env seller p offered block desired minFee window txid) s := by
  unfold dexOfferCreate
  refine survives_rejectIf h fun _ => survives_rejectIf h fun _ => ?_
  refine survives_get ?_
  refine survives_rejectIf h fun hnone => survives_rejectIf h fun _ => ?_
  rw [wp_ite]
  refine ⟨fun hpos => ?_, fun _ => h⟩
  simp only [wp_bind, wp_modify, wp_pure]
  refine survives_move (by decide) (by decide) (Int.le_of_lt hpos) fun hmove => ?_
  have hnone : s.dexGetOffer seller p = none := by simpa using hnone
  rw [insertIfNew_of_none (by exact hnone)]
  refine h.elsewhere seller p ⟨fun a q hne => ?_, fun a q hne => ?_,
    fun _ _ _ _ => rfl⟩ fun offer _ => .inl ?_
  · exact getElem?_insert_of_ne (sellofferKey_ne hne)
  · exact reserve_move_of_ne (s := s) (.inl rfl) hne
  · -- the new offer has just been backed
    change 0 < State.money (s.move _ _ _ _ _ _) seller p .SELLOFFER_RESERVE
    have hold := (hrange seller p .SELLOFFER_RESERVE (by decide)).1
    have hn := hmove.pos
    rw [money_move]
    simp only [reduceCtorEq, and_false, if_false, and_self, if_true]
    omega

/-- The offer is gone, and nothing else has changed for anyone else. -/
structure OfferGone (seller : Address) (p : PropertyId) (s s' : State) : Prop where
  gone : s'.dexGetOffer seller p = none
  same : SameElsewhere seller p s s'

theorem OfferGone.live (h : s.OffersLive) (hgone : OfferGone seller p s s') : s'.OffersLive :=
  h.elsewhere seller p hgone.same fun offer hget => by
    rw [hgone.gone] at hget
    cases hget

theorem offerGone_dexOfferDestroy :
    wp (dexOfferDestroy seller p) (fun _ => OfferGone seller p s) (Survives (OfferGone seller p s))
      s := by
  unfold dexOfferDestroy
  refine survives_get ?_
  cases hoffer : s.dexGetOffer seller p with
  | none => exact fun _ => ⟨hoffer, fun _ _ _ => rfl, fun _ _ _ => rfl, fun _ _ _ _ => rfl⟩
  | some offer =>
    have herase : ∀ s' : State, s'.myOffers = s.myOffers → s'.myAccepts = s.myAccepts →
        (∀ a q, ¬(a = seller ∧ q = p) →
          s'.money a q .SELLOFFER_RESERVE = s.money a q .SELLOFFER_RESERVE) →
        OfferGone seller p s
          { s' with myOffers := s'.myOffers.erase (sellofferKey seller p) } := by
      intro s' hoffers haccepts hmoney
      refine ⟨by simp [dexGetOffer], fun a q hne => ?_, hmoney, fun a q b _ => ?_⟩
      · change (s'.myOffers.erase _)[_]? = _
        rw [getElem?_erase_of_ne (sellofferKey_ne hne), hoffers]
        rfl
      · change s'.myAccepts[_]? = _
        rw [haccepts]
        rfl
    simp only [Option.isNone_some, rejectIf_false, wp_bind, wp_ite, wp_modify, wp_pure]
    refine ⟨fun hpos => ?_, fun _ => herase s rfl rfl fun _ _ _ => rfl⟩
    refine survives_move (by decide) (by decide) (Int.le_of_lt hpos) fun _ => ?_
    exact herase _ rfl rfl fun a q hne => reserve_move_of_ne (.inl rfl) hne

theorem keeps_dexOfferDestroy (h : s.OffersLive) : Keeps OffersLive (dexOfferDestroy seller p) s :=
  wp_mono offerGone_dexOfferDestroy (fun _ _ hgone => hgone.live h) fun _ _ hgone hlive =>
    (hgone hlive).live h

theorem inRange_dexOfferDestroy (hrange : s.InRange) :
    Keeps InRange (dexOfferDestroy seller p) s := by
  unfold dexOfferDestroy
  refine survives_get ?_
  refine survives_rejectIf hrange fun _ => ?_
  simp only [wp_bind, wp_ite, wp_modify, wp_pure]
  refine ⟨fun hpos => ?_, fun _ => hrange⟩
  exact survives_move (by decide) (by decide) (Int.le_of_lt hpos) fun hmove => hrange.move hmove

theorem keeps_dexOfferUpdate {offered block desired minFee : Int} {window : Nat} {txid : Hash}
    (hrange : s.InRange) (h : s.OffersLive) :
    Keeps OffersLive (dexOfferUpdate env seller p offered block desired minFee window txid) s := by
  unfold dexOfferUpdate
  refine survives_get ?_
  refine survives_rejectIf h fun _ => ?_
  have hdestroyed : Keeps (fun s => s.InRange ∧ s.OffersLive) (dexOfferDestroy seller p) s :=
    wp_mono (wp_and (inRange_dexOfferDestroy hrange) (keeps_dexOfferDestroy h)) (fun _ _ h => h)
      fun _ _ hboth hlive => ⟨hboth.1 hlive, hboth.2 hlive⟩
  rw [wp_bind]
  refine wp_mono (keeps_callRc hdestroyed) ?_ fun _ _ hboth hlive => (hboth hlive).2
  rintro rc s' ⟨hrange', h'⟩
  rw [wp_ite]
  exact ⟨fun _ => keeps_dexOfferCreate hrange' h', fun _ => h'⟩

/-! ### Accepts -/

theorem keeps_dexAcceptCreate {accepted block feePaid : Int} (hseller : CleanAddress seller)
    (hbuyer : CleanAddress buyer) (h : s.OffersLive) :
    Keeps OffersLive (dexAcceptCreate buyer seller p accepted block feePaid) s := by
  unfold dexAcceptCreate
  refine survives_get ?_
  cases hoffer : s.dexGetOffer seller p with
  | none => exact fun _ => h
  | some offer =>
    refine survives_rejectIf h fun hnone => survives_rejectIf h fun _ => ?_
    rw [wp_ite]
    refine ⟨fun hpos => ?_, fun _ => h⟩
    simp only [wp_bind, wp_modify, wp_pure]
    refine survives_move (by decide) (by decide) (Int.le_of_lt hpos) fun hmove => ?_
    have hnone : s.dexGetAccept seller p buyer = none := by simpa using hnone
    rw [insertIfNew_of_none (by exact hnone)]
    refine h.elsewhere seller p ⟨fun _ _ _ => rfl, fun a q hne => ?_,
      fun a q b hne => ?_⟩ fun offer' hget => .inr ⟨buyer, ?_⟩
    · exact reserve_move_of_ne (s := s) (.inl rfl) hne
    · exact getElem?_insert_of_ne (acceptKey_ne hseller hbuyer fun heq => hne ⟨heq.1, heq.2.2⟩)
    · -- the accept that was just opened belongs to the offer
      have hsame : offer = offer' := Option.some.inj (hoffer.symm.trans hget)
      exact ⟨_, ExtTreeMap.getElem?_insert_self, by rw [hsame]⟩

/-! ### Payments -/

theorem State.OffersLive.replaceAccept {accept accept' : CMPAccept} (hseller : CleanAddress seller)
    (hbuyer : CleanAddress buyer) (h : s.OffersLive)
    (hget : s.dexGetAccept seller p buyer = some accept)
    (hoffers : s'.myOffers = s.myOffers)
    (haccepts : s'.myAccepts = s.myAccepts.insert (acceptKey seller buyer p) accept')
    (htxid : accept'.offerTxid = accept.offerTxid)
    (hmoney : ∀ a q, s'.money a q .SELLOFFER_RESERVE = s.money a q .SELLOFFER_RESERVE) :
    s'.OffersLive := by
  have hother : ∀ a q b, ¬(a = seller ∧ b = buyer ∧ q = p) →
      s'.dexGetAccept a q b = s.dexGetAccept a q b := by
    intro a q b hne
    unfold dexGetAccept
    rw [haccepts, getElem?_insert_of_ne (acceptKey_ne hseller hbuyer hne)]
  have hown : s'.dexGetAccept seller p buyer = some accept' := by
    unfold dexGetAccept
    rw [haccepts, ExtTreeMap.getElem?_insert_self]
  have hoffer : ∀ a q, s'.dexGetOffer a q = s.dexGetOffer a q := fun a q => by
    unfold dexGetOffer
    rw [hoffers]
  refine h.elsewhere seller p ⟨fun a q _ => hoffer a q, fun a q _ => hmoney a q,
    fun a q b hne => hother a q b fun heq => hne ⟨heq.1, heq.2.2⟩⟩ fun offer hget' => ?_
  rw [hoffer] at hget'
  rcases h seller p offer hget' with hreserve | ⟨b, found, hfound, hbelongs⟩
  · exact .inl (by rw [hmoney]; exact hreserve)
  · by_cases hb : b = buyer
    · subst hb
      rw [hget] at hfound
      cases hfound
      exact .inr ⟨b, accept', hown, htxid.trans hbelongs⟩
    · exact .inr ⟨b, found, (hother _ _ _ fun heq => hb heq.2.1).trans hfound, hbelongs⟩

theorem State.DExOk.exists_accept (h : s.DExOk) (hne : s.money seller p .ACCEPT_RESERVE ≠ 0) :
    ∃ buyer accept, s.dexGetAccept seller p buyer = some accept := by
  have hsum : s.acceptSum seller p ≠ 0 := by
    have hslack := h.slack seller p
    unfold acceptSlack at hslack
    omega
  by_contra hnone
  refine hsum (mapSum_eq_zero fun key accept hget => ?_)
  obtain ⟨-, seller', buyer', p', rfl, hseller, hbuyer, -⟩ := h.accepts.accepts key accept hget
  rw [acceptWeight_acceptKey hseller hbuyer]
  refine if_neg fun hsame => hnone ?_
  obtain ⟨rfl, rfl⟩ := hsame
  exact ⟨buyer', accept, hget⟩

theorem State.NoStale.txid_eq {accept : CMPAccept} (hstale : s.NoStale seller p)
    (hok : s.AcceptsOk) (hoffer : s.dexGetOffer seller p = some offer)
    (hget : s.dexGetAccept seller p buyer = some accept) : accept.offerTxid = offer.txid := by
  obtain ⟨-, hseller, hbuyer, -⟩ := hok.of_accept hget
  exact hstale offer hoffer _ accept hget
    ((acceptNames_acceptKey hseller hbuyer).mpr ⟨rfl, rfl⟩)

/-- An accept that was paid in full: its tokens are gone from the reserve, and so is the accept. -/
def State.paidOff (s : State) (seller buyer : Address) (p : PropertyId) (accept : CMPAccept)
    (aux : Aux) : State :=
  { s.move p accept.acceptAmountRemaining seller .ACCEPT_RESERVE buyer .BALANCE with
    myAccepts := s.myAccepts.erase (acceptKey seller buyer p)
    aux := aux }

theorem offerLive_paidOff {accept : CMPAccept} {aux : Aux} (hok : s.DExOk)
    (hget : s.dexGetAccept seller p buyer = some accept) (hstale : s.NoStale seller p)
    (hoffer : s.dexGetOffer seller p = some offer)
    (hne : (s.paidOff seller buyer p accept aux).money seller p .ACCEPT_RESERVE ≠ 0) :
    (s.paidOff seller buyer p accept aux).OfferLive seller p offer := by
  obtain ⟨-, hseller, hbuyer, -⟩ := hok.accepts.of_accept hget
  have hok' : (s.paidOff seller buyer p accept aux).DExOk := by
    refine ⟨hok.accepts.erase rfl rfl, hok.offers.congr rfl fun a q => ?_, fun a q => ?_⟩
    · change State.money (s.move _ _ _ _ _ _) a q _ = _
      simp [money_move]
    · exact (acceptSlack_close hseller hbuyer hget (by decide)).trans (hok.slack a q)
  obtain ⟨b, accept', haccept⟩ := hok'.exists_accept hne
  exact .inr ⟨b, accept', haccept,
    hstale.txid_eq hok.accepts hoffer (getElem?_of_erase haccept).2⟩

theorem sameElsewhere_paidOff {accept : CMPAccept} {aux : Aux} (hseller : CleanAddress seller)
    (hbuyer : CleanAddress buyer) : SameElsewhere seller p s (s.paidOff seller buyer p accept aux) where
  offers _ _ _ := rfl
  reserves a q hne := by
    change State.money (s.move _ _ _ _ _ _) a q _ = _
    exact reserve_move_of_ne (.inr (by decide)) hne
  accepts a q b hne :=
    getElem?_erase_of_ne (acceptKey_ne hseller hbuyer fun heq => hne ⟨heq.1, heq.2.2⟩)

theorem keeps_dexSettle {txid : Hash} {vout : Nat} {accept : CMPAccept} {purchased block : Int}
    (hrange : s.InRange) (hok : s.DExOk) (h : s.OffersLive) (hstale : s.NoStale seller p)
    (hget : s.dexGetAccept seller p buyer = some accept)
    (hle : purchased ≤ accept.acceptAmountRemaining) :
    Keeps OffersLive (dexSettle txid vout seller buyer p accept purchased block) s := by
  obtain ⟨hremaining, hseller, hbuyer, hp⟩ := hok.accepts.of_accept hget
  unfold Keeps dexSettle
  by_cases hpos : purchased > 0
  · rw [if_pos hpos]
    simp only [wp_bind, wp_modify]
    refine survives_move (by decide) (by decide) (Int.le_of_lt hpos) fun hmove => ?_
    rw [wp_record]
    by_cases hfull : purchased = accept.acceptAmountRemaining
    · subst hfull
      rw [if_pos le_rfl, wp_bind, wp_get, wp_bind,
        wp_ok (callRc_of_ok (dexAcceptDestroy_of_empty rfl (by simp)))]
      have hsame : ∀ aux, SameElsewhere seller p s (s.paidOff seller buyer p accept aux) :=
        fun _ => sameElsewhere_paidOff hseller hbuyer
      change wp _ _ _ (s.paidOff seller buyer p accept _)
      rw [wp_ite]
      refine ⟨fun _ => ?_, fun hreserve => ?_⟩
      · -- nothing is reserved any more, and the offer goes
        refine Keeps.bind (keeps_callRc ?_) fun _ _ h => h
        refine wp_mono offerGone_dexOfferDestroy (fun _ s' hgone => ?_) fun _ s' hgone hlive => ?_
        · exact OfferGone.live h ⟨hgone.gone, (hsame _).trans hgone.same⟩
        · exact OfferGone.live h ⟨(hgone hlive).gone, (hsame _).trans (hgone hlive).same⟩
      · refine h.elsewhere seller p (hsame _) fun offer hoffer => ?_
        by_cases hsell : (s.move p accept.acceptAmountRemaining seller .ACCEPT_RESERVE buyer
            .BALANCE).money seller p .SELLOFFER_RESERVE = 0
        · refine offerLive_paidOff hok hget hstale hoffer fun hzero => hreserve ⟨hsell, ?_⟩
          unfold getTokenBalance
          rw [if_neg (by rcases hp with rfl | rfl <;> decide)]
          exact hzero
        · left
          have hnonneg := (hrange.move hmove) seller p .SELLOFFER_RESERVE (by decide)
          exact Int.lt_iff_le_and_ne.mpr ⟨hnonneg.1, Ne.symm hsell⟩
    · rw [if_neg (by omega)]
      refine h.replaceAccept hseller hbuyer hget rfl rfl rfl fun a q => ?_
      change State.money (s.move _ _ _ _ _ _) a q _ = _
      simp [money_move]
  · rw [if_neg hpos]
    simp only [wp_modify, wp_bind]
    rw [if_neg (by omega)]
    exact h.replaceAccept hseller hbuyer hget rfl rfl rfl fun _ _ => rfl

theorem reads_dexPurchase_any {accept : CMPAccept} {paid block : Int} :
    Reads (dexPurchase env accept paid block) (fun _ => True) (CalcError True) s :=
  .get (.ite (fun _ => reads_calculateDExPurchase.mono fun _ _ => trivial) fun _ => .pure trivial)

theorem keeps_dexPay {txid : Hash} {vout : Nat} {accept : CMPAccept} {paid block : Int}
    (hrange : s.InRange) (hok : s.DExOk) (h : s.OffersLive) (hstale : s.NoStale seller p)
    (hget : s.dexGetAccept seller p buyer = some accept) :
    Keeps OffersLive (dexPay env txid vout seller buyer p accept paid block) s := by
  unfold dexPay
  refine survives_rejectIf h fun _ => survives_reads h reads_dexPurchase_any fun purchased _ => ?_
  refine Keeps.bind (keeps_dexSettle hrange hok h hstale hget ?_) fun _ _ h' => h'
  split <;> omega

theorem keeps_dexPayment {txid : Hash} {vout : Nat} {paid block : Int} (hrange : s.InRange)
    (hok : s.DExOk) (h : s.OffersLive) (hstale : ∀ p, s.NoStale seller p) :
    Keeps OffersLive (dexPayment env txid vout seller buyer paid block) s := by
  unfold dexPayment
  refine survives_get ?_
  cases hmain : s.dexGetAccept seller OMNI_PROPERTY_MSC buyer with
  | some accept => exact keeps_dexPay hrange hok h (hstale _) hmain
  | none =>
    cases htest : s.dexGetAccept seller OMNI_PROPERTY_TMSC buyer with
    | some accept => exact keeps_dexPay hrange hok h (hstale _) htest
    | none => exact fun _ => h

/-! ### Expiry -/

/-- What the expiry loop keeps. -/
structure State.Expiring (s : State) : Prop where
  range : s.InRange
  accepts : s.AcceptsOk
  live : s.OffersLive

theorem State.Expiring.expire {accept : CMPAccept} (h : s.Expiring)
    (hget : s.dexGetAccept seller p buyer = some accept)
    (hmove : s.CanMove p accept.acceptAmountRemaining seller .ACCEPT_RESERVE seller
      (acceptReturnsTo (s.dexGetOffer seller p) accept)) :
    State.Expiring { s.move p accept.acceptAmountRemaining seller .ACCEPT_RESERVE seller
      (acceptReturnsTo (s.dexGetOffer seller p) accept) with
        myAccepts := s.myAccepts.erase (acceptKey seller buyer p) } := by
  obtain ⟨hpos, hseller, hbuyer, -⟩ := h.accepts.of_accept hget
  refine ⟨h.range.move hmove, h.accepts.erase rfl rfl, ?_⟩
  refine h.live.elsewhere seller p ⟨fun _ _ _ => rfl, fun a q hne => ?_,
    fun a q b hne => ?_⟩ fun offer hoffer => ?_
  · exact reserve_move_of_ne (s := s) (.inl rfl) hne
  · exact getElem?_erase_of_ne (acceptKey_ne hseller hbuyer fun heq => hne ⟨heq.1, heq.2.2⟩)
  have hoffer : s.dexGetOffer seller p = some offer := hoffer
  have hnonneg := (h.range seller p .SELLOFFER_RESERVE (by decide)).1
  by_cases hbelongs : offer.txid = accept.offerTxid
  · -- the tokens return to the offer
    have hreturn : acceptReturnsTo (s.dexGetOffer seller p) accept = .SELLOFFER_RESERVE := by
      rw [hoffer]
      exact if_pos hbelongs
    refine .inl ?_
    change 0 < State.money (s.move _ _ _ _ _ _) seller p .SELLOFFER_RESERVE
    rw [hreturn, money_move]
    simp only [reduceCtorEq, and_false, if_false, and_self, if_true]
    omega
  · -- the accept belonged to an earlier offer, so what kept this one alive is still there
    have hreturn : acceptReturnsTo (s.dexGetOffer seller p) accept = .BALANCE := by
      rw [hoffer]
      exact if_neg hbelongs
    rcases h.live seller p offer hoffer with hreserve | ⟨b, accept', haccept, htxid⟩
    · refine .inl ?_
      change 0 < State.money (s.move _ _ _ _ _ _) seller p .SELLOFFER_RESERVE
      rw [hreturn, money_move]
      simpa using hreserve
    · refine .inr ⟨b, accept', ?_, htxid⟩
      have hb : ¬(seller = seller ∧ b = buyer ∧ p = p) := by
        rintro ⟨-, rfl, -⟩
        rw [hget] at haccept
        cases haccept
        exact hbelongs htxid.symm
      exact (getElem?_erase_of_ne (acceptKey_ne hseller hbuyer hb)).trans haccept

/-- The failures of the expiry loop end the process. -/
def fatalContract : Contract Halt State where
  rel _ _ := True
  refl _ := trivial
  trans _ _ := trivial
  live _ := False
  bad := Halt.Live

theorem expiring_eraseExpiredAccept {blockNow : Int} {key : Str} {accept : CMPAccept}
    (h : s.Expiring) (hkey : s.myAccepts[key]? = some accept) :
    Conforms fatalContract (eraseExpiredAccept blockNow key accept)
      (fun _ s' => s'.Expiring ∧ ∀ key', key' ≠ key → s'.myAccepts[key']? = s.myAccepts[key']?)
      s := by
  unfold eraseExpiredAccept
  refine Conforms.ite (fun _ => ?_) fun _ => Conforms.pure ⟨h, fun _ _ => rfl⟩
  obtain ⟨hpos, seller, buyer, p, rfl, hseller, hbuyer, hp⟩ := h.accepts.accepts key accept hkey
  rw [parseAcceptKey_acceptKey hseller hbuyer hp]
  have hget : s.dexGetAccept seller p buyer = some accept := hkey
  have hdestroy : wp (dexAcceptDestroy buyer seller p false)
      (fun _ s' => s' = s.move p accept.acceptAmountRemaining seller .ACCEPT_RESERVE seller
        (acceptReturnsTo (s.dexGetOffer seller p) accept) ∧
        s.CanMove p accept.acceptAmountRemaining seller .ACCEPT_RESERVE seller
          (acceptReturnsTo (s.dexGetOffer seller p) accept))
      (Survives fun _ => False) s := by
    unfold dexAcceptDestroy
    refine survives_get ?_
    rw [hget]
    simp only [gt_iff_lt, hpos, if_true, Bool.false_eq_true, if_false, wp_bind, wp_pure]
    refine survives_move (by decide) ?_ (Int.le_of_lt hpos) fun hmove => ⟨rfl, hmove⟩
    rcases acceptReturnsTo_cases (s := s) (p := p) seller accept with hto | ⟨hto, -⟩ <;>
      rw [hto] <;> decide
  have hround : wp (callRc (dexAcceptDestroy buyer seller p false) >>= fun _ =>
      modify fun s => { s with myAccepts := s.myAccepts.erase (acceptKey seller buyer p) })
      (fun _ s' => s'.Expiring ∧ ∀ key', key' ≠ acceptKey seller buyer p →
        s'.myAccepts[key']? = s.myAccepts[key']?) (Survives fun _ => False) s := by
    rw [wp_bind]
    refine wp_mono (survives_callRc hdestroy) ?_ fun _ _ hdead => hdead
    rintro _ s' ⟨rfl, hmove⟩
    exact ⟨h.expire hget hmove, fun key' hne => getElem?_erase_of_ne (Ne.symm hne)⟩
  exact wp_mono hround (fun _ _ hdone => ⟨trivial, hdone⟩) fun _ _ hdead => ⟨False.elim, hdead⟩

theorem keeps_eraseExpiredAccepts {blockNow : Int} (h : s.Expiring) :
    Keeps OffersLive (eraseExpiredAccepts blockNow) s := by
  unfold eraseExpiredAccepts
  refine survives_get ?_
  have hloop : Conforms fatalContract
      (s.myAccepts.toList.forM fun e => eraseExpiredAccept blockNow e.1 e.2)
      (fun _ => State.Expiring) s :=
    Conforms.forM_stored (fun s key => s.myAccepts[key]?) (nodup_keys_toList s.myAccepts)
      (fun e he => mem_toList.mp he) h
      fun e s' hs' hstored => expiring_eraseExpiredAccept hs' hstored
  exact wp_mono hloop (fun _ _ hdone => hdone.2.live) fun _ _ hdead hlive => absurd hlive hdead.2

/-! ### Transactions -/

theorem keeps_tradeOffer_of {I : State → Prop} {tx : CMPTransaction} (h : I s)
    (hcreate : Keeps I (do
      let created ← dexOfferCreate env tx.sender tx.property tx.nValue tx.block
        (toInt64 tx.amountDesired) (toInt64 tx.minFee) tx.blocktimelimit tx.txid
      pure created.1) s)
    (hupdate : Keeps I (do
      let updated ← dexOfferUpdate env tx.sender tx.property tx.nValue tx.block
        (toInt64 tx.amountDesired) (toInt64 tx.minFee) tx.blocktimelimit tx.txid
      pure updated.1) s)
    (hdestroy : Keeps I (dexOfferDestroy tx.sender tx.property) s) :
    Keeps I (logicMathTradeOffer env tx) s := by
  unfold logicMathTradeOffer
  refine survives_get (survives_rejectIf h fun _ => survives_rejectIf h fun _ =>
    survives_rejectIf h fun _ => ?_)
  simp only [wp_ite]
  refine ⟨fun _ => ⟨fun _ => ⟨fun _ => hupdate, fun _ => hcreate⟩,
    fun _ => ⟨fun _ => hdestroy, fun _ => h⟩⟩, fun _ => ⟨fun _ => ?_, fun _ => h⟩⟩
  refine survives_rejectIf h fun _ => survives_rejectIf h fun _ => ?_
  simp only [wp_ite]
  exact ⟨fun _ => hcreate, fun _ => ⟨fun _ => hupdate, fun _ => ⟨fun _ => hdestroy, fun _ => h⟩⟩⟩

theorem keeps_logicMathTradeOffer {tx : CMPTransaction} (hrange : s.InRange) (h : s.OffersLive) :
    Keeps OffersLive (logicMathTradeOffer env tx) s :=
  keeps_tradeOffer_of h (Keeps.bind (keeps_dexOfferCreate hrange h) fun _ _ h' => h')
    (Keeps.bind (keeps_dexOfferUpdate hrange h) fun _ _ h' => h') (keeps_dexOfferDestroy h)

theorem keeps_logicMathAcceptOfferBTC {tx : CMPTransaction} (hsender : CleanAddress tx.sender)
    (hreceiver : CleanAddress tx.receiver) (h : s.OffersLive) :
    Keeps OffersLive (logicMathAcceptOfferBTC tx) s := by
  unfold logicMathAcceptOfferBTC
  refine survives_get (survives_rejectIf h fun _ => survives_rejectIf h fun _ => ?_)
  exact Keeps.bind (keeps_dexAcceptCreate hreceiver hsender h) fun _ _ h' => h'

theorem apart_partsOfType {type : Nat} (htrade : type ≠ MSC_TYPE_TRADE_OFFER)
    (haccept : type ≠ MSC_TYPE_ACCEPT_OFFER_BTC) :
    Apart (partsOfType type) [.offers, .accepts, .tally .SELLOFFER_RESERVE] := by
  unfold partsOfType
  rw [if_neg htrade, if_neg haccept]
  repeat refine apart_ite (by decide) ?_
  decide

theorem keeps_logicMath_of {I : State → Prop} {tx : CMPTransaction}
    (htrade : tx.type = MSC_TYPE_TRADE_OFFER → Keeps I (logicMathTradeOffer env tx) s)
    (haccept : tx.type = MSC_TYPE_ACCEPT_OFFER_BTC → Keeps I (logicMathAcceptOfferBTC tx) s)
    (hother : Apart (partsOfType tx.type) [.offers, .accepts, .tally .SELLOFFER_RESERVE] →
      Keeps I (logicMath env tx) s) : Keeps I (logicMath env tx) s := by
  by_cases htype : tx.type = MSC_TYPE_TRADE_OFFER
  · have hlogic : logicMath env tx = logicMathTradeOffer env tx := by
      unfold logicMath
      rw [htype]
      rfl
    rw [hlogic]
    exact htrade htype
  by_cases htype' : tx.type = MSC_TYPE_ACCEPT_OFFER_BTC
  · have hlogic : logicMath env tx = logicMathAcceptOfferBTC tx := by
      unfold logicMath
      rw [htype']
      rfl
    rw [hlogic]
    exact haccept htype'
  · exact hother (apart_partsOfType htype htype')

theorem keeps_logicMath {tx : CMPTransaction} (hsender : CleanAddress tx.sender)
    (hreceiver : tx.type = MSC_TYPE_ACCEPT_OFFER_BTC → CleanAddress tx.receiver)
    (hrange : s.InRange) (h : s.OffersLive) : Keeps OffersLive (logicMath env tx) s :=
  keeps_logicMath_of (fun _ => keeps_logicMathTradeOffer hrange h)
    (fun haccept => keeps_logicMathAcceptOfferBTC hsender (hreceiver haccept) h)
    fun hapart => keeps_of_touches touches_logicMath fun _ hagree => h.of_agree hagree hapart

/-! ### Runs -/

theorem keeps_offersLive {event : Event} (hrange : s.InRange) (hok : s.DExOk) (h : s.OffersLive)
    (hclean : ∀ tx, event = .packet tx → CleanAddress tx.sender ∧ CleanAddress tx.receiver)
    (hstale : ∀ txid vout seller buyer paid block,
      event = .payment txid vout seller buyer paid block → ∀ p, s.NoStale seller p) :
    Keeps OffersLive (event.exec env) s := by
  cases event with
  | packet tx =>
    refine keeps_packet h fun parsed hparse _ => ?_
    have hfrom := parsedFrom_of_interpretTransaction hparse
    obtain ⟨hsender, hreceiver⟩ := hclean tx rfl
    refine keeps_logicMath (by rw [hfrom.sender]; exact hsender) (fun haccept => ?_) hrange h
    rw [hfrom.receiver haccept]
    exact hreceiver
  | payment txid vout seller buyer paid block =>
    exact Keeps.bind (keeps_dexPayment hrange hok h (hstale _ _ _ _ _ _ rfl)) fun _ _ h' => h'
  | expireAccepts blockNow => exact keeps_eraseExpiredAccepts ⟨hrange, hok.accepts, h⟩
  | expireCrowdsales | vestDevmsc | pending =>
    exact keeps_of_touches (touches_exec _) fun s' hagree =>
      h.of_agree hagree (by simp only [Event.parts]; decide)

/-- **Open offers.**  Addresses have no separators in them, the floating point formula makes no
purchase negative, and whenever a payment comes in, the accepts from that seller all belong to the
offer that is open then.  In every state that such a run reaches, tokens are reserved for every open
offer, or an accept that belongs to it is outstanding. -/
theorem run_offers_live (hstart : Genesis s₀)
    (hreserve : ∀ a p, s₀.money a p .ACCEPT_RESERVE = 0 ∧ s₀.money a p .SELLOFFER_RESERVE = 0)
    (hclean : ∀ tx, Event.packet tx ∈ events → CleanAddress tx.sender ∧ CleanAddress tx.receiver)
    (hfits : ∀ before event after t, events = before ++ event :: after →
      run env s₀ before = some t → event.PurchaseFits env t)
    (hstale : ∀ before txid vout seller buyer paid block after t,
      events = before ++ .payment txid vout seller buyer paid block :: after →
      run env s₀ before = some t → ∀ p, t.NoStale seller p)
    (hrun : run env s₀ events = some s) (key : Str) (offer : CMPOffer)
    (hoffer : s.myOffers[key]? = some offer) :
    ∃ seller p, key = sellofferKey seller p ∧ (0 < s.money seller p .SELLOFFER_RESERVE ∨
      ∃ (key' : Str) (accept : CMPAccept), s.myAccepts[key']? = some accept ∧
        acceptNames seller p key' = true ∧ accept.offerTxid = offer.txid) := by
  have hsuits : RunSuits .exchange env s₀ events :=
    ⟨False.elim, False.elim, hclean, fun _ _ => trivial, fun _ _ _ => trivial, fun _ => hfits,
      False.elim, False.elim⟩
  have hnone : s₀.OffersLive := by
    intro a q offer hget
    simp [dexGetOffer, hstart.offers] at hget
  have hboth : s.DExOk ∧ s.OffersLive := by
    refine foldlM_invariant (I := fun _ s => s.DExOk ∧ s.OffersLive)
      ⟨hstart.dexOk hreserve, hnone⟩ ?_ hrun
    rintro before event after u u' hsplit hbefore ⟨hok, hlive⟩ hnext
    obtain ⟨block, txid, hsound, hsuit⟩ := hsuits.next hstart hsplit hbefore
    refine ⟨hok.outcome (fun _ => id) trivial hsound (step_outcome hsound hsuit hnext), ?_⟩
    refine (keeps_offersLive hsound.range hok hlive (fun tx htx => hclean tx ?_) ?_).step hnext
    · simp [hsplit, htx]
    · rintro txid vout seller buyer paid block rfl
      exact hstale before txid vout seller buyer paid block after u hsplit hbefore
  obtain ⟨seller, p, rfl, -⟩ := hboth.1.accepts.offers key offer hoffer
  refine ⟨seller, p, rfl, ?_⟩
  rcases hboth.2 seller p offer hoffer with hpos | ⟨buyer, accept, hget, htxid⟩
  · exact .inl hpos
  · obtain ⟨-, hseller, hbuyer, -⟩ := hboth.1.accepts.of_accept hget
    exact .inr ⟨_, accept, hget, (acceptNames_acceptKey hseller hbuyer).mpr ⟨rfl, rfl⟩, htxid⟩

theorem State.noStale_of_toList
    (h : ∀ o ∈ s.myOffers.toList, ∀ e ∈ s.myAccepts.toList, e.2.offerTxid = o.2.txid) :
    s.NoStale seller p :=
  fun _ hoffer key accept haccept _ => h (sellofferKey seller p, _) (mem_toList.mpr hoffer)
    (key, accept) (mem_toList.mpr haccept)

/-- The offer of which 40 tokens were accepted, and 15 of these paid, still has a reserve. -/
theorem run_offers_live_accepted :
    ∃ s offer, run sampleEnv (State.empty sampleEnv mainConsensusParams) acceptedEvents = some s ∧
      s.myOffers[sellofferKey "exodus".toList 1]? = some offer ∧
      ∃ seller p, sellofferKey "exodus".toList 1 = sellofferKey seller p ∧
        (0 < s.money seller p .SELLOFFER_RESERVE ∨
          ∃ (key' : Str) (accept : CMPAccept), s.myAccepts[key']? = some accept ∧
            acceptNames seller p key' = true ∧ accept.offerTxid = offer.txid) := by
  obtain ⟨s, hrun⟩ := Option.isSome_iff_exists.mp (by decide +kernel :
    (run sampleEnv (State.empty sampleEnv mainConsensusParams) acceptedEvents).isSome = true)
  have hsome : (run sampleEnv (State.empty sampleEnv mainConsensusParams) acceptedEvents).map
      (fun s => (s.myOffers[sellofferKey "exodus".toList 1]?).isSome) = some true := by
    decide +kernel
  rw [hrun, Option.map_some, Option.some.injEq, Option.isSome_iff_exists] at hsome
  obtain ⟨offer, hoffer⟩ := hsome
  refine ⟨s, offer, hrun, hoffer, run_offers_live (genesis_empty _ _) (fun _ _ => ⟨rfl, rfl⟩)
    clean_acceptedEvents purchaseFits_acceptedEvents ?_ hrun _ _ hoffer⟩
  intro before txid vout seller buyer paid block after t hsplit hbefore p
  have hget : acceptedEvents[before.length]? = some (.payment txid vout seller buyer paid block) := by
    simp [hsplit]
  have hlength : before.length = 3 := by
    rcases hl : before.length with _ | _ | _ | _ | k <;>
      simp [hl, acceptedEvents, samplePacket] at hget ⊢
  have hstate : before = acceptedEvents.take 3 := by
    rw [hsplit, ← hlength, List.take_left]
  have hcheck : (run sampleEnv (State.empty sampleEnv mainConsensusParams)
      (acceptedEvents.take 3)).map (fun t => decide
        (∀ o ∈ t.myOffers.toList, ∀ e ∈ t.myAccepts.toList, e.2.offerTxid = o.2.txid)) =
      some true := by decide +kernel
  rw [← hstate, hbefore, Option.map_some, Option.some.injEq, decide_eq_true_eq] at hcheck
  exact State.noStale_of_toList hcheck

/-- All of an offer is accepted, and the offer is cancelled and replaced by another one.  All of
that is accepted too, and paid for. -/
def staleEvents : List Event := [
  .vestDevmsc 1500000000 50000,
  samplePacket 50000 0 "exodus".toList [] (createPayloadDExSell 1 100 100 10 0 1),
  samplePacket 50001 0 "first".toList "exodus".toList (createPayloadDExAccept 1 100),
  samplePacket 50002 0 "exodus".toList [] (createPayloadDExSell 1 100 100 10 0 3),
  samplePacket 50003 0 "exodus".toList [] (createPayloadDExSell 1 50 50 10 0 1),
  samplePacket 50004 0 "second".toList "exodus".toList (createPayloadDExAccept 1 50),
  .payment 7 0 "exodus".toList "second".toList 50 50005]

/-- **An exhausted offer stays open**: the payment finds the accept of the first offer in the
reserve. -/
theorem exists_exhausted_offer :
    ∃ s offer, run sampleEnv (State.empty sampleEnv mainConsensusParams) staleEvents = some s ∧
      s.myOffers[sellofferKey "exodus".toList 1]? = some offer ∧
      s.money "exodus".toList 1 .SELLOFFER_RESERVE = 0 ∧
      s.money "second".toList 1 .BALANCE = 50 ∧
      ∀ (key : Str) (accept : CMPAccept), s.myAccepts[key]? = some accept →
        accept.offerTxid ≠ offer.txid := by
  have hvalues : (run sampleEnv (State.empty sampleEnv mainConsensusParams) staleEvents).map
      (fun s => ((s.myOffers[sellofferKey "exodus".toList 1]?).map (·.txid),
        s.money "exodus".toList 1 .SELLOFFER_RESERVE, s.money "second".toList 1 .BALANCE,
        s.myAccepts.toList.map (·.2.offerTxid))) = some (some 50003000, 0, 50, [50000000]) := by
    decide +kernel
  obtain ⟨s, hrun, hs⟩ := Option.map_eq_some_iff.mp hvalues
  simp only [Prod.mk.injEq, Option.map_eq_some_iff] at hs
  obtain ⟨⟨offer, hoffer, htxid⟩, hreserve, hbought, haccepts⟩ := hs
  refine ⟨s, offer, hrun, hoffer, hreserve, hbought, fun key accept hget heq => ?_⟩
  have hmem : accept.offerTxid ∈ s.myAccepts.toList.map (·.2.offerTxid) :=
    List.mem_map_of_mem (mem_toList.mpr hget : (key, accept) ∈ _)
  rw [haccepts, heq, htxid] at hmem
  exact absurd hmem (by decide)

end HcOmni
