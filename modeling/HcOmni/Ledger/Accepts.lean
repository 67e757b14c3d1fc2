import HcOmni.Ledger.Frame

/-!
# Offers, accepts, and the tokens reserved for them

Offers and accepts are found under composed keys.  The key of an offer always determines its
seller and property; the key of an accept does so only if no address contains one of the
separators.  Under that condition what is reserved for accepts differs from what the accepts
still hold by an amount that no step changes.
-/

namespace HcOmni

open Std MapSum Program CMPTally State

/-! ### Keys -/

theorem not_mem_decimal {ch : Char} (h : isKeySeparator ch = true) (p : PropertyId) :
    ch ∉ Text.decimal p := by
  intro hmem
  have hdigit := Text.isDigit_of_mem_decimal hmem
  simp only [isKeySeparator, Bool.or_eq_true, beq_iff_eq] at h
  rcases h with rfl | rfl <;> exact absurd hdigit (by decide)

theorem CleanAddress.not_mem {a : Address} (ha : CleanAddress a) {ch : Char}
    (h : isKeySeparator ch = true) : ch ∉ a := fun hmem =>
  absurd ((ha ch hmem).symm.trans h) (by decide)

theorem sellofferKey_injective {a a' : Address} {p p' : PropertyId}
    (h : sellofferKey a p = sellofferKey a' p') : a = a' ∧ p = p' := by
  obtain ⟨ha, hp⟩ := Text.append_cons_inj_last (not_mem_decimal (by decide) p)
    (not_mem_decimal (by decide) p') h
  exact ⟨ha, Text.decimal_injective hp⟩

theorem acceptKey_injective {s b s' b' : Address} {p p' : PropertyId} (hs : CleanAddress s)
    (hb : CleanAddress b) (h : acceptKey s b p = acceptKey s' b' p') :
    s = s' ∧ b = b' ∧ p = p' := by
  have hrest : '-' ∉ Text.decimal p ++ '+' :: b := by
    simp only [List.mem_append, List.mem_cons, not_or]
    exact ⟨not_mem_decimal (by decide) p, by decide, hb.not_mem (by decide)⟩
  obtain ⟨hseller, -, htail⟩ :=
    (List.append_cons_inj_of_notMem (hs.not_mem (by decide)) hrest).mp h
  obtain ⟨hp, hbuyer⟩ := Text.append_cons_inj_first (not_mem_decimal (by decide) p)
    (not_mem_decimal (by decide) p') htail
  exact ⟨hseller, hbuyer, Text.decimal_injective hp⟩

theorem parseAcceptKey_acceptKey {s b : Address} {p : PropertyId} (hs : CleanAddress s)
    (hb : CleanAddress b) (hp : p = 1 ∨ p = 2) :
    parseAcceptKey (acceptKey s b p) = some (s, p, b) := by
  have hdecimal : ∀ ch ∈ Text.decimal p, isKeySeparator ch = false := fun ch hmem => by
    by_contra hsep
    exact not_mem_decimal (by simpa using hsep) p hmem
  unfold parseAcceptKey acceptKey
  rw [Text.splitTokens_join (by decide) (by decide) hs hdecimal hb
    (by rcases hp with rfl | rfl <;> decide)]
  rcases hp with rfl | rfl <;> rfl

/-- The key names the seller and the property. -/
def acceptNames (seller : Address) (p : PropertyId) (key : Str) : Bool :=
  (seller ++ '-' :: (Text.decimal p ++ ['+'])).isPrefixOf key

theorem acceptNames_acceptKey {s b seller : Address} {p q : PropertyId} (hs : CleanAddress s)
    (hb : CleanAddress b) :
    acceptNames seller q (acceptKey s b p) = true ↔ s = seller ∧ p = q := by
  unfold acceptNames
  rw [List.isPrefixOf_iff_prefix]
  constructor
  · rintro ⟨rest, hrest⟩
    have hkey : acceptKey s b p = acceptKey seller rest q := by
      rw [← hrest]
      simp [acceptKey]
    obtain ⟨hseller, -, hp⟩ := acceptKey_injective hs hb hkey
    exact ⟨hseller, hp⟩
  · rintro ⟨rfl, rfl⟩
    exact ⟨b, by simp [acceptKey]⟩

/-! ### Well-formed offers and accepts -/

/-- Offers are for properties 1 and 2; accepts too, between clean addresses, and something is
left of them. -/
structure State.AcceptsOk (s : State) : Prop where
  offers : ∀ key offer, s.myOffers[key]? = some offer →
    ∃ a p, key = sellofferKey a p ∧ (p = 1 ∨ p = 2)
  accepts : ∀ key accept, s.myAccepts[key]? = some accept → 0 < accept.acceptAmountRemaining ∧
    ∃ seller buyer p, key = acceptKey seller buyer p ∧ CleanAddress seller ∧ CleanAddress buyer ∧
      (p = 1 ∨ p = 2)

namespace State.AcceptsOk

variable {s : State} (hs : s.AcceptsOk)

include hs

theorem property_of_offer {a : Address} {p : PropertyId} (h : (s.dexGetOffer a p).isSome) :
    p = 1 ∨ p = 2 := by
  obtain ⟨offer, hget⟩ := Option.isSome_iff_exists.mp h
  obtain ⟨a', p', hkey, hp⟩ := hs.offers _ offer hget
  obtain ⟨-, rfl⟩ := sellofferKey_injective hkey
  exact hp

theorem of_accept {seller buyer : Address} {p : PropertyId} {accept : CMPAccept}
    (h : s.dexGetAccept seller p buyer = some accept) :
    0 < accept.acceptAmountRemaining ∧ CleanAddress seller ∧ CleanAddress buyer ∧
      (p = 1 ∨ p = 2) := by
  obtain ⟨hpos, seller', buyer', p', hkey, hseller, hbuyer, hp⟩ := hs.accepts _ accept h
  obtain ⟨rfl, rfl, rfl⟩ := acceptKey_injective hseller hbuyer hkey.symm
  exact ⟨hpos, hseller, hbuyer, hp⟩

theorem get_of_parse {key : Str} {seller buyer : Address} {p : PropertyId} {accept : CMPAccept}
    (hget : s.myAccepts[key]? = some accept)
    (hparse : parseAcceptKey key = some (seller, p, buyer)) : key = acceptKey seller buyer p := by
  obtain ⟨-, seller', buyer', p', rfl, hseller, hbuyer, hp⟩ := hs.accepts key accept hget
  rw [parseAcceptKey_acceptKey hseller hbuyer hp] at hparse
  cases hparse
  rfl

theorem insert {s' : State} {seller buyer : Address} {p : PropertyId} {accept : CMPAccept}
    (hoffers : s'.myOffers = s.myOffers)
    (haccepts : s'.myAccepts = s.myAccepts.insert (acceptKey seller buyer p) accept)
    (hpos : 0 < accept.acceptAmountRemaining) (hseller : CleanAddress seller)
    (hbuyer : CleanAddress buyer) (hp : p = 1 ∨ p = 2) : s'.AcceptsOk where
  offers := by
    rw [hoffers]
    exact hs.offers
  accepts := by
    rw [haccepts]
    intro key accept' hget
    rcases getElem?_of_insert hget with ⟨rfl, rfl⟩ | ⟨-, hold⟩
    · exact ⟨hpos, seller, buyer, p, rfl, hseller, hbuyer, hp⟩
    · exact hs.accepts key accept' hold

theorem erase {s' : State} {key : Str} (hoffers : s'.myOffers = s.myOffers)
    (haccepts : s'.myAccepts = s.myAccepts.erase key) : s'.AcceptsOk where
  offers := by
    rw [hoffers]
    exact hs.offers
  accepts := by
    rw [haccepts]
    intro key' accept hget
    exact hs.accepts key' accept (getElem?_of_erase hget).2

theorem congr {s' : State} (hoffers : s'.myOffers = s.myOffers)
    (haccepts : s'.myAccepts = s.myAccepts) : s'.AcceptsOk where
  offers := by
    rw [hoffers]
    exact hs.offers
  accepts := by
    rw [haccepts]
    exact hs.accepts

end State.AcceptsOk

variable {c : Ctx} {s s' : State}

/-- **Offers and accepts stay well-formed.** -/
theorem State.AcceptsOk.step (hclean : ∀ a, c.Addr a → CleanAddress a) (hs : s.AcceptsOk)
    (h : Step c s s') : s'.AcceptsOk := by
  cases h with
  | feePaid _ _ _ _ _ hfee => exact hs.congr hfee.myOffers_eq hfee.myAccepts_eq
  | distribute _ hfee => exact hs.congr hfee.myOffers_eq hfee.myAccepts_eq
  | orderFill hfee => exact hs.congr hfee.myOffers_eq hfee.myAccepts_eq
  | offerPut a p offer hp =>
    refine ⟨fun key offer' hget => ?_, hs.accepts⟩
    rcases getElem?_of_insert hget with ⟨rfl, rfl⟩ | ⟨-, hold⟩
    · exact ⟨a, p, rfl, hp⟩
    · exact hs.offers key offer' hold
  | offerErase =>
    exact ⟨fun key offer' hget => hs.offers key offer' (getElem?_of_erase hget).2, hs.accepts⟩
  | acceptOpen haddr hoffer _ hmove =>
    exact hs.insert rfl rfl hmove.pos (hclean _ haddr.2) (hclean _ haddr.1)
      (hs.property_of_offer hoffer)
  | acceptPay hget hpart hmove =>
    obtain ⟨-, hseller, hbuyer, hp⟩ := hs.of_accept hget
    refine hs.insert rfl rfl ?_ hseller hbuyer hp
    simp only
    omega
  | acceptGrow _ hget hneg =>
    obtain ⟨hpos, hseller, hbuyer, hp⟩ := hs.of_accept hget
    refine hs.insert rfl rfl ?_ hseller hbuyer hp
    simp only
    omega
  | acceptPaid | acceptEnd | acceptDrop => exact hs.erase rfl rfl
  | _ => exact hs.congr rfl rfl

/-! ### The reserve for accepts -/

namespace State

/-- What an accept contributes to the reserve of the seller for `p`. -/
def acceptWeight (seller : Address) (p : PropertyId) (key : Str) (accept : CMPAccept) : Int :=
  if acceptNames seller p key then accept.acceptAmountRemaining else 0

/-- What the accepts that name the seller and `p` still hold. -/
def acceptSum (s : State) (seller : Address) (p : PropertyId) : Int :=
  mapSum s.myAccepts (acceptWeight seller p)

/-- What is reserved for accepts beyond what the accepts hold. -/
def acceptSlack (s : State) (seller : Address) (p : PropertyId) : Int :=
  s.money seller p .ACCEPT_RESERVE - s.acceptSum seller p

theorem acceptWeight_acceptKey {seller buyer e : Address} {p q : PropertyId} {accept : CMPAccept}
    (hseller : CleanAddress seller) (hbuyer : CleanAddress buyer) :
    acceptWeight e q (acceptKey seller buyer p) accept =
      if seller = e ∧ p = q then accept.acceptAmountRemaining else 0 := by
  unfold acceptWeight
  simp only [acceptNames_acceptKey hseller hbuyer]

theorem AcceptsOk.remaining_le_acceptSum {seller buyer : Address} {p : PropertyId}
    {accept : CMPAccept} (hs : s.AcceptsOk) (hget : s.dexGetAccept seller p buyer = some accept) :
    accept.acceptAmountRemaining ≤ s.acceptSum seller p := by
  obtain ⟨-, hseller, hbuyer, -⟩ := hs.of_accept hget
  have hsum : weightAt s.myAccepts (acceptWeight seller p) (acceptKey seller buyer p) ≤ _ :=
    weightAt_le_mapSum (fun key other hother => by
      have hpos := (hs.accepts key other hother).1
      unfold acceptWeight
      split <;> omega) _
  rwa [weightAt_some hget, acceptWeight_acceptKey hseller hbuyer, if_pos ⟨rfl, rfl⟩] at hsum

theorem acceptSlack_move {p q : PropertyId} {n : Int} {a b e : Address} {t u : TallyType}
    (ht : t ≠ .ACCEPT_RESERVE) (hu : u ≠ .ACCEPT_RESERVE) :
    (s.move p n a t b u).acceptSlack e q = s.acceptSlack e q := by
  unfold acceptSlack
  rw [money_move]
  simp only [ht, hu, and_false, if_false, Int.add_zero]
  rfl

theorem acceptSlack_credit {p q : PropertyId} {n : Int} {a e : Address} :
    (s.credit a p n).acceptSlack e q = s.acceptSlack e q := by
  unfold acceptSlack
  rw [money_credit]
  simp only [reduceCtorEq, and_false, if_false, Int.add_zero]
  rfl

theorem acceptSlack_addTally {p q : PropertyId} {n : Int} {a e : Address} {t : TallyType}
    (ht : t ≠ .ACCEPT_RESERVE) :
    (s.addTally a p n t).acceptSlack e q = s.acceptSlack e q := by
  unfold acceptSlack
  rw [money_addTally]
  simp only [ht, and_false, if_false, Int.add_zero]
  rfl

end State

theorem FeeStep.acceptSlack_eq {p q : PropertyId} {fee : Int} {e : Address}
    (h : FeeStep c p fee s s') : s'.acceptSlack e q = s.acceptSlack e q := by
  unfold acceptSlack acceptSum
  rw [h.money_of_ne e q (by decide), h.myAccepts_eq]

theorem acceptSlack_open {seller buyer e : Address} {p q : PropertyId} {accept : CMPAccept}
    (hseller : CleanAddress seller) (hbuyer : CleanAddress buyer)
    (hnone : s.dexGetAccept seller p buyer = none) :
    State.acceptSlack { s.move p accept.acceptAmountRemaining seller .SELLOFFER_RESERVE seller
      .ACCEPT_RESERVE with myAccepts := s.myAccepts.insert (acceptKey seller buyer p) accept } e q =
        s.acceptSlack e q := by
  have hsum := mapSum_insert_new (f := acceptWeight e q) (v := accept) hnone
  have hmoney := money_move s p q accept.acceptAmountRemaining seller seller e
    .SELLOFFER_RESERVE .ACCEPT_RESERVE .ACCEPT_RESERVE
  rw [acceptWeight_acceptKey hseller hbuyer] at hsum
  unfold acceptSlack
  change (s.move _ _ _ _ _ _).money e q .ACCEPT_RESERVE -
    mapSum (s.myAccepts.insert _ _) (acceptWeight e q) = _ - mapSum s.myAccepts _
  rw [hmoney, hsum]
  by_cases h : seller = e ∧ p = q
  · simp [h]
    omega
  · simp [h]

theorem acceptSlack_reduce {seller buyer b e : Address} {p q : PropertyId} {accept : CMPAccept}
    {n : Int} {u : TallyType} (hseller : CleanAddress seller) (hbuyer : CleanAddress buyer)
    (hget : s.dexGetAccept seller p buyer = some accept) (hu : u ≠ .ACCEPT_RESERVE) :
    State.acceptSlack { s.move p n seller .ACCEPT_RESERVE b u with
      myAccepts := s.myAccepts.insert (acceptKey seller buyer p)
        { accept with acceptAmountRemaining := accept.acceptAmountRemaining - n } } e q =
          s.acceptSlack e q := by
  have hsum := mapSum_insert s.myAccepts (acceptWeight e q) (acceptKey seller buyer p)
    { accept with acceptAmountRemaining := accept.acceptAmountRemaining - n }
  have hmoney := money_move s p q n seller b e .ACCEPT_RESERVE u .ACCEPT_RESERVE
  rw [weightAt_some hget, acceptWeight_acceptKey hseller hbuyer,
    acceptWeight_acceptKey hseller hbuyer] at hsum
  unfold acceptSlack
  change (s.move _ _ _ _ _ _).money e q .ACCEPT_RESERVE -
    mapSum (s.myAccepts.insert _ _) (acceptWeight e q) = _ - mapSum s.myAccepts _
  rw [hmoney]
  by_cases h : seller = e ∧ p = q <;> simp [h, hu] at hsum ⊢ <;> omega

theorem acceptSlack_close {seller buyer b e : Address} {p q : PropertyId} {accept : CMPAccept}
    {u : TallyType} (hseller : CleanAddress seller) (hbuyer : CleanAddress buyer)
    (hget : s.dexGetAccept seller p buyer = some accept) (hu : u ≠ .ACCEPT_RESERVE) :
    State.acceptSlack { s.move p accept.acceptAmountRemaining seller .ACCEPT_RESERVE b u with
      myAccepts := s.myAccepts.erase (acceptKey seller buyer p) } e q = s.acceptSlack e q := by
  have hsum := mapSum_split s.myAccepts (acceptWeight e q) (acceptKey seller buyer p)
  have hmoney := money_move s p q accept.acceptAmountRemaining seller b e
    .ACCEPT_RESERVE u .ACCEPT_RESERVE
  rw [weightAt_some hget, acceptWeight_acceptKey hseller hbuyer] at hsum
  unfold acceptSlack
  change (s.move _ _ _ _ _ _).money e q .ACCEPT_RESERVE -
    mapSum (s.myAccepts.erase _) (acceptWeight e q) = _ - mapSum s.myAccepts _
  rw [hmoney]
  by_cases h : seller = e ∧ p = q <;> simp [h, hu] at hsum ⊢ <;> omega

/-- **Reserve and accepts change together**, if payments compute no negative purchase. -/
theorem Step.acceptSlack_eq (hclean : ∀ a, c.Addr a → CleanAddress a) (hfits : c.Fits)
    (hs : s.AcceptsOk) (h : Step c s s') (e : Address) (q : PropertyId) :
    s'.acceptSlack e q = s.acceptSlack e q := by
  cases h with
  | aux | offerPut | offerErase | createManaged | createCrowdsale | changeIssuer => rfl
  | pending | burn => exact acceptSlack_addTally (by decide)
  | revoke => exact acceptSlack_addTally (s := s) (by decide)
  | transfer | offerReserve | offerRelease | orderAdd | orderRemove =>
    exact acceptSlack_move (s := s) (by decide) (by decide)
  | feePaid _ _ _ _ _ hfee => rw [hfee.acceptSlack_eq, acceptSlack_addTally (by decide)]
  | distribute _ hfee => exact hfee.acceptSlack_eq
  | vest => exact acceptSlack_credit (s := s)
  | createFixed => exact acceptSlack_credit (s := s.putNew _ _)
  | grant | closeCrowdsale => exact acceptSlack_credit (s := s.putEntry _ _)
  | participate => exact (acceptSlack_credit (s := s.credit _ _ _)).trans acceptSlack_credit
  | orderFill hfee =>
    refine Eq.trans ?_ hfee.acceptSlack_eq
    refine (acceptSlack_addTally (s := (State.addTally _ _ _ _ _)) (by decide)).trans ?_
    exact (acceptSlack_addTally (by decide)).trans (acceptSlack_move (by decide) (by decide))
  | acceptOpen haddr _ hnone => exact acceptSlack_open (hclean _ haddr.2) (hclean _ haddr.1) hnone
  | acceptPay hget =>
    obtain ⟨-, hseller, hbuyer, -⟩ := hs.of_accept hget
    exact acceptSlack_reduce hseller hbuyer hget (by decide)
  | acceptPaid hget =>
    obtain ⟨-, hseller, hbuyer, -⟩ := hs.of_accept hget
    exact acceptSlack_close hseller hbuyer hget (by decide)
  | acceptGrow hunfit => exact absurd hfits hunfit
  | acceptEnd hkey hparse hget ht =>
    obtain ⟨-, hseller, hbuyer, -⟩ := hs.of_accept hget
    rw [hs.get_of_parse hkey hparse]
    refine acceptSlack_close hseller hbuyer hget ?_
    rcases ht with rfl | ⟨rfl, -⟩ <;> decide
  | @acceptDrop key _ _ _ hparse hgone =>
    -- a stored accept is found under the parts of its key, so there is nothing to drop
    have hnone : s.myAccepts[key]? = none := by
      rw [Option.eq_none_iff_forall_ne_some]
      intro accept hget
      have hkey := hs.get_of_parse hget hparse
      have hpos := (hs.accepts key accept hget).1
      rw [hkey] at hget
      have := hgone accept hget
      omega
    unfold acceptSlack acceptSum
    change _ - mapSum (s.myAccepts.erase key) _ = _
    rw [erase_eq_self hnone]

/-! ### The reserve for offers -/

/-- Nothing is reserved where there is no offer. -/
def State.OffersOk (s : State) : Prop :=
  ∀ a p, s.dexGetOffer a p = none → s.money a p .SELLOFFER_RESERVE = 0

namespace State.OffersOk

theorem congr (hs : s.OffersOk) (hoffers : s'.myOffers = s.myOffers)
    (hmoney : ∀ a p, s'.money a p .SELLOFFER_RESERVE = s.money a p .SELLOFFER_RESERVE) :
    s'.OffersOk := by
  intro a p hnone
  rw [hmoney]
  refine hs a p ?_
  rwa [dexGetOffer, hoffers] at hnone

theorem of_tallies (hs : s.OffersOk) (hoffers : s'.myOffers = s.myOffers)
    (htallies : s'.mpTallyMap = s.mpTallyMap) : s'.OffersOk :=
  hs.congr hoffers fun a p => money_congr htallies a p _

theorem move_other {p : PropertyId} {n : Int} {a b : Address} {t u : TallyType} (hs : s.OffersOk)
    (_ : s.CanMove p n a t b u) (ht : t ≠ .SELLOFFER_RESERVE) (hu : u ≠ .SELLOFFER_RESERVE) :
    (s.move p n a t b u).OffersOk :=
  hs.congr rfl fun e q => by simp [money_move, ht, hu]

theorem move_out {p : PropertyId} {n : Int} {a b : Address} {u : TallyType} (hs : s.OffersOk)
    (hmove : s.CanMove p n a .SELLOFFER_RESERVE b u) (hu : u ≠ .SELLOFFER_RESERVE) :
    (s.move p n a .SELLOFFER_RESERVE b u).OffersOk := by
  intro e q hnone
  have hzero := hs e q hnone
  have hne : ¬(a = e ∧ p = q) := by
    rintro ⟨rfl, rfl⟩
    have := hmove.enough
    have := hmove.pos
    omega
  rw [money_move]
  simp [hu, hzero, hne]

theorem move_in {p : PropertyId} {n : Int} {a b : Address} {t : TallyType} (hs : s.OffersOk)
    (_ : s.CanMove p n a t b .SELLOFFER_RESERVE) (ht : t ≠ .SELLOFFER_RESERVE)
    (hoffer : (s.dexGetOffer b p).isSome) :
    (s.move p n a t b .SELLOFFER_RESERVE).OffersOk := by
  intro e q hnone
  have hne : ¬(b = e ∧ p = q) := by
    rintro ⟨rfl, rfl⟩
    exact absurd hnone (Option.isSome_iff_ne_none.mp hoffer)
  rw [money_move]
  simp [ht, hs e q hnone, hne]

theorem credit {p : PropertyId} {n : Int} {a : Address} (hs : s.OffersOk) :
    (s.credit a p n).OffersOk :=
  hs.congr rfl fun e q => by simp [money_credit]

theorem addTally {p : PropertyId} {n : Int} {a : Address} {t : TallyType} (hs : s.OffersOk)
    (ht : t ≠ .SELLOFFER_RESERVE) : (s.addTally a p n t).OffersOk :=
  hs.congr rfl fun e q => by simp [money_addTally, ht]

theorem fee {p : PropertyId} {fee : Int} (hs : s.OffersOk) (hfee : FeeStep c p fee s s') :
    s'.OffersOk :=
  hs.congr hfee.myOffers_eq fun e q => hfee.money_of_ne e q (by decide)

/-- **Nothing stays reserved without an offer.** -/
theorem step (hrange : s.InRange) (hs : s.OffersOk) (h : Step c s s') : s'.OffersOk := by
  cases h with
  | aux | acceptGrow | acceptDrop | createManaged | createCrowdsale | changeIssuer =>
    exact hs.of_tallies rfl rfl
  | pending | burn => exact hs.addTally (by decide)
  | @revoke p _ n a =>
    exact (hs.addTally (p := p) (n := -n) (a := a) (t := .BALANCE) (by decide)).of_tallies rfl rfl
  | transfer hmove => exact hs.move_other hmove (by decide) (by decide)
  | orderAdd hmove | orderRemove _ hmove | acceptPay _ _ hmove | acceptPaid _ hmove =>
    exact (hs.move_other hmove (by decide) (by decide)).of_tallies rfl rfl
  | feePaid _ _ _ _ _ hfee => exact (hs.addTally (by decide)).fee hfee
  | distribute _ hfee => exact hs.fee hfee
  | vest => exact hs.credit.of_tallies rfl rfl
  | createFixed => exact credit (s := s.putNew _ _) (hs.of_tallies rfl rfl)
  | grant => exact credit (s := s.putEntry _ _) (hs.of_tallies rfl rfl)
  | closeCrowdsale =>
    exact (credit (s := s.putEntry _ _) (hs.of_tallies rfl rfl)).of_tallies rfl rfl
  | participate => exact hs.credit.credit.of_tallies rfl rfl
  | @orderFill _ _ order buyer _ got fee hfee _ _ _ _ _ _ hpay =>
    have hpaid := (hs.fee hfee).move_other hpay (by decide) (by decide)
    have hsold := hpaid.addTally (p := order.property) (n := -got) (a := order.addr)
      (t := .METADEX_RESERVE) (by decide)
    have hbought := hsold.addTally (p := order.property) (n := got - fee) (a := buyer)
      (t := .BALANCE) (by decide)
    exact hbought.of_tallies rfl rfl
  | offerPut a p offer =>
    intro e q hnone
    refine hs e q ?_
    by_cases hkey : sellofferKey a p = sellofferKey e q
    · simp [dexGetOffer, hkey] at hnone
    · rwa [dexGetOffer, getElem?_insert_of_ne hkey] at hnone
  | offerReserve hmove _ hoffer => exact hs.move_in hmove (by decide) hoffer
  | offerRelease hmove => exact hs.move_out hmove (by decide)
  | acceptOpen _ _ _ hmove => exact (hs.move_out hmove (by decide)).of_tallies rfl rfl
  | offerErase a p hempty =>
    intro e q hnone
    by_cases hkey : sellofferKey a p = sellofferKey e q
    · obtain ⟨rfl, rfl⟩ := sellofferKey_injective hkey
      exact Int.le_antisymm hempty (hrange a p _ (by decide)).1
    · refine hs e q ?_
      rwa [dexGetOffer, getElem?_erase_of_ne hkey] at hnone
  | acceptEnd _ _ _ ht hmove =>
    rcases ht with rfl | ⟨rfl, hoffer⟩
    · exact (hs.move_other hmove (by decide) (by decide)).of_tallies rfl rfl
    · exact (hs.move_in hmove (by decide) hoffer).of_tallies rfl rfl

end State.OffersOk

end HcOmni
