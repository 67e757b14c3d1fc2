import HcOmni.Ledger.Accepts

/-!
# Properties 1 and 2 without tokens

The tokens of properties 1 and 2 come from the start of the chain and from vesting, and from
nowhere else.  Where neither has provided any, there are none to offer, so no accept is ever
opened and the classic exchange stays empty.
-/

namespace HcOmni

open Std MapSum Program CMPTally State

variable {c : Ctx} {s s' : State}

/-- The counter has been through all identifiers, or is past those of properties 1 and 2. -/
def PastBase (spid : PropertyId) : Prop := spid = 0 ∨ 3 ≤ spid ∧ spid < 2 ^ 32

theorem PastBase.next {spid : PropertyId} (h : PastBase spid) (hpos : 0 < spid) :
    PastBase ((spid + 1) % 2 ^ 32) := by
  unfold PastBase at *
  lia

/-- There are no tokens of properties 1 and 2, and nothing from which there could be some. -/
structure State.NoBase (s : State) : Prop where
  money : ∀ a p t, p = 1 ∨ p = 2 → t ≠ .PENDING → s.money a p t = 0
  cached : ∀ p, p = 1 ∨ p = 2 → s.getCachedAmount p = 0
  main : PastBase s.mySps.nextSpid
  test : PastBase s.mySps.nextTestSpid
  crowds : ∀ (a : Address) (crowd : CMPCrowd), s.myCrowds[a]? = some crowd →
    crowd.propertyId ≠ 1 ∧ crowd.propertyId ≠ 2
  offers : ∀ key offer, s.myOffers[key]? = some offer →
    ∃ a p, key = sellofferKey a p ∧ (p = 1 ∨ p = 2)
  accepts : s.myAccepts = ∅

namespace State.NoBase

theorem congr (hs : s.NoBase)
    (hmoney : ∀ a p t, p = 1 ∨ p = 2 → t ≠ .PENDING → s'.money a p t = s.money a p t)
    (hcache : ∀ p, p = 1 ∨ p = 2 → s'.getCachedAmount p = s.getCachedAmount p)
    (hmain : s'.mySps.nextSpid = s.mySps.nextSpid)
    (htest : s'.mySps.nextTestSpid = s.mySps.nextTestSpid) (hcrowds : s'.myCrowds = s.myCrowds)
    (hoffers : s'.myOffers = s.myOffers) (haccepts : s'.myAccepts = s.myAccepts) : s'.NoBase where
  money a p t hp ht := (hmoney a p t hp ht).trans (hs.money a p t hp ht)
  cached p hp := (hcache p hp).trans (hs.cached p hp)
  main := hmain ▸ hs.main
  test := htest ▸ hs.test
  crowds := hcrowds ▸ hs.crowds
  offers := hoffers ▸ hs.offers
  accepts := haccepts.trans hs.accepts

theorem of_money (hs : s.NoBase)
    (hmoney : ∀ a p t, p = 1 ∨ p = 2 → t ≠ .PENDING → s'.money a p t = s.money a p t)
    (hframe : s' = { s with mpTallyMap := s'.mpTallyMap }) : s'.NoBase :=
  hs.congr hmoney (fun p _ => by rw [hframe]; rfl) (by rw [hframe]) (by rw [hframe])
    (by rw [hframe]) (by rw [hframe]) (by rw [hframe])

theorem ne_of_money (hs : s.NoBase) {a : Address} {p : PropertyId} {t : TallyType} {n : Int}
    (ht : t ≠ .PENDING) (hpos : 0 < n) (henough : n ≤ s.money a p t) : ¬(p = 1 ∨ p = 2) := by
  intro hp
  rw [hs.money a p t hp ht] at henough
  omega

theorem addTally {a : Address} {p : PropertyId} {n : Int} {t : TallyType} (hs : s.NoBase)
    (hp : t ≠ .PENDING → ¬(p = 1 ∨ p = 2)) : (s.addTally a p n t).NoBase := by
  refine hs.of_money (fun b q u hq hu => ?_) rfl
  rw [money_addTally, if_neg, Int.add_zero]
  rintro ⟨-, rfl, rfl⟩
  exact hp hu hq

theorem credit {a : Address} {p : PropertyId} {n : Int} (hs : s.NoBase)
    (hp : p ≠ 1 ∧ p ≠ 2) : (s.credit a p n).NoBase := by
  refine hs.of_money (fun b q u hq hu => ?_) rfl
  rw [money_credit, if_neg, Int.add_zero]
  rintro ⟨-, -, rfl, -⟩
  exact hq.elim hp.1 hp.2

theorem move {p : PropertyId} {n : Int} {a b : Address} {t u : TallyType} (hs : s.NoBase)
    (hmove : s.CanMove p n a t b u) (ht : t ≠ .PENDING) : (s.move p n a t b u).NoBase := by
  have hp := hs.ne_of_money ht hmove.pos hmove.enough
  exact (hs.addTally fun _ => hp).addTally fun _ => hp

theorem fee {p : PropertyId} {fee : Int} (hs : s.NoBase) (hfee : FeeStep c p fee s s')
    (hzero : fee = 0 ∨ ¬(p = 1 ∨ p = 2)) : s'.NoBase := by
  refine hs.congr (fun a q t hq ht => ?_) (fun q hq => ?_) (by rw [hfee.mySps_eq])
    (by rw [hfee.mySps_eq]) hfee.myCrowds_eq hfee.myOffers_eq hfee.myAccepts_eq
  · by_cases hqp : q = p
    · subst hqp
      have hidle := hfee.idle (hzero.resolve_right (not_not.mpr hq)) (hs.cached q hq)
      exact money_congr hidle.1 a q t
    · exact (hfee.credited a q t).resolve_right fun h => hqp h.1
  · by_cases hqp : q = p
    · subst hqp
      rw [hs.cached q hq]
      exact (hfee.idle (hzero.resolve_right (not_not.mpr hq)) (hs.cached q hq)).2
    · exact hfee.other q hqp

theorem no_offer_reserve (hs : s.NoBase) {a : Address} {p : PropertyId}
    (hoffer : (s.dexGetOffer a p).isSome) : s.money a p .SELLOFFER_RESERVE = 0 := by
  obtain ⟨offer, hget⟩ := Option.isSome_iff_exists.mp hoffer
  obtain ⟨a', p', hkey, hp⟩ := hs.offers _ offer hget
  obtain ⟨-, rfl⟩ := sellofferKey_injective hkey
  exact hs.money a p _ hp (by decide)

theorem no_accept (hs : s.NoBase) {seller buyer : Address} {p : PropertyId} {accept : CMPAccept}
    (hget : s.dexGetAccept seller p buyer = some accept) : False := by
  rw [dexGetAccept, hs.accepts] at hget
  simp at hget

theorem peek_ne (hs : s.NoBase) {ecosystem : Nat} (heco : ecosystem = 1 ∨ ecosystem = 2)
    (hid : 0 < s.mySps.peekNextSPID ecosystem) :
    s.mySps.peekNextSPID ecosystem ≠ 1 ∧ s.mySps.peekNextSPID ecosystem ≠ 2 := by
  have hpast : PastBase (s.mySps.peekNextSPID ecosystem) := by
    rcases heco with rfl | rfl
    · exact hs.main
    · exact hs.test
  unfold PastBase at hpast
  lia

theorem putNew (hs : s.NoBase) {ecosystem : Nat} {info : Entry}
    (heco : ecosystem = 1 ∨ ecosystem = 2) (hid : 0 < s.mySps.peekNextSPID ecosystem) :
    (s.putNew ecosystem info).NoBase := by
  refine ⟨hs.money, hs.cached, ?_, ?_, hs.crowds, hs.offers, hs.accepts⟩
  · rcases heco with rfl | rfl
    · exact hs.main.next hid
    · exact hs.main
  · rcases heco with rfl | rfl
    · exact hs.test
    · exact hs.test.next hid

theorem putEntry (hs : s.NoBase) {p : PropertyId} {info : Entry} : (s.putEntry p info).NoBase := by
  refine hs.congr (fun _ _ _ _ _ => rfl) (fun _ _ => rfl) ?_ ?_ rfl rfl rfl
  all_goals
    unfold State.putEntry CMPSPInfo.updateSP
    split <;> rfl

theorem setCrowds (hs : s.NoBase) {crowds : ExtTreeMap Address CMPCrowd compare}
    (hcrowds : ∀ (a : Address) (crowd : CMPCrowd), crowds[a]? = some crowd →
      crowd.propertyId ≠ 1 ∧ crowd.propertyId ≠ 2) : { s with myCrowds := crowds }.NoBase :=
  ⟨hs.money, hs.cached, hs.main, hs.test, hcrowds, hs.offers, hs.accepts⟩

theorem insertCrowd (hs : s.NoBase) {a : Address} {crowd : CMPCrowd}
    (hcrowd : crowd.propertyId ≠ 1 ∧ crowd.propertyId ≠ 2) :
    { s with myCrowds := s.myCrowds.insert a crowd }.NoBase := by
  refine hs.setCrowds fun b e hget => ?_
  rcases getElem?_of_insert hget with ⟨-, rfl⟩ | ⟨-, hold⟩
  · exact hcrowd
  · exact hs.crowds b e hold

/-- **Without vesting, properties 1 and 2 stay without tokens.** -/
theorem step (hvests : ¬c.Vests) (hs : s.NoBase) (h : Step c s s') : s'.NoBase := by
  cases h with
  | aux => exact hs.congr (fun _ _ _ _ _ => rfl) (fun _ _ => rfl) rfl rfl rfl rfl rfl
  | pending => exact hs.addTally fun h => absurd rfl h
  | transfer hmove => exact hs.move hmove (by decide)
  | burn hp hpos henough => exact absurd hp (hs.ne_of_money (by decide) hpos henough)
  | feePaid _ hp hpos henough => exact absurd hp (hs.ne_of_money (by decide) hpos henough)
  | distribute _ hfee hzero => exact hs.fee hfee (hzero.imp_right fun h => by lia)
  | vest hv => exact absurd hv hvests
  | orderAdd hmove | orderRemove _ hmove =>
    exact (hs.move hmove (by decide)).congr (fun _ _ _ _ _ => rfl) (fun _ _ => rfl) rfl rfl rfl
      rfl rfl
  | @orderFill s₀ _ order buyer paid got fee hfee _ hnonneg hlt _ _ _ hpay henough =>
    have hproperty : ¬(order.property = 1 ∨ order.property = 2) := by
      refine hs.ne_of_money (a := order.addr) (t := .METADEX_RESERVE) (n := got) (by decide)
        (by omega) ?_
      rw [money_move] at henough
      simpa [hfee.money_of_ne] using henough
    have hpaid := (hs.fee hfee (.inr hproperty)).move hpay (by decide)
    have hsold := hpaid.addTally (a := order.addr) (n := -got) (t := .METADEX_RESERVE)
      fun _ => hproperty
    have hbought := hsold.addTally (a := buyer) (n := got - fee) (t := .BALANCE)
      fun _ => hproperty
    exact hbought.congr (fun _ _ _ _ _ => rfl) (fun _ _ => rfl) rfl rfl rfl rfl rfl
  | offerPut a p offer hp =>
    refine ⟨hs.money, hs.cached, hs.main, hs.test, hs.crowds, fun key e hget => ?_, hs.accepts⟩
    rcases getElem?_of_insert hget with ⟨rfl, -⟩ | ⟨-, hold⟩
    · exact ⟨a, p, rfl, hp⟩
    · exact hs.offers key e hold
  | offerReserve hmove => exact hs.move hmove (by decide)
  | offerRelease hmove => exact hs.move hmove (by decide)
  | offerErase =>
    exact ⟨hs.money, hs.cached, hs.main, hs.test, hs.crowds,
      fun key e hget => hs.offers key e (getElem?_of_erase hget).2, hs.accepts⟩
  | acceptOpen _ hoffer _ hmove =>
    have hpos := hmove.pos
    have henough := hmove.enough
    rw [hs.no_offer_reserve hoffer] at henough
    omega
  | acceptPay hget | acceptPaid hget => exact (hs.no_accept hget).elim
  | acceptGrow _ hget => exact (hs.no_accept hget).elim
  | acceptEnd _ _ hget => exact (hs.no_accept hget).elim
  | acceptDrop =>
    refine ⟨hs.money, hs.cached, hs.main, hs.test, hs.crowds, hs.offers, ?_⟩
    simp [hs.accepts]
  | createFixed heco hid => exact (hs.putNew heco hid).credit (hs.peek_ne heco hid)
  | createManaged heco hid => exact hs.putNew heco hid
  | createCrowdsale heco hid _ _ _ _ _ _ hproperty =>
    exact (hs.putNew heco hid).insertCrowd (hproperty ▸ hs.peek_ne heco hid)
  | grant _ hp => exact hs.putEntry.credit hp
  | revoke _ hp => exact (hs.addTally fun _ h => h.elim hp.1 hp.2).putEntry
  | changeIssuer => exact hs.putEntry
  | participate hcrowd =>
    have hne := hs.crowds _ _ hcrowd
    exact ((hs.credit hne).credit hne).insertCrowd hne
  | closeCrowdsale hcrowd =>
    have hne := hs.crowds _ _ hcrowd
    exact (hs.putEntry.credit hne).setCrowds fun b e hget =>
      hs.crowds b e (getElem?_of_erase hget).2

end State.NoBase

end HcOmni
