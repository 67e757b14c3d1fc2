import HcOmni.Ledger.Steps

/-!
# What no step touches, and what every step keeps in range

The freeze sets and the consensus parameters are left alone by every step, amounts stay in
range, and the balance of a frozen address is never debited.
-/

namespace HcOmni

open Std MapSum Program CMPTally State

/-! ### Credits -/

namespace State

theorem credit_of_pos {s : State} {who : Address} {p : PropertyId} {n : Int} (h : 0 < n) :
    s.credit who p n = s.addTally who p n .BALANCE := by
  simp [credit, h, addTally]

theorem credit_of_nonpos {s : State} {who : Address} {p : PropertyId} {n : Int} (h : ¬0 < n) :
    s.credit who p n = s := by
  simp [credit, h]

theorem money_credit (s : State) (who a : Address) (p q : PropertyId) (n : Int) (t : TallyType) :
    (s.credit who p n).money a q t =
      s.money a q t + if 0 < n ∧ who = a ∧ p = q ∧ t = .BALANCE then n else 0 := by
  by_cases h : 0 < n
  · simp [credit_of_pos h, h, money_addTally, eq_comm]
  · simp [credit_of_nonpos h, h]

theorem held_credit (s : State) (who : Address) (p q : PropertyId) {n : Int} (hn : 0 ≤ n) :
    (s.credit who p n).held q = s.held q + if p = q then n else 0 := by
  by_cases h : 0 < n
  · simp [credit_of_pos h, held_addTally]
  · have hzero : n = 0 := by omega
    rw [credit_of_nonpos h, hzero]
    simp

theorem InRange.credit {s : State} {who : Address} {p : PropertyId} {n : Int} (h : s.InRange)
    (hroom : s.CanCredit who p n) : (s.credit who p n).InRange := by
  by_cases hn : 0 < n
  · rw [credit_of_pos hn]
    refine h.addTally fun ht => ⟨?_, hroom hn⟩
    have := h who p .BALANCE ht
    omega
  · rw [credit_of_nonpos hn]
    exact h

end State

/-! ### Fees -/

namespace FeeStep

variable {c : Ctx} {p : PropertyId} {fee : Int} {s s' : State} (hfee : FeeStep c p fee s s')

include hfee

theorem metadex_eq : s'.metadex = s.metadex := by rw [hfee.frame]

theorem myOffers_eq : s'.myOffers = s.myOffers := by rw [hfee.frame]

theorem myAccepts_eq : s'.myAccepts = s.myAccepts := by rw [hfee.frame]

theorem myCrowds_eq : s'.myCrowds = s.myCrowds := by rw [hfee.frame]

theorem mySps_eq : s'.mySps = s.mySps := by rw [hfee.frame]

theorem setFrozenAddresses_eq : s'.setFrozenAddresses = s.setFrozenAddresses := by
  rw [hfee.frame]

theorem inRange (h : s.InRange) : s'.InRange := by
  intro a q t ht
  have hold := h a q t ht
  rcases hfee.credited a q t with heq | ⟨-, -, hge, hmax⟩ <;> omega

theorem money_of_ne (a : Address) (q : PropertyId) {t : TallyType} (ht : t ≠ .BALANCE) :
    s'.money a q t = s.money a q t := by
  rcases hfee.credited a q t with heq | ⟨-, hbal, -⟩
  · exact heq
  · exact absurd hbal ht

theorem balance_le (a : Address) (q : PropertyId) :
    s.money a q .BALANCE ≤ s'.money a q .BALANCE := by
  rcases hfee.credited a q .BALANCE with heq | ⟨-, -, hge, -⟩ <;> omega

end FeeStep

/-! ### Freeze sets and parameters -/

variable {c : Ctx} {s s' : State}

theorem Step.setFrozenAddresses_eq (h : Step c s s') :
    s'.setFrozenAddresses = s.setFrozenAddresses := by
  cases h with
  | feePaid _ _ _ _ _ hfee => exact hfee.setFrozenAddresses_eq
  | distribute _ hfee => exact hfee.setFrozenAddresses_eq
  | orderFill hfee => exact hfee.setFrozenAddresses_eq
  | _ => rfl

theorem Step.params_eq (h : Step c s s') : s'.aux.params = s.aux.params := by
  cases h with
  | aux _ hparams => exact hparams
  | feePaid _ _ _ _ _ hfee => exact hfee.params
  | distribute _ hfee => exact hfee.params
  | orderFill hfee => exact hfee.params
  | _ => rfl

/-! ### Amounts -/

/-- **Amounts stay in range.** -/
theorem State.InRange.step (hs : s.InRange) (h : Step c s s') : s'.InRange := by
  cases h with
  | aux | offerPut | offerErase | acceptGrow | acceptDrop | createManaged | createCrowdsale
  | changeIssuer => exact hs
  | pending => exact hs.addTally fun ht => absurd rfl ht
  | transfer hmove | offerReserve hmove | offerRelease hmove => exact hs.move hmove
  | orderAdd hmove | orderRemove _ hmove => exact hs.move hmove
  | acceptOpen _ _ _ hmove | acceptPay _ _ hmove | acceptPaid _ hmove | acceptEnd _ _ _ _ hmove =>
    exact hs.move hmove
  | burn _ hpos henough => exact hs.debit (Int.le_of_lt hpos) henough
  | revoke _ _ _ _ hpos henough => exact hs.debit (Int.le_of_lt hpos) henough
  | feePaid _ _ hpos henough _ hfee =>
    exact hfee.inRange (hs.debit (Int.le_of_lt hpos) henough)
  | distribute _ hfee => exact hfee.inRange hs
  | vest _ _ _ hcredited =>
    rcases hcredited with ⟨rfl, hroom⟩ | rfl
    · exact hs.credit hroom
    · exact hs.credit fun hpos => absurd hpos (by decide)
  | orderFill hfee _ hnonneg hlt _ _ _ hpay henough hroom =>
    have hpaid := (hfee.inRange hs).move hpay
    have hdebit := hpaid.debit (by omega) henough
    refine hdebit.addTally fun ht => ⟨?_, hroom⟩
    exact Int.add_nonneg (hdebit _ _ _ ht).1 (by omega)
  | createFixed _ _ _ _ _ _ _ _ hroom => exact InRange.credit (s := s.putNew _ _) hs hroom
  | grant _ _ _ _ _ _ _ hroom => exact InRange.credit (s := s.putEntry _ _) hs hroom
  | participate _ _ _ _ _ _ hroom hroom' => exact (hs.credit hroom).credit hroom'
  | closeCrowdsale _ _ _ _ _ _ _ _ hroom => exact InRange.credit (s := s.putEntry _ _) hs hroom

theorem State.balance_le_move {s : State} {p q : PropertyId} {n : Int} {a b e : Address}
    {t u : TallyType} (hmove : s.CanMove p n a t b u)
    (hother : ¬(a = e ∧ p = q ∧ t = .BALANCE)) :
    s.money e q .BALANCE ≤ (s.move p n a t b u).money e q .BALANCE := by
  have hpos := hmove.pos
  rw [money_move, if_neg hother]
  split <;> omega

theorem State.balance_le_credit (s : State) (who a : Address) (p q : PropertyId) (n : Int) :
    s.money a q .BALANCE ≤ (s.credit who p n).money a q .BALANCE := by
  rw [money_credit]
  split <;> omega

/-- **Frozen balances do not decrease.**  Every debit of a balance is guarded by the freeze
set. -/
theorem Step.frozen_balance_le {e : Address} {q : PropertyId} (h : Step c s s')
    (he : s.isAddressFrozen e q = true) : s.money e q .BALANCE ≤ s'.money e q .BALANCE := by
  have hne : ∀ {a : Address} {p : PropertyId}, s.isAddressFrozen a p = false →
      ¬(a = e ∧ p = q ∧ TallyType.BALANCE = .BALANCE) := by
    rintro a p ha ⟨rfl, rfl, -⟩
    exact absurd (he.symm.trans ha) (by decide)
  cases h with
  | aux | offerPut | offerErase | acceptGrow | acceptDrop | createManaged | createCrowdsale
  | changeIssuer => exact le_rfl
  | pending => simp [money_addTally]
  | transfer hmove hfrozen | offerReserve hmove hfrozen => exact balance_le_move hmove (hne hfrozen)
  | orderAdd hmove hfrozen => exact balance_le_move hmove (hne hfrozen)
  | offerRelease hmove => exact balance_le_move hmove (by simp)
  | orderRemove _ hmove | acceptOpen _ _ _ hmove | acceptPay _ _ hmove | acceptPaid _ hmove
  | acceptEnd _ _ _ _ hmove => exact balance_le_move hmove (by simp)
  | burn _ _ _ hfrozen =>
    rw [money_addTally, if_neg (hne hfrozen)]
    omega
  | revoke _ _ _ _ _ _ hfrozen =>
    change _ ≤ (s.addTally _ _ _ _).money e q .BALANCE
    rw [money_addTally, if_neg (hne hfrozen)]
    omega
  | feePaid _ _ _ _ hfrozen hfee =>
    have hle := hfee.balance_le e q
    rw [money_addTally, if_neg (hne hfrozen)] at hle
    omega
  | distribute _ hfee => exact hfee.balance_le e q
  | vest => exact balance_le_credit s _ _ _ _ _
  | orderFill hfee _ hnonneg hlt _ _ hfrozen hpay henough hroom =>
    refine (hfee.balance_le e q).trans ((balance_le_move hpay (hne hfrozen)).trans ?_)
    change _ ≤ ((State.addTally _ _ _ _ _).addTally _ _ _ _).money e q .BALANCE
    rw [money_addTally, money_addTally]
    simp only [reduceCtorEq, and_false, if_false]
    split <;> omega
  | createFixed | grant | closeCrowdsale => exact balance_le_credit (State.mk ..) _ _ _ _ _
  | participate =>
    exact (balance_le_credit s _ _ _ _ _).trans (balance_le_credit (s.credit _ _ _) _ _ _ _ _)

end HcOmni
