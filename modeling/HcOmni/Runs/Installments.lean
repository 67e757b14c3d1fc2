import HcOmni.Lib.Rounding
import HcOmni.Runs.Payments

/-!
# Paying an accept in installments

A buyer may pay an accept in any number of payments.  Every payment buys tokens at the price of the
offer, rounded up, as long as the accept has some left.  The amount that is shown to the buyer is
rounded up as well.  The roundings do not disagree: whoever has paid that amount has got everything.
-/

namespace HcOmni

open Std MapSum Program CMPTally State Rounding

variable {env : Env} {s s' start : State} {seller buyer : Address} {p : PropertyId}
  {accept : CMPAccept} {paid block purchased : Int} {txid : Hash} {vout : Nat}

/-! ### The two conversions -/

/-- What is sold and its price are positive amounts. -/
structure CMPAccept.Priced (accept : CMPAccept) : Prop where
  offered : 0 < accept.offerAmountOriginal ∧ accept.offerAmountOriginal ≤ MAX_INT_8_BYTES
  desired : 0 < accept.btcDesiredOriginal ∧ accept.btcDesiredOriginal ≤ MAX_INT_8_BYTES

/-- The tokens that a payment buys at the price of the accept. -/
def CMPAccept.bought (accept : CMPAccept) (paid : Int) : Int :=
  ⌈(paid : ℚ) * accept.offerAmountOriginal / accept.btcDesiredOriginal⌉

theorem CMPAccept.bought_eq_cost (accept : CMPAccept) : accept.bought =
    cost ((accept.offerAmountOriginal : ℚ) / accept.btcDesiredOriginal) := by
  funext paid
  rw [bought, cost, mul_div_assoc]

namespace CMPAccept.Priced

variable (h : accept.Priced)

include h

theorem fitTerms : FitTerms accept.offerAmountOriginal accept.btcDesiredOriginal :=
  ⟨h.offered.1, h.offered.2, h.desired.2⟩

theorem bought_le_iff {bound : Int} : accept.bought paid ≤ bound ↔
    paid * accept.offerAmountOriginal ≤ bound * accept.btcDesiredOriginal := by
  rw [bought_eq_cost]
  exact cost_div_le_iff h.desired.1

theorem bought_nonneg (hpaid : 0 ≤ paid) : 0 ≤ accept.bought paid := by
  refine Int.ceil_nonneg (div_nonneg (mul_nonneg ?_ ?_) ?_)
  · exact Int.cast_nonneg hpaid
  · exact Int.cast_nonneg h.offered.1.le
  · exact Int.cast_nonneg h.desired.1.le

theorem reads_calculateDExPurchase {E : Halt → Prop} (hpaid : 0 ≤ paid ∧ paid ≤ MAX_INT_8_BYTES)
    (hfits : accept.bought paid ≤ MAX_INT_8_BYTES) :
    Reads (calculateDExPurchase accept.offerAmountOriginal accept.btcDesiredOriginal paid)
      (fun r => r = accept.bought paid) E s := by
  have hoffered : 0 ≤ accept.offerAmountOriginal ∧ accept.offerAmountOriginal ≤ MAX_INT_8_BYTES :=
    ⟨h.offered.1.le, h.offered.2⟩
  have hdesired : 0 ≤ accept.btcDesiredOriginal ∧ accept.btcDesiredOriginal ≤ MAX_INT_8_BYTES :=
    ⟨h.desired.1.le, h.desired.2⟩
  refine .bind (reads_convertTo256_of_nonneg hoffered.1) fun _ h₁ =>
    .bind (reads_convertTo256_of_nonneg hdesired.1) fun _ h₂ =>
      .bind (reads_convertTo256_of_nonneg hpaid.1) fun _ h₃ => ?_
  subst h₁ h₂ h₃
  refine .bind (reads_divideAndRoundUp_amounts hpaid hoffered hdesired h.desired.1 fun _ =>
    h.bought_le_iff) fun purchased hpurchased => ?_
  refine (reads_convertTo64_of_le (by omega)).mono fun r hr => ?_
  rw [hr, hpurchased]

theorem reads_calculateDesiredBTC {E : Halt → Prop} {amount : Int}
    (hamount : 0 ≤ amount ∧ amount ≤ accept.offerAmountOriginal) :
    Reads (calculateDesiredBTC accept.offerAmountOriginal accept.btcDesiredOriginal amount)
      (fun r => r = cost ((accept.btcDesiredOriginal : ℚ) / accept.offerAmountOriginal) amount)
      E s := by
  have hoffered : 0 ≤ accept.offerAmountOriginal ∧ accept.offerAmountOriginal ≤ MAX_INT_8_BYTES :=
    ⟨h.offered.1.le, h.offered.2⟩
  have hdesired : 0 ≤ accept.btcDesiredOriginal ∧ accept.btcDesiredOriginal ≤ MAX_INT_8_BYTES :=
    ⟨h.desired.1.le, h.desired.2⟩
  have hamount' : 0 ≤ amount ∧ amount ≤ MAX_INT_8_BYTES :=
    ⟨hamount.1, hamount.2.trans hoffered.2⟩
  have hcost : ∀ bound,
      cost ((accept.btcDesiredOriginal : ℚ) / accept.offerAmountOriginal) amount ≤ bound ↔
        accept.btcDesiredOriginal * amount ≤ bound * accept.offerAmountOriginal := by
    intro bound
    rw [cost_div_le_iff h.offered.1, Int.mul_comm amount]
  -- a part of the offer costs no more than all of it
  have hfits : cost ((accept.btcDesiredOriginal : ℚ) / accept.offerAmountOriginal) amount ≤
      MAX_INT_8_BYTES :=
    ((hcost _).mpr (Int.mul_le_mul_of_nonneg_left hamount.2 hdesired.1)).trans hdesired.2
  unfold calculateDesiredBTC
  rw [if_neg (ne_of_gt h.offered.1)]
  refine .bind (reads_convertTo256_of_nonneg hoffered.1) fun _ h₁ =>
    .bind (reads_convertTo256_of_nonneg hdesired.1) fun _ h₂ =>
      .bind (reads_convertTo256_of_nonneg hamount.1) fun _ h₃ => ?_
  subst h₁ h₂ h₃
  refine .bind (reads_divideAndRoundUp_amounts hdesired hamount' hoffered h.offered.1 hcost)
    fun desired hpayable => ?_
  refine (reads_convertTo64_of_le (by omega)).mono fun r hr => ?_
  rw [hr, hpayable]

end CMPAccept.Priced

/-! ### What a payment does -/

/-- The tokens have changed hands, and the accept holds so much less. -/
structure TokensSold (seller buyer : Address) (p : PropertyId) (accept : CMPAccept) (purchased : Int)
    (s s' : State) : Prop where
  credited : s'.money buyer p .BALANCE = s.money buyer p .BALANCE + purchased
  released : s'.money seller p .ACCEPT_RESERVE = s.money seller p .ACCEPT_RESERVE - purchased
  remains : s'.dexGetAccept seller p buyer =
    if purchased < accept.acceptAmountRemaining then
      some { accept with acceptAmountRemaining := accept.acceptAmountRemaining - purchased }
    else none
  other : ∀ q, q ≠ p → s'.dexGetAccept seller q buyer = s.dexGetAccept seller q buyer

theorem acceptKey_ne_of_property {q : PropertyId} (hq : q ≠ p) :
    acceptKey seller buyer p ≠ acceptKey seller buyer q := by
  intro heq
  have htail := List.append_cancel_left heq
  rw [List.cons.injEq] at htail
  exact hq (Text.decimal_injective (List.append_cancel_right htail.2)).symm

/-- The tokens have been moved, and the accepts not been touched yet. -/
structure Moved (seller buyer : Address) (p : PropertyId) (purchased : Int) (s s' : State) : Prop where
  credited : s'.money buyer p .BALANCE = s.money buyer p .BALANCE + purchased
  released : s'.money seller p .ACCEPT_RESERVE = s.money seller p .ACCEPT_RESERVE - purchased
  accepts : s'.myAccepts = s.myAccepts

theorem Moved.tokensSold {t : State} (h : Moved seller buyer p purchased s t)
    (htally : s'.mpTallyMap = t.mpTallyMap) {stored : Option CMPAccept}
    (hstored : stored = if purchased < accept.acceptAmountRemaining then
      some { accept with acceptAmountRemaining := accept.acceptAmountRemaining - purchased } else none)
    (hafter : ∀ key : Str, s'.myAccepts[key]? =
      if acceptKey seller buyer p = key then stored else t.myAccepts[key]?) :
    TokensSold seller buyer p accept purchased s s' := by
  have hmoney : ∀ a q v, s'.money a q v = t.money a q v := fun a q v => by
    unfold State.money
    rw [htally]
  refine ⟨by rw [hmoney, h.credited], by rw [hmoney, h.released], ?_, fun q hq => ?_⟩
  · unfold dexGetAccept
    rw [hafter, if_pos rfl, hstored]
  · unfold dexGetAccept
    rw [hafter, if_neg (acceptKey_ne_of_property hq), h.accepts]

theorem moved_move : Moved seller buyer p purchased s
    (s.move p purchased seller .ACCEPT_RESERVE buyer .BALANCE) := by
  refine ⟨?_, ?_, rfl⟩
  · rw [money_move, if_neg (fun h => by cases h.2.2), if_pos ⟨rfl, rfl, rfl⟩, Int.add_zero]
  · rw [money_move, if_pos ⟨rfl, rfl, rfl⟩, if_neg (fun h => by cases h.2.2), Int.add_zero]
    rfl

theorem wp_closeAccept_tokensSold {t : State} {E : Halt → State → Prop}
    (hmoved : Moved seller buyer p purchased s t) :
    wp (do
      modify fun s => { s with
        myAccepts := s.myAccepts.insert (acceptKey seller buyer p)
          { accept with acceptAmountRemaining := accept.acceptAmountRemaining - purchased } }
      if purchased ≥ accept.acceptAmountRemaining then
        let s ← get
        let reserveSell := s.getTokenBalance seller p .SELLOFFER_RESERVE
        let reserveAccept := s.getTokenBalance seller p .ACCEPT_RESERVE
        let _ ← callRc (dexAcceptDestroy buyer seller p true)
        if reserveSell = 0 ∧ reserveAccept = 0 then
          let _ ← callRc (dexOfferDestroy seller p)
          pure ()
        else
          pure ()
      else
        pure ()) (fun _ s' => TokensSold seller buyer p accept purchased s s') E t := by
  refine wp_closeAccept (fun hfull => by dsimp only; omega) (fun hopen => ?_)
    fun hfull u htally hu _ => ?_
  · refine hmoved.tokensSold rfl (if_pos hopen).symm fun key => ?_
    simp only [ExtTreeMap.getElem?_insert, Std.compare_eq_iff_eq]
  · refine hmoved.tokensSold htally (if_neg (by omega)).symm fun key => ?_
    simp only [hu, ExtTreeMap.getElem?_erase, Std.compare_eq_iff_eq]

/-- **What a settlement does**, if the process survives it. -/
theorem dexSettle_tokensSold (hpurchased : 0 ≤ purchased) :
    wp (dexSettle txid vout seller buyer p accept purchased block)
      (fun _ s' => TokensSold seller buyer p accept purchased s s') (Survives fun _ => False) s := by
  unfold dexSettle
  by_cases hpos : purchased > 0
  · rw [if_pos hpos, wp_bind]
    simp only [wp_bind (assertUpdateTallyMap buyer p purchased .BALANCE)]
    refine survives_move (by decide) (by decide) hpurchased fun _ => ?_
    rw [wp_bind, wp_record]
    exact wp_closeAccept_tokensSold ⟨moved_move.credited, moved_move.released, rfl⟩
  · rw [if_neg hpos]
    exact wp_closeAccept_tokensSold ⟨by omega, by omega, rfl⟩

theorem wp_dexPayment_of_alone {Q : Int × Option Int → State → Prop} {E : Halt → State → Prop}
    (hp : p = 1 ∨ p = 2) (hget : s.dexGetAccept seller p buyer = some accept)
    (halone : ∀ q, q = 1 ∨ q = 2 → q ≠ p → s.dexGetAccept seller q buyer = none) :
    wp (dexPayment env txid vout seller buyer paid block) Q E s ↔
      wp (dexPay env txid vout seller buyer p accept paid block) Q E s := by
  unfold dexPayment
  rw [wp_bind, wp_get]
  rcases hp with rfl | rfl
  · have hmain : s.dexGetAccept seller OMNI_PROPERTY_MSC buyer = some accept := hget
    rw [hmain]
    exact Iff.rfl
  · have hmain : s.dexGetAccept seller OMNI_PROPERTY_MSC buyer = none := halone 1 (.inl rfl) (by decide)
    have htest : s.dexGetAccept seller OMNI_PROPERTY_TMSC buyer = some accept := hget
    rw [hmain, htest]
    exact Iff.rfl

/-- **What a payment does**: it buys what its amount is enough for, as far as the accept goes. -/
theorem payment_tokensSold (hp : p = 1 ∨ p = 2) (hpriced : accept.Priced)
    (hremaining : 0 < accept.acceptAmountRemaining)
    (hget : s.dexGetAccept seller p buyer = some accept)
    (halone : ∀ q, q = 1 ∨ q = 2 → q ≠ p → s.dexGetAccept seller q buyer = none)
    (hactive : s.aux.params.isFeatureActivated FEATURE_DEXMATH block = true)
    (hpaid : 0 ≤ paid ∧ paid ≤ MAX_INT_8_BYTES) (hfits : accept.bought paid ≤ MAX_INT_8_BYTES)
    (hstep : step env s (.payment txid vout seller buyer paid block) = some s') :
    TokensSold seller buyer p accept (min accept.acceptAmountRemaining (accept.bought paid)) s s' := by
  refine Keeps.step (I := TokensSold seller buyer p accept _ s) ?_ hstep
  have hbought := hpriced.bought_nonneg hpaid.1
  have hprice : (accept.btcDesiredOriginal == 0) = false := by
    simpa using ne_of_gt hpriced.desired.1
  unfold Keeps Event.exec
  rw [wp_bind, wp_dexPayment_of_alone hp hget halone]
  unfold dexPay dexPurchase
  rw [hprice, rejectIf_false, pure_bind, wp_bind, wp_bind, wp_get, if_pos hactive]
  refine wp_mono (hpriced.reads_calculateDExPurchase (E := fun _ => False) hpaid hfits) ?_
    fun _ _ h => h.2.elim
  rintro purchased _ ⟨rfl, rfl⟩
  -- the amount of the accept is the limit
  have hlimit : (if accept.acceptAmountRemaining < accept.bought paid then accept.acceptAmountRemaining
      else accept.bought paid) = min accept.acceptAmountRemaining (accept.bought paid) := by
    split <;> omega
  dsimp only
  rw [hlimit, wp_bind]
  exact wp_mono (dexSettle_tokensSold (by omega)) (fun _ _ h => h) fun _ _ h hlive => (h hlive).elim

theorem payment_of_none (hnone : ∀ q, q = 1 ∨ q = 2 → s.dexGetAccept seller q buyer = none) :
    step env s (.payment txid vout seller buyer paid block) = some s := by
  have hmain : s.dexGetAccept seller OMNI_PROPERTY_MSC buyer = none := hnone 1 (.inl rfl)
  have htest : s.dexGetAccept seller OMNI_PROPERTY_TMSC buyer = none := hnone 2 (.inr rfl)
  obtain ⟨s', hstep, rfl⟩ : ∃ s', step env s (.payment txid vout seller buyer paid block) = some s' ∧
      s' = s := by
    refine exists_step_of_live ?_
    unfold Event.exec dexPayment
    rw [wp_bind, wp_bind, wp_get, hmain, htest]
    exact ⟨trivial, rfl⟩
  exact hstep

/-! ### Installments -/

section History

variable (env seller buyer p accept)

/-- What has been paid for an accept, with the tokens that the buyer has got for it and those that have
left the reserve of the seller.  Whatever else happens in between leaves the accept alone, and there is
no other one between the two addresses. -/
inductive Installments : State → List Int → Int → Int → Prop
  | start {s : State} (haccept : s.dexGetAccept seller p buyer = some accept)
      (halone : ∀ q, q = 1 ∨ q = 2 → q ≠ p → s.dexGetAccept seller q buyer = none) :
      Installments s [] 0 0
  | other {s s' : State} {payments : List Int} {received released : Int}
      (hpaid : Installments s payments received released)
      (hother : ∀ q, q = 1 ∨ q = 2 → s'.dexGetAccept seller q buyer = s.dexGetAccept seller q buyer) :
      Installments s' payments received released
  | payment {s s' : State} {payments : List Int} {received released amount block : Int} {txid : Hash}
      {vout : Nat} (hpaid : Installments s payments received released)
      (hactive : s.aux.params.isFeatureActivated FEATURE_DEXMATH block = true)
      (hamount : 0 ≤ amount ∧ amount ≤ MAX_INT_8_BYTES)
      (hfits : accept.bought amount ≤ MAX_INT_8_BYTES)
      (hstep : step env s (.payment txid vout seller buyer amount block) = some s') :
      Installments s' (amount :: payments)
        (received + (s'.money buyer p .BALANCE - s.money buyer p .BALANCE))
        (released + (s.money seller p .ACCEPT_RESERVE - s'.money seller p .ACCEPT_RESERVE))

end History

/-- The accept with so many tokens left, or none if there are none left. -/
structure Outstanding (seller buyer : Address) (p : PropertyId) (accept : CMPAccept) (left : Int)
    (s : State) : Prop where
  found : s.dexGetAccept seller p buyer =
    if 0 < left then some { accept with acceptAmountRemaining := left } else none
  alone : ∀ q, q = 1 ∨ q = 2 → q ≠ p → s.dexGetAccept seller q buyer = none

variable {payments : List Int} {received released left : Int}

theorem Outstanding.none_of_le (h : Outstanding seller buyer p accept left s) (hleft : ¬0 < left)
    (q : PropertyId) (hq : q = 1 ∨ q = 2) : s.dexGetAccept seller q buyer = none := by
  by_cases hqp : q = p
  · rw [hqp, h.found, if_neg hleft]
  · exact h.alone q hq hqp

theorem Outstanding.payment (h : Outstanding seller buyer p accept left s) (hleft : 0 ≤ left)
    (hp : p = 1 ∨ p = 2) (hpriced : accept.Priced)
    (hactive : s.aux.params.isFeatureActivated FEATURE_DEXMATH block = true)
    (hpaid : 0 ≤ paid ∧ paid ≤ MAX_INT_8_BYTES) (hfits : accept.bought paid ≤ MAX_INT_8_BYTES)
    (hstep : step env s (.payment txid vout seller buyer paid block) = some s') :
    Outstanding seller buyer p accept (left - min left (accept.bought paid)) s' ∧
      s'.money buyer p .BALANCE - s.money buyer p .BALANCE = min left (accept.bought paid) ∧
      s.money seller p .ACCEPT_RESERVE - s'.money seller p .ACCEPT_RESERVE =
        min left (accept.bought paid) := by
  have hbought := hpriced.bought_nonneg hpaid.1
  by_cases hpos : 0 < left
  · have hfound := h.found
    rw [if_pos hpos] at hfound
    have hsold : TokensSold seller buyer p { accept with acceptAmountRemaining := left }
        (min left (accept.bought paid)) s s' :=
      payment_tokensSold hp ⟨hpriced.offered, hpriced.desired⟩ hpos hfound h.alone hactive hpaid hfits
        hstep
    obtain ⟨hcredited, hreleased, hremains, hother⟩ := hsold
    dsimp only at hcredited hreleased hremains
    refine ⟨⟨?_, fun q hq hqp => by rw [hother q hqp, h.alone q hq hqp]⟩, by omega, by omega⟩
    rw [hremains]
    by_cases hopen : min left (accept.bought paid) < left
    · rw [if_pos hopen, if_pos (by omega)]
    · rw [if_neg hopen, if_neg (by omega)]
  · obtain rfl : left = 0 := by omega
    rw [payment_of_none (h.none_of_le hpos)] at hstep
    cases hstep
    rw [Int.min_eq_left hbought]
    exact ⟨h, by omega, by omega⟩

theorem Installments.outstanding (hp : p = 1 ∨ p = 2) (hpriced : accept.Priced)
    (hamount : 0 < accept.acceptAmountRemaining)
    (h : Installments env seller buyer p accept s payments received released) :
    received = min accept.acceptAmountRemaining (payments.map accept.bought).sum ∧
      released = received ∧ 0 ≤ (payments.map accept.bought).sum ∧
      Outstanding seller buyer p accept (accept.acceptAmountRemaining - received) s := by
  induction h with
  | start haccept halone =>
    refine ⟨by simp [hamount.le], rfl, by simp, ⟨?_, halone⟩⟩
    rw [haccept, Int.sub_zero, if_pos hamount]
  | other hpaid hother ih =>
    obtain ⟨hreceived, hreleased, hnonneg, hout⟩ := ih
    refine ⟨hreceived, hreleased, hnonneg, ⟨?_, fun q hq hqp => ?_⟩⟩
    · rw [hother p hp, hout.found]
    · rw [hother q hq, hout.alone q hq hqp]
  | payment hpaid hactive hpayment hfits hstep ih =>
    obtain ⟨hreceived, hreleased, hnonneg, hout⟩ := ih
    have hbought := hpriced.bought_nonneg hpayment.1
    obtain ⟨hafter, hbuyer, hseller⟩ := hout.payment (by omega) hp hpriced hactive hpayment hfits
      hstep
    rw [hbuyer, hseller, List.map_cons, List.sum_cons]
    refine ⟨by omega, by omega, by omega, ?_⟩
    rw [← Int.sub_sub]
    exact hafter

theorem Outstanding.exists_step (h : Outstanding seller buyer p accept left s) (hp : p = 1 ∨ p = 2)
    (hpriced : accept.Priced) (hrange : s.InRange) (hheld : s.held p ≤ MAX_INT_8_BYTES)
    (hreserved : left ≤ s.money seller p .ACCEPT_RESERVE)
    (hactive : s.aux.params.isFeatureActivated FEATURE_DEXMATH block = true)
    (hpaid : 0 ≤ paid ∧ paid ≤ MAX_INT_8_BYTES) (hfits : accept.bought paid ≤ MAX_INT_8_BYTES) :
    ∃ s', step env s (.payment txid vout seller buyer paid block) = some s' := by
  by_cases hpos : 0 < left
  · have hfound := h.found
    rw [if_pos hpos] at hfound
    obtain ⟨stored, hstored, hremaining, hoffered, hdesired⟩ : ∃ stored : CMPAccept,
        s.dexGetAccept seller p buyer = some stored ∧ stored.acceptAmountRemaining = left ∧
        stored.offerAmountOriginal = accept.offerAmountOriginal ∧
        stored.btcDesiredOriginal = accept.btcDesiredOriginal := ⟨_, hfound, rfl, rfl, rfl⟩
    have hfit : FitTerms stored.offerAmountOriginal stored.btcDesiredOriginal := by
      rw [hoffered, hdesired]
      exact hpriced.fitTerms
    have hin : PurchaseInRange stored.offerAmountOriginal stored.btcDesiredOriginal paid := by
      rw [hoffered, hdesired]
      refine ⟨hpriced.desired.1, ?_⟩
      rw [Int.mul_comm accept.btcDesiredOriginal]
      exact hpriced.bought_le_iff.mp hfits
    have hreturns : Returns (dexPay env txid vout seller buyer p stored paid block) s :=
      (returns_dexPay_iff hrange hheld (by omega) (by omega) hfit hactive hpaid).mpr (.inr hin)
    obtain ⟨s', hstep, -⟩ : ∃ s', step env s (.payment txid vout seller buyer paid block) = some s' ∧
        True := by
      refine exists_step_of_live ?_
      unfold Event.exec
      rw [wp_bind, wp_dexPayment_of_alone hp hstored h.alone]
      refine wp_mono hreturns (fun _ _ _ => trivial) ?_
      rintro _ _ ⟨rc, rfl⟩
      exact ⟨trivial, trivial⟩
    exact ⟨s', hstep⟩
  · exact ⟨s, payment_of_none (h.none_of_le hpos)⟩

/-- **An accept that is paid in installments.**  The buyer has received what the payments buy, each
rounded up, but not more than was accepted, and the reserve of the seller has gone down by as much.
The accept is gone when everything has been received, which is the case once the amount shown to the
buyer has been paid.  Where the tokens are reserved, no payment ends the process. -/
theorem installments_received (hp : p = 1 ∨ p = 2) (hpriced : accept.Priced)
    (hamount : 0 < accept.acceptAmountRemaining ∧
      accept.acceptAmountRemaining ≤ accept.offerAmountOriginal)
    (h : Installments env seller buyer p accept s payments received released) :
    received = min accept.acceptAmountRemaining (payments.map accept.bought).sum ∧
      released = received ∧
      (s.dexGetAccept seller p buyer = none ↔ received = accept.acceptAmountRemaining) ∧
      (∃ desired, calculateDesiredBTC accept.offerAmountOriginal accept.btcDesiredOriginal
          accept.acceptAmountRemaining s = .ok desired s ∧
        (desired ≤ payments.sum → received = accept.acceptAmountRemaining)) ∧
      (s.InRange → s.held p ≤ MAX_INT_8_BYTES →
        accept.acceptAmountRemaining - received ≤ s.money seller p .ACCEPT_RESERVE →
        ∀ (txid : Hash) (vout : Nat) (amount block : Int),
          s.aux.params.isFeatureActivated FEATURE_DEXMATH block = true →
          0 ≤ amount ∧ amount ≤ MAX_INT_8_BYTES → accept.bought amount ≤ MAX_INT_8_BYTES →
          ∃ s', step env s (.payment txid vout seller buyer amount block) = some s') := by
  obtain ⟨hreceived, hreleased, hnonneg, hout⟩ := h.outstanding hp hpriced hamount.1
  refine ⟨hreceived, hreleased, ?_, ?_, ?_⟩
  · rw [hout.found]
    split
    · exact iff_of_false (by simp) (by omega)
    · exact iff_of_true rfl (by omega)
  · obtain ⟨desired, hok, rfl⟩ := (hpriced.reads_calculateDesiredBTC (E := fun _ => False) (s := s)
      ⟨hamount.1.le, hamount.2⟩).exists_ok
    refine ⟨_, hok, fun hpayed => ?_⟩
    have hprice : (0 : ℚ) < accept.offerAmountOriginal / accept.btcDesiredOriginal :=
      div_pos (Int.cast_pos.mpr hpriced.offered.1) (Int.cast_pos.mpr hpriced.desired.1)
    rw [← inv_div] at hpayed
    have hall := le_sum_cost hprice hpayed
    rw [← accept.bought_eq_cost] at hall
    omega
  · intro hrange hheld hreserved txid vout amount block hactive hpaid hfits
    exact hout.exists_step hp hpriced hrange hheld hreserved hactive hpaid hfits

/-- Forty of a hundred tokens, which are offered for seven coins. -/
def installmentAccept : CMPAccept where
  acceptAmountOriginal := 40
  acceptAmountRemaining := 40
  blocktimelimit := 10
  property := 1
  offerAmountOriginal := 100
  btcDesiredOriginal := 7
  offerTxid := 50000000
  block := 50001

/-- The accept, and payments of one coin each. -/
def installmentEvents (paid : Nat) : List Event := [
  .vestDevmsc 1500000000 50000,
  samplePacket 50000 0 "exodus".toList [] (createPayloadDExSell 1 100 7 10 0 1),
  samplePacket 50001 0 "buyer".toList "exodus".toList (createPayloadDExAccept 1 40)] ++
  (List.range paid).map fun vout => .payment 7 vout "exodus".toList "buyer".toList 1 50002

theorem installments_sample : ∀ (paid : Nat) (s : State), paid ≤ 3 →
    run sampleEnv (State.empty sampleEnv mainConsensusParams) (installmentEvents paid) = some s →
    ∃ received released, Installments sampleEnv "exodus".toList "buyer".toList 1 installmentAccept s
      (List.replicate paid 1) received released := by
  intro paid
  induction paid with
  | zero =>
    intro s _ hrun
    have haccept : (run sampleEnv (State.empty sampleEnv mainConsensusParams)
        (installmentEvents 0)).map (fun s => (s.dexGetAccept "exodus".toList 1 "buyer".toList,
          s.dexGetAccept "exodus".toList 2 "buyer".toList)) =
        some (some installmentAccept, none) := by decide +kernel
    rw [hrun] at haccept
    obtain ⟨hfound, hnone⟩ := Prod.mk.inj (Option.some.inj haccept)
    refine ⟨0, 0, .start hfound fun q hq hne => ?_⟩
    rcases hq with rfl | rfl
    · exact absurd rfl hne
    · exact hnone
  | succ paid ih =>
    intro s hle hrun
    have hevents : installmentEvents (paid + 1) = installmentEvents paid ++
        [.payment 7 paid "exodus".toList "buyer".toList 1 50002] := by
      simp [installmentEvents, List.range_succ]
    rw [hevents, run_concat] at hrun
    obtain ⟨t, ht, hstep⟩ := Option.bind_eq_some_iff.mp hrun
    have hactive : ∀ paid < 3, (run sampleEnv (State.empty sampleEnv mainConsensusParams)
        (installmentEvents paid)).map
          (fun s => s.aux.params.isFeatureActivated FEATURE_DEXMATH 50002) = some true := by
      decide +kernel
    have hactive' := hactive paid (by omega)
    rw [ht] at hactive'
    obtain ⟨received, released, hpaid⟩ := ih t (by omega) ht
    have hpriced : installmentAccept.Priced := ⟨by decide, by decide⟩
    exact ⟨_, _, hpaid.payment (Option.some.inj hactive') (by decide)
      (hpriced.bought_le_iff.mpr (by decide)) hstep⟩

/-- Three coins are asked for, and each buys fifteen tokens: the last one the ten that are left. -/
theorem installments_received_threeCoins :
    ∃ s received, run sampleEnv (State.empty sampleEnv mainConsensusParams) (installmentEvents 3) =
        some s ∧
      Installments sampleEnv "exodus".toList "buyer".toList 1 installmentAccept s [1, 1, 1] received
        received ∧
      received = 40 ∧ s.dexGetAccept "exodus".toList 1 "buyer".toList = none := by
  obtain ⟨s, hrun⟩ := Option.isSome_iff_exists.mp (by decide +kernel :
    (run sampleEnv (State.empty sampleEnv mainConsensusParams) (installmentEvents 3)).isSome = true)
  obtain ⟨received, released, hpaid⟩ := installments_sample 3 s le_rfl hrun
  have hasked : okResult (calculateDesiredBTC 100 7 40) (fun _ => ()) s = some (3, ()) := by
    rfl
  obtain ⟨-, rfl, hgone, ⟨desired, hok, hall⟩, -⟩ := installments_received (.inl rfl)
    ⟨by decide, by decide⟩ (by decide) hpaid
  obtain ⟨s', hok', -⟩ := exists_of_okResult hasked
  cases hok.symm.trans hok'
  have hreceived := hall (by decide)
  exact ⟨s, _, hrun, hpaid, hreceived, hgone.mpr hreceived⟩

end HcOmni
