import HcOmni.Conformance.Fees

/-!
# Crowdsales take only steps

The amounts a crowdsale creates are calculated in 256 bits.  As long as the supply is followed,
they never exceed what `int64_t` still leaves for the property, whichever branch of the
calculation is taken.
-/

namespace HcOmni

open Std MapSum Program CMPTally State

variable {c : Ctx} {s s' : State} {env : Env}

/-! ### The property database -/

theorem reads_assertGetSP {p : PropertyId} :
    Reads (assertGetSP p) (fun sp => s.mySps.getSP p = some sp) (CalcError False) s := by
  refine .get ?_
  cases h : s.mySps.getSP p with
  | none => exact .throw (.inl rfl)
  | some sp => exact .pure rfl

theorem wp_assertUpdateSP {Q : Unit → State → Prop} {P : State → Prop} {p : PropertyId} {sp : Entry}
    (h : p ≠ 1 ∧ p ≠ 2 → Q () (s.putEntry p sp)) :
    wp (assertUpdateSP p sp) Q (Fails c P) s := by
  unfold assertUpdateSP
  simp only [wp_bind, wp_get, wp_set]
  refine wp_assertThat (fun _ => id) fun hupdated => h ?_
  by_contra hp
  have himplied : p = OMNI_PROPERTY_MSC ∨ p = OMNI_PROPERTY_TMSC := by
    unfold OMNI_PROPERTY_MSC OMNI_PROPERTY_TMSC
    lia
  simp [CMPSPInfo.updateSP, himplied] at hupdated

/-! ### Amounts -/

theorem toNat_maxInt64 : (maxInt64.toNat : Int) = MAX_INT_8_BYTES := by decide

/-- A sum in 256 bits whose parts fit `int64_t`. -/
theorem toNat_add_amounts {x y : ArithUint256} (hx : (x.toNat : Int) ≤ 3 * MAX_INT_8_BYTES)
    (hy : (y.toNat : Int) ≤ MAX_INT_8_BYTES) : (x + y).toNat = x.toNat + y.toNat := by
  unfold MAX_INT_8_BYTES at hx hy
  rw [BitVec.toNat_add, Nat.mod_eq_of_lt]
  omega

theorem toNat_sub_of_le {x y : ArithUint256} (h : y ≤ x) : (x - y).toNat = x.toNat - y.toNat := by
  have := BitVec.le_def.mp h
  bv_omega

theorem reads_quotient (n d : ArithUint256) :
    Reads (divide256 n d) (fun _ => True) (CalcError True) s :=
  (reads_divide256 fun _ => trivial).mono fun _ _ => trivial

theorem reads_fundraiserTokens {inflate : Bool} {amount secs now props : Int} {bonus perc : Nat} :
    Reads (fundraiserTokens inflate amount bonus secs now props perc) (fun _ => True)
      (CalcError True) s := by
  have hseconds : Reads (earlyBirdSeconds secs now) (fun _ => True) (CalcError True) s :=
    .ite (fun _ => .bind reads_convertTo256 fun _ _ => .bind reads_convertTo256 fun _ _ =>
      .pure trivial) fun _ => .pure trivial
  have hquot := fun n d => reads_quotient (s := s) n d
  refine .bind hseconds fun _ _ => .bind (hquot _ _) fun _ _ => .bind reads_modulo256 fun _ _ =>
    .bind (hquot _ _) fun _ _ => .bind (hquot _ _) fun _ _ => .bind (hquot _ _) fun _ _ => ?_
  refine .bind reads_convertTo256 fun _ _ => .bind reads_convertTo256 fun _ _ => ?_
  exact .bind (hquot _ _) fun _ _ => .bind (hquot _ _) fun _ _ => .bind (hquot _ _) fun _ _ =>
    .bind (hquot _ _) fun _ _ => .bind (hquot _ _) fun _ _ => .bind (hquot _ _) fun _ _ =>
      .bind (hquot _ _) fun _ _ => .bind (hquot _ _) fun _ _ => .pure trivial

theorem reads_calculateFundraiser {inflate : Bool} {amount secs now props total : Int}
    {bonus perc : Nat} :
    Reads (calculateFundraiser inflate amount bonus secs now props perc total)
      (fun tokens => 0 ≤ tokens.1 ∧ 0 ≤ tokens.2.1 ∧
        (total ≤ MAX_INT_8_BYTES → total + tokens.1 + tokens.2.1 ≤ MAX_INT_8_BYTES))
      (CalcError True) s := by
  have hmaxNat := toNat_maxInt64
  unfold calculateFundraiser
  generalize maxInt64 = max64 at *
  refine .bind reads_fundraiserTokens fun tokens _ => .bind reads_convertTo256 fun total256 htotal =>
    .ite (fun _ => ?_) fun hfits => ?_
  · -- the maximum is reached, and all that is left is handed out
    refine .bind (reads_quotient _ _) fun _ _ => .bind (reads_quotient _ _) fun cut _ =>
      .bind reads_assertOther fun _ hcut => .bind reads_convertTo64 fun forUser huser =>
        .bind reads_convertTo64 fun forIssuer hissuer =>
          .pure ⟨by simp only; omega, by simp only; omega, fun hmax => ?_⟩
    have hnat := toNat_ofAmount ⟨htotal.1, hmax⟩
    rw [← htotal.2] at hnat
    have hle : total256 ≤ max64 := BitVec.le_def.mpr (by omega)
    have hleft := toNat_sub_of_le hle
    have hcut' : cut ≤ max64 - total256 := of_decide_eq_true hcut
    have hshare := toNat_sub_of_le hcut'
    have := BitVec.le_def.mp hcut'
    dsimp only
    omega
  · refine .bind reads_convertTo64 fun forUser huser => .bind reads_convertTo64 fun forIssuer hissuer =>
      .pure ⟨by simp only; omega, by simp only; omega, fun hmax => ?_⟩
    have hnat := toNat_ofAmount ⟨htotal.1, hmax⟩
    rw [← htotal.2] at hnat
    have hsum := toNat_add_amounts (x := total256) (y := tokens.1) (by omega) (by omega)
    have hsum' := toNat_add_amounts (x := total256 + tokens.1) (y := tokens.2) (by omega) (by omega)
    have := BitVec.le_def.mp (BitVec.not_lt.mp hfits)
    dsimp only
    omega

theorem reads_getMissedIssuerBonus {sp : Entry} {crowd : CMPCrowd} :
    Reads (getMissedIssuerBonus sp crowd)
      (fun missed => 0 ≤ missed ∧ (crowd.uCreated + crowd.iCreated ≤ MAX_INT_8_BYTES →
        crowd.uCreated + crowd.iCreated + missed ≤ MAX_INT_8_BYTES)) (CalcError True) s := by
  have hmaxNat := toNat_maxInt64
  unfold getMissedIssuerBonus
  generalize maxInt64 = max64 at *
  refine .get (.bind reads_assertOther fun _ _ => .bind reads_convertTo256 fun _ _ =>
    .bind reads_convertTo256 fun issuer256 hissuer => .bind reads_convertTo256 fun user256 huser =>
      .bind (reads_quotient _ _) fun exact256 _ => ?_)
  -- the tokens created so far, in 256 bits
  have hcreated : crowd.uCreated + crowd.iCreated ≤ MAX_INT_8_BYTES →
      ((user256 + issuer256).toNat : Int) = crowd.uCreated + crowd.iCreated := by
    intro hmax
    have hu := toNat_ofAmount (n := crowd.uCreated) ⟨huser.1, by omega⟩
    have hi := toNat_ofAmount (n := crowd.iCreated) ⟨hissuer.1, by omega⟩
    rw [← huser.2] at hu
    rw [← hissuer.2] at hi
    rw [toNat_add_amounts (by omega) (by omega)]
    omega
  refine .ite (fun _ => .pure ⟨le_rfl, fun h => by omega⟩) fun _ => .ite (fun _ => ?_) fun hfits => ?_
  · refine reads_convertTo64.mono fun missed hmissed => ⟨by omega, fun hmax => ?_⟩
    have hnat := hcreated hmax
    have hle : user256 + issuer256 ≤ max64 := BitVec.le_def.mpr (by omega)
    have hleft := toNat_sub_of_le hle
    have := BitVec.le_def.mp hle
    omega
  · refine reads_convertTo64.mono fun missed hmissed => ⟨by omega, fun hmax => ?_⟩
    have hnat := hcreated hmax
    have hsum := toNat_add_amounts (x := user256 + issuer256) (y := exact256 - issuer256) (by omega)
      (by omega)
    have := BitVec.le_def.mp (BitVec.not_lt.mp hfits)
    omega

/-! ### Closing -/

theorem Sound.canCredit (hs : Sound c s) {a : Address} {p : PropertyId} {n : Int}
    (hroom : s.held p + n ≤ MAX_INT_8_BYTES) : s.CanCredit a p n := by
  intro _
  have := hs.range.money_le_held a p (t := .BALANCE) (by decide)
  omega

theorem Sound.crowd_created (hs : Sound c s) (htracks : c.Tracks s) {a : Address} {crowd : CMPCrowd}
    (hcrowd : s.myCrowds[a]? = some crowd) :
    s.held crowd.propertyId + s.getCachedAmount crowd.propertyId =
        crowd.uCreated + crowd.iCreated ∧
      crowd.uCreated + crowd.iCreated ≤ MAX_INT_8_BYTES ∧
      s.getTotalTokens crowd.propertyId = crowd.uCreated + crowd.iCreated := by
  have hsupply := hs.supply htracks
  obtain ⟨info, hentry, -⟩ := (hsupply.crowds a crowd hcrowd).entry
  have hp := hsupply.two_lt_of_entry hentry
  have hissued := hsupply.issued_active hcrowd
  have htotal := hsupply.total _ hp
  have hbound := hsupply.bounded _ hp
  have hreported := hsupply.getTotalTokens_eq hs.range hentry
  exact ⟨by omega, by omega, by omega⟩

theorem conforms_closeCrowdsale {a : Address} {crowd : CMPCrowd} {sp sp' : Entry}
    (hs : Sound c s) (hcrowd : s.myCrowds[a]? = some crowd)
    (hget : s.mySps.getSP crowd.propertyId = some sp)
    (hkind : sp'.fixed = sp.fixed ∧ sp'.manual = sp.manual)
    (hdata : sp'.historicalData = crowd.txFundraiserData) (hnonneg : 0 ≤ sp'.missedTokens)
    (hsupply : crowd.uCreated + crowd.iCreated ≤ MAX_INT_8_BYTES →
      crowd.uCreated + crowd.iCreated + sp'.missedTokens ≤ MAX_INT_8_BYTES) :
    Conforms c.contract (closeCrowdsale a crowd.propertyId sp')
      (fun _ s' => s'.myCrowds = s.myCrowds.erase a) s := by
  unfold closeCrowdsale
  rw [conforms_iff]
  simp only [wp_bind, wp_modify]
  refine wp_assertUpdateSP fun hp => wp_credit (fun hstrict => ⟨hs.range, ?_⟩) fun hroom => ⟨?_, rfl⟩
  · have htracks := hs.tracks_of_strict hstrict
    obtain ⟨hheld, hmax, -⟩ := hs.crowd_created htracks hcrowd
    have := (hs.supply htracks).cached crowd.propertyId
    have := hsupply hmax
    exact hs.canCredit (by omega)
  · exact .single (.closeCrowdsale hcrowd hp hget hkind hdata (.inl rfl) hnonneg
      (fun htracks _ => hsupply (hs.crowd_created htracks hcrowd).2.1) hroom)

theorem conforms_eraseMaxedCrowdsale {a : Address} {time block : Int} :
    Conforms c.contract (eraseMaxedCrowdsale env a time block) (fun _ _ => True) s := by
  unfold eraseMaxedCrowdsale
  refine Conforms.get ?_
  cases hcrowd : s.myCrowds[a]? with
  | none => exact Conforms.pure trivial
  | some crowd =>
    refine conforms_calc reads_assertGetSP fun sp hget => ?_
    cases env.chainActive block with
    | none => exact Conforms.throw id
    | some blockHash =>
      simp only
      rw [conforms_iff, wp_bind]
      refine wp_assertUpdateSP fun hp => ⟨.single ?_, trivial⟩
      have hstep := @Step.closeCrowdsale c s a a crowd sp { sp with
        historicalData := crowd.txFundraiserData, closeEarly := true, maxTokens := true,
        timeclosed := time, updateBlock := blockHash } 0 hcrowd hp hget ⟨rfl, rfl⟩ rfl
        (.inr ⟨rfl, rfl⟩) le_rfl (fun _ h => absurd h (by omega)) fun h => absurd h (by omega)
      rw [credit_of_nonpos (by omega)] at hstep
      exact hstep

/-! ### Expiry -/

theorem conforms_eraseExpiredCrowd {time : Int} {blockHash : Hash} {a : Address} {crowd : CMPCrowd}
    (hs : Sound c s) (hcrowd : s.myCrowds[a]? = some crowd) :
    Conforms c.contract (eraseExpiredCrowd time blockHash a crowd)
      (fun _ s' => Sound c s' ∧ ∀ b, b ≠ a → s'.myCrowds[b]? = s.myCrowds[b]?) s := by
  unfold eraseExpiredCrowd
  refine Conforms.ite (fun _ => ?_) fun _ => Conforms.pure ⟨hs, fun _ _ => rfl⟩
  refine conforms_calc reads_assertGetSP fun sp hget =>
    conforms_calc reads_getMissedIssuerBonus fun missed hmissed => ?_
  refine Conforms.mono
    (conforms_closeCrowdsale hs hcrowd hget ⟨rfl, rfl⟩ rfl hmissed.1 hmissed.2) ?_
  intro _ s' hsteps hcrowds
  refine ⟨Steps.sound hsteps hs, fun b hne => ?_⟩
  rw [hcrowds, getElem?_erase_of_ne (Ne.symm hne)]

/-- **Every crowdsale is closed at most once.** -/
theorem conforms_eraseExpiredCrowdsale {time : Int} {blockHash : Hash} (hs : Sound c s) :
    Conforms c.contract (eraseExpiredCrowdsale time blockHash) (fun _ _ => True) s := by
  unfold eraseExpiredCrowdsale
  refine Conforms.get ?_
  refine (Conforms.forM_stored (fun s a => s.myCrowds[a]?) (I := Sound c)
    (nodup_keys_toList s.myCrowds) (fun e he => mem_toList.mp he) hs ?_).mono fun _ _ _ _ => trivial
  intro e s' hs' hstored
  exact conforms_eraseExpiredCrowd hs' hstored

/-! ### Participation -/

/-- **A purchase creates no more than fits**, provided its transaction is new to the crowdsale. -/
theorem conforms_logicHelperCrowdsaleParticipation {tx : CMPTransaction} (hs : Sound c s)
    (htxid : tx.txid = c.txid) (hblock : tx.block = c.block)
    (hfresh : c.Tracked → ∀ (a : Address) (crowd : CMPCrowd), s.myCrowds[a]? = some crowd →
      crowd.txFundraiserData[c.txid]? = none) :
    Conforms c.contract (logicHelperCrowdsaleParticipation env tx) (fun _ _ => True) s := by
  unfold logicHelperCrowdsaleParticipation
  refine Conforms.get ?_
  cases hcrowd : s.myCrowds[tx.receiver]? with
  | none => exact Conforms.throw id
  | some crowd =>
    refine conforms_rejectIf fun _ => conforms_calc reads_assertGetSP fun sp hget =>
      conforms_calc reads_calculateFundraiser fun tokens htokens => ?_
    obtain ⟨huser, hissuer, htotal⟩ := htokens
    -- what is held after both credits fits
    have hroom : c.Tracks s → s.getTotalTokens crowd.propertyId + tokens.1 + tokens.2.1 ≤
          MAX_INT_8_BYTES ∧
        s.held crowd.propertyId + tokens.1 + tokens.2.1 ≤ MAX_INT_8_BYTES := by
      intro htracks
      obtain ⟨hheld, hmax, hreported⟩ := hs.crowd_created htracks hcrowd
      have := (hs.supply htracks).cached crowd.propertyId
      have := htotal (by omega)
      exact ⟨by omega, by omega⟩
    rw [conforms_iff, wp_bind, wp_modify, wp_bind]
    refine wp_credit (fun hstrict => ⟨hs.range, ?_⟩) fun hcredit => ?_
    · have := hroom (hs.tracks_of_strict hstrict)
      exact hs.canCredit (by omega)
    rw [wp_bind]
    refine wp_credit (fun hstrict => ?_) fun hcredit' => ?_
    · have := hroom (hs.tracks_of_strict hstrict)
      have hrange := hs.range.credit hcredit
      refine ⟨hrange, fun _ => ?_⟩
      have hle := hrange.money_le_held tx.receiver crowd.propertyId (t := .BALANCE) (by decide)
      rw [held_credit _ _ _ _ huser, if_pos rfl] at hle
      change (s.credit _ _ _).money _ _ _ + _ ≤ _
      omega
    have hstep := @Step.participate c s tx.sender tx.receiver crowd sp (toInt64 tx.nValue)
      tx.blockTime tokens.1 tokens.2.1 hcrowd hget huser hissuer (fun htracks => (hroom htracks).1)
      (fun ht => hfresh ht _ _ hcrowd) hcredit hcredit'
    rw [htxid, hblock]
    refine Conforms.after (C := c.contract) (.single hstep) ?_
    have hs' := hs.step hstep
    refine Conforms.bind (conforms_notifyTotalTokensChanged hs') fun _ s'' hsteps _ => ?_
    exact Conforms.ite (fun _ => Conforms.bind conforms_eraseMaxedCrowdsale
      fun _ _ _ _ => Conforms.pure trivial) fun _ => Conforms.pure trivial

end HcOmni
