import HcOmni.Runs.Crowdsales

/-!
# The bonus of an issuer

Every purchase from a crowdsale gives the issuer a percentage of what it creates for the buyer, rounded
down.  When the crowdsale is closed, the issuer gets what has been lost that way.  So it does not matter
into how many purchases a sum has been split.
-/

namespace HcOmni

open Std MapSum Program CMPTally State

variable {env : Env} {s s' start : State} {a : Address} {p : PropertyId} {tx : CMPTransaction}
  {crowd : CMPCrowd} {sp : Entry} {user issuer users bonuses : Int}

/-! ### What a purchase does -/

/-- Everything there is of a property: what is held, and the fees that wait to be distributed. -/
def State.existing (s : State) (propertyId : PropertyId) : Int :=
  s.held propertyId + s.getCachedAmount propertyId

theorem of_survives {α : Type} {m : Op α} {r : α} {Q : α → State → Prop} (hok : m s = .ok r s')
    (h : wp m Q (Survives fun _ => True) s) : Q r s' := (wp_ok hok).mp h

theorem reads_stoGetReceivers_pos {sender : Address} {amount : Int} :
    Reads (stoGetReceivers sender p amount) (fun receivers => ∀ r ∈ receivers, 0 < r.1)
      (CalcError True) s := by
  refine .get (.bind ((reads_splitAmount _ 0).mono_error fun e he => ?_) fun receivers h => .pure ?_)
  · exact he.imp_right fun hthrown => ⟨trivial, hthrown.2⟩
  · exact fun r hr => h.1 r ((List.perm_insertionSort _ _).mem_iff.mp hr)

theorem wp_distributeCache_existing {block : Int} (hordered : s.FeesOrdered block) :
    wp (distributeCache env p block)
      (fun _ s' => s'.mySps = s.mySps ∧ s'.myCrowds = s.myCrowds ∧ ∀ q, s'.existing q = s.existing q)
      (Survives fun _ => True) s := by
  unfold distributeCache
  refine survives_get (survives_reads trivial reads_stoGetReceivers_pos fun receivers hpos => ?_)
  have hcredit := wp_creditReceivers (c := .any) (s := s) (p := p) (P := fun _ => True) id receivers hpos
  simp only [wp_bind, wp_record]
  refine wp_mono hcredit (fun _ s₁ hcredited => ?_) fun _ _ _ _ => trivial
  refine survives_assertThat fun hsum => ?_
  unfold clearCache pruneCache
  simp only [wp_bind, wp_modify]
  rw [of_decide_eq_true hsum] at hcredited
  refine ⟨?_, ?_, hcredited.total hordered⟩
  · change (State.setFee env _ p block 0).mySps = _
    rw [setFee_frame, hcredited.frame]
  · change (State.setFee env _ p block 0).myCrowds = _
    rw [setFee_frame, hcredited.frame]

theorem wp_notify_existing {block : Int} (hordered : s.FeesOrdered block) :
    wp (notifyTotalTokensChanged env p block)
      (fun _ s' => s'.mySps = s.mySps ∧ s'.myCrowds = s.myCrowds ∧ ∀ q, s'.existing q = s.existing q)
      (Survives fun _ => True) s := by
  unfold notifyTotalTokensChanged updateDistributionThresholds evalCache
  rw [wp_bind, wp_modify]
  refine survives_get ?_
  rw [wp_ite]
  exact ⟨fun _ => wp_distributeCache_existing hordered, fun _ => ⟨rfl, rfl, fun _ => rfl⟩⟩

/-- **What a purchase does** to the crowdsale, to the property and to its supply. -/
theorem purchase_effect (hcrowd : s.myCrowds[tx.receiver]? = some crowd)
    (hget : s.mySps.getSP crowd.propertyId = some sp)
    (hcalculated : calculateFundraiser (!s.isPropertyDivisible tx.property) (toInt64 tx.nValue)
      sp.earlyBird sp.deadline tx.blockTime sp.numTokens sp.percentage
      (s.getTotalTokens crowd.propertyId) s = .ok (user, issuer, false) s)
    (huser : 0 ≤ user) (hissuer : 0 ≤ issuer) (hordered : s.FeesOrdered tx.block) {rc : Int}
    (hok : logicHelperCrowdsaleParticipation env tx s = .ok rc s') :
    s'.mySps = s.mySps ∧
      s'.myCrowds[tx.receiver]? = some (crowd.invest tx.txid
        [toInt64 tx.nValue, tx.blockTime, user, issuer] user issuer) ∧
      s'.existing crowd.propertyId = s.existing crowd.propertyId + user + issuer := by
  refine of_survives (Q := fun _ s' => s'.mySps = s.mySps ∧ s'.myCrowds[tx.receiver]? =
    some (crowd.invest tx.txid [toInt64 tx.nValue, tx.blockTime, user, issuer] user issuer) ∧
      s'.existing crowd.propertyId = s.existing crowd.propertyId + user + issuer) hok ?_
  unfold logicHelperCrowdsaleParticipation
  refine survives_get ?_
  rw [hcrowd]
  refine survives_rejectIf trivial fun _ => survives_reads trivial reads_assertGetSP fun sp' hget' => ?_
  cases hget.symm.trans hget'
  rw [wp_bind, wp_ok hcalculated, wp_bind, wp_modify, wp_bind]
  refine survives_credit fun _ => ?_
  rw [wp_bind]
  refine survives_credit fun _ => ?_
  rw [wp_bind]
  refine wp_mono (wp_notify_existing (s := s.purchased tx crowd user issuer) hordered) ?_
    fun _ _ h => h
  rintro _ t ⟨hsps, hcrowds, hexisting⟩
  refine ⟨hsps, ?_, ?_⟩
  · rw [hcrowds]
    exact ExtTreeMap.getElem?_insert_self
  · rw [hexisting]
    change State.held (State.credit (State.credit s _ _ _) _ _ _) _ + s.getCachedAmount _ = _
    rw [held_credit _ _ _ _ hissuer, held_credit _ _ _ _ huser, if_pos rfl, if_pos rfl]
    unfold State.existing
    omega

/-! ### The history of a crowdsale -/

/-- What may happen between two purchases: the crowdsale, its property and the supply are left alone. -/
structure LeavesSale (a : Address) (p : PropertyId) (s s' : State) : Prop where
  crowd : s'.myCrowds[a]? = s.myCrowds[a]?
  entry : s'.mySps.getSP p = s.mySps.getSP p
  existing : s'.existing p = s.existing p

/-- The states that a crowdsale goes through by purchases that do not hit the maximum of the supply,
with the tokens they have credited to the users and, as their bonuses, to the issuer. -/
inductive Sold (env : Env) (a : Address) (p : PropertyId) (start : State) : State → Int → Int → Prop
  | start : Sold env a p start start 0 0
  | other {s s' : State} {users bonuses : Int} (hsold : Sold env a p start s users bonuses)
      (hother : LeavesSale a p s s') : Sold env a p start s' users bonuses
  | purchase {s s' : State} {users bonuses user issuer rc : Int} {tx : CMPTransaction}
      {crowd : CMPCrowd} {sp : Entry} (hsold : Sold env a p start s users bonuses)
      (hreceiver : tx.receiver = a) (hvalue : (tx.nValue : Int) ≤ MAX_INT_8_BYTES)
      (hheight : s.FeesOrdered tx.block) (hcrowd : s.myCrowds[tx.receiver]? = some crowd)
      (hentry : s.mySps.getSP crowd.propertyId = some sp)
      (hcalculated : calculateFundraiser (!s.isPropertyDivisible tx.property) (toInt64 tx.nValue)
        sp.earlyBird sp.deadline tx.blockTime sp.numTokens sp.percentage
        (s.getTotalTokens crowd.propertyId) s = .ok (user, issuer, false) s)
      (hok : logicHelperCrowdsaleParticipation env tx s = .ok rc s') :
      Sold env a p start s' (users + user) (bonuses + issuer)

/-- A crowdsale that has just begun, with the entry of its property. -/
structure Begun (a : Address) (p : PropertyId) (sp : Entry) (s : State) : Prop where
  crowd : ∃ crowd : CMPCrowd, s.myCrowds[a]? = some crowd ∧ crowd.propertyId = p ∧
    crowd.uCreated = 0 ∧ crowd.iCreated = 0
  entry : s.mySps.getSP p = some sp
  terms : PurchaseTerms 0 sp.numTokens sp.deadline sp.earlyBird sp.percentage
  notFixed : sp.fixed = false
  issuer : sp.issuer = a
  range : 0 ≤ s.existing p ∧ s.existing p ≤ MAX_INT_8_BYTES

/-- A running crowdsale: it knows what it has created, which together with what there was in the
beginning fits, and the issuer has not been given too much. -/
structure Selling (a : Address) (p : PropertyId) (sp : Entry) (before : Int) (s : State)
    (users bonuses : Int) : Prop where
  crowd : ∃ crowd : CMPCrowd, s.myCrowds[a]? = some crowd ∧ crowd.propertyId = p ∧
    crowd.uCreated = users ∧ crowd.iCreated = bonuses
  entry : s.mySps.getSP p = some sp
  existing : s.existing p = before + users + bonuses
  nonneg : 0 ≤ users ∧ 0 ≤ bonuses
  fits : before + users + bonuses ≤ MAX_INT_8_BYTES
  bonus : bonuses ≤ users * sp.percentage / 100

variable {before : Int}

theorem getTotalTokens_eq_existing (hget : s.mySps.getSP p = some sp) (hfixed : sp.fixed = false)
    (hrange : 0 ≤ s.existing p ∧ s.existing p ≤ MAX_INT_8_BYTES) :
    s.getTotalTokens p = s.existing p := by
  have hlo : MIN_INT_8_BYTES ≤ s.existing p := by
    unfold MIN_INT_8_BYTES
    omega
  unfold getTotalTokens
  rw [hget]
  simp only [hfixed, Bool.false_eq_true, if_false]
  exact toInt64_of_range hlo hrange.2

/-- **A purchase keeps it**: the bonuses that have been rounded down are together no more than the
bonus for the sum. -/
theorem Selling.purchase (h : Selling a p sp before s users bonuses) (hbefore : 0 ≤ before)
    (hterms : PurchaseTerms 0 sp.numTokens sp.deadline sp.earlyBird sp.percentage)
    (hfixed : sp.fixed = false) {rc : Int} (hreceiver : tx.receiver = a)
    (hvalue : (tx.nValue : Int) ≤ MAX_INT_8_BYTES) (hordered : s.FeesOrdered tx.block)
    (hcrowd : s.myCrowds[tx.receiver]? = some crowd) {sp' : Entry}
    (hentry : s.mySps.getSP crowd.propertyId = some sp')
    (hcalculated : calculateFundraiser (!s.isPropertyDivisible tx.property) (toInt64 tx.nValue)
      sp'.earlyBird sp'.deadline tx.blockTime sp'.numTokens sp'.percentage
      (s.getTotalTokens crowd.propertyId) s = .ok (user, issuer, false) s)
    (hok : logicHelperCrowdsaleParticipation env tx s = .ok rc s') :
    Selling a p sp before s' (users + user) (bonuses + issuer) := by
  obtain ⟨⟨crowd', hcrowd', hid, hu, hi⟩, hget, hexisting, ⟨husers, hbonuses⟩, hfits, hbonus⟩ := h
  rw [hreceiver] at hcrowd
  cases hcrowd.symm.trans hcrowd'
  rw [hid] at hentry
  cases hget.symm.trans hentry
  have htotal : s.getTotalTokens crowd.propertyId = before + users + bonuses := by
    rw [hid, getTotalTokens_eq_existing hget hfixed ⟨by omega, by omega⟩, hexisting]
  have hamount : toInt64 tx.nValue = tx.nValue :=
    toInt64_of_range (by unfold MIN_INT_8_BYTES; omega) hvalue
  have hbought : PurchaseTerms tx.nValue sp.numTokens sp.deadline sp.earlyBird sp.percentage :=
    ⟨⟨Int.natCast_nonneg _, hvalue⟩, hterms.props, hterms.deadline, hterms.bonus, hterms.perc⟩
  -- the maximum was not hit, so that the tokens are those of the formulas
  obtain ⟨created, hfitsAll, huser, hissuer⟩ : ∃ created : Nat,
      before + users + bonuses + user + issuer ≤ MAX_INT_8_BYTES ∧ user = created ∧
        issuer = issuerTokens created sp.percentage := by
    rw [hamount, htotal] at hcalculated
    have hread := (wp_ok hcalculated).mp (reads_calculateFundraiser_tokens (E := fun _ => True) hbought
      ⟨by omega, hfits⟩ (fun _ => trivial) (fun _ => trivial) _ _ rfl rfl)
    rcases hread.2 with ⟨hle, htokens⟩ | ⟨-, hclosed, -⟩
    · obtain ⟨rfl, rfl, -⟩ := Prod.mk.inj htokens |>.imp id Prod.mk.inj
      exact ⟨_, hle, rfl, rfl⟩
    · cases hclosed
  have hissuerBonus : issuer = user * sp.percentage / 100 := by
    rw [hissuer, huser, issuerTokens, Int.natCast_ediv, Nat.cast_mul]
    rfl
  obtain ⟨hsps, hinvested, hgrown⟩ := purchase_effect (hreceiver ▸ hcrowd) (hid ▸ hget)
    (by rw [hreceiver] at *; exact hcalculated) (by omega) (by omega) hordered hok
  rw [hreceiver] at hinvested
  refine ⟨⟨_, hinvested, hid, ?_, ?_⟩, by rw [hsps]; exact hget, ?_, ⟨by omega, by omega⟩, by omega, ?_⟩
  · change toInt64 (crowd.uCreated + user) = _
    rw [hu, toInt64_of_range (by unfold MIN_INT_8_BYTES; omega) (by omega)]
  · change toInt64 (crowd.iCreated + issuer) = _
    rw [hi, toInt64_of_range (by unfold MIN_INT_8_BYTES; omega) (by omega)]
  · rw [← hid, hgrown, hid, hexisting]
    omega
  · rw [hissuerBonus, Int.add_mul]
    omega

theorem Sold.selling (h : Sold env a p start s users bonuses) (hstart : Begun a p sp start) :
    Selling a p sp (start.existing p) s users bonuses := by
  induction h with
  | start =>
    have hrange := hstart.range
    exact ⟨hstart.crowd, hstart.entry, by omega, ⟨le_rfl, le_rfl⟩, by omega, by simp⟩
  | other hsold hother ih =>
    obtain ⟨hcrowd, hget, hexisting, hnonneg, hfits, hbonus⟩ := ih
    exact ⟨by rw [hother.crowd]; exact hcrowd, hother.entry.trans hget,
      hother.existing.trans hexisting, hnonneg, hfits, hbonus⟩
  | purchase hsold hreceiver hvalue hheight hcrowd hentry hcalculated hok ih =>
    exact ih.purchase hstart.range.1 hstart.terms hstart.notFixed hreceiver hvalue hheight hcrowd
      hentry hcalculated hok

/-! ### Closing -/

theorem close_effect (hcrowd : s.myCrowds[tx.sender]? = some crowd)
    (hget : s.mySps.getSP crowd.propertyId = some sp)
    (hcreated : 0 ≤ crowd.uCreated ∧ 0 ≤ crowd.iCreated ∧
      crowd.uCreated + crowd.iCreated ≤ MAX_INT_8_BYTES) (hperc : sp.percentage < 2 ^ 8)
    (hle : crowd.iCreated ≤ crowd.uCreated * sp.percentage / 100) {rc : Int}
    (hok : logicMathCloseCrowdsale tx s = .ok rc s') :
    ∃ missed, 0 ≤ missed ∧ crowd.propertyId ≠ 1 ∧ crowd.propertyId ≠ 2 ∧
      s.getTotalTokens crowd.propertyId = crowd.uCreated + crowd.iCreated ∧
      crowd.iCreated + missed =
        min (crowd.uCreated * sp.percentage / 100) (MAX_INT_8_BYTES - crowd.uCreated) ∧
      ∃ info : Entry, info.fixed = sp.fixed ∧
        s' = { (s.putEntry crowd.propertyId info).credit sp.issuer crowd.propertyId missed with
          myCrowds := s.myCrowds.erase tx.sender } := by
  refine of_survives (Q := fun _ s' => ∃ missed, 0 ≤ missed ∧ crowd.propertyId ≠ 1 ∧
    crowd.propertyId ≠ 2 ∧ s.getTotalTokens crowd.propertyId = crowd.uCreated + crowd.iCreated ∧
    crowd.iCreated + missed =
      min (crowd.uCreated * sp.percentage / 100) (MAX_INT_8_BYTES - crowd.uCreated) ∧
    ∃ info : Entry, info.fixed = sp.fixed ∧
      s' = { (s.putEntry crowd.propertyId info).credit sp.issuer crowd.propertyId missed with
        myCrowds := s.myCrowds.erase tx.sender }) hok ?_
  unfold logicMathCloseCrowdsale
  refine survives_get (survives_rejectIf trivial fun _ => survives_rejectIf trivial fun _ => ?_)
  rw [hcrowd]
  refine survives_rejectIf trivial fun hproperty => ?_
  have hproperty : tx.property = crowd.propertyId := by simpa using hproperty
  rw [hproperty]
  refine survives_reads trivial reads_assertGetSP fun sp' hget' => ?_
  cases hget.symm.trans hget'
  refine survives_reads trivial (reads_getMissedIssuerBonus_eq hcreated hperc hle)
    fun missed hmissed => ?_
  unfold closeCrowdsale
  simp only [wp_bind]
  refine survives_updateSP fun hp => survives_credit fun _ => ?_
  refine ⟨missed, ?_, hp.1, hp.2, hmissed.1, hmissed.2, { sp with
    historicalData := crowd.txFundraiserData, closeEarly := true, timeclosed := tx.blockTime,
    txidClose := tx.txid, updateBlock := tx.blockHash, missedTokens := missed }, rfl, rfl⟩
  have hbound : crowd.iCreated ≤
      min (crowd.uCreated * sp.percentage / 100) (MAX_INT_8_BYTES - crowd.uCreated) :=
    le_min hle (by omega)
  omega

/-- The program has come to its end in the state after it. -/
def stateAfter (m : Op Int) (s : State) : State :=
  match m s with
  | .ok _ s' => s'
  | .error _ s' => s'

theorem eq_stateAfter {m : Op Int} {rc : Int} (h : okResult m (fun _ => ()) s = some (rc, ())) :
    m s = .ok rc (stateAfter m s) := by
  obtain ⟨s', hok, -⟩ := exists_of_okResult h
  rw [hok]
  unfold stateAfter
  rw [hok]

/-- A tenth of what is created for the buyers is for the issuer. -/
def saleStart : State := (run fundedEnv (State.empty fundedEnv mainConsensusParams) [
  samplePacket 50000 0 "issuer".toList [] (createPayloadIssuanceVariable 1 1 0 [] [] "token".toList []
    [] 1 15 1501209600 0 10)]).getD (State.empty fundedEnv mainConsensusParams)

/-- One token for fifteen of the new ones. -/
def salePurchase (idx : Nat) : CMPTransaction := {
  txid := 50001000 + idx
  block := 50001
  blockTime := 1500000000
  txIdx := idx
  txFeePaid := 0
  blockHash := 50001
  payload := []
  sender := "exodus".toList
  receiver := "issuer".toList
  property := 1
  nValue := 100000000 }

def saleClose : CMPTransaction := {
  txid := 50002000
  block := 50002
  blockTime := 1500000000
  txIdx := 0
  txFeePaid := 0
  blockHash := 50002
  payload := []
  sender := "issuer".toList
  receiver := []
  property := 3 }

theorem salePurchase_calculated {total : Int} (htotal : 0 ≤ total ∧ total ≤ 100) :
    calculateFundraiser false 100000000 0 1501209600 1500000000 15 10 total s =
      .ok (15, 1, false) s := by
  have hterms : PurchaseTerms 100000000 15 1501209600 0 10 :=
    ⟨by decide, by decide, by decide, by decide, by decide⟩
  have hmax : (100 : Int) + 15 + 1 ≤ MAX_INT_8_BYTES := by decide
  refine ((reads_calculateFundraiser_tokens hterms ⟨htotal.1, by omega⟩ (fun h => by omega)
    (fun h => by omega) 15 1 (by decide) (by decide)).mono fun tokens h => ?_).eq_ok
  rcases h with ⟨-, htokens⟩ | ⟨hmore, -⟩
  · exact htokens
  · push_cast at hmore
    omega

/-- The entry of the property on sale. -/
def isSaleEntry (sp : Entry) : Bool :=
  decide (sp.numTokens = 15 ∧ sp.deadline = 1501209600 ∧ sp.earlyBird = 0 ∧ sp.percentage = 10 ∧
    sp.fixed = false ∧ sp.issuer = "issuer".toList)

theorem salePurchase_sold (idx : Nat) (hsold : Sold fundedEnv "issuer".toList 3 start s users bonuses)
    (hcrowd : (s.myCrowds["issuer".toList]?).map CMPCrowd.propertyId = some 3)
    (hentry : (s.mySps.getSP 3).map isSaleEntry = some true)
    (hstate : s.feecache.isEmpty = true ∧ s.isPropertyDivisible 1 = true ∧
      0 ≤ s.getTotalTokens 3 ∧ s.getTotalTokens 3 ≤ 100)
    (hok : okResult (logicHelperCrowdsaleParticipation fundedEnv (salePurchase idx)) (fun _ => ()) s =
      some (0, ())) :
    Sold fundedEnv "issuer".toList 3 start
      (stateAfter (logicHelperCrowdsaleParticipation fundedEnv (salePurchase idx)) s)
      (users + 15) (bonuses + 1) := by
  obtain ⟨crowd, hcrowd, hid⟩ := Option.map_eq_some_iff.mp hcrowd
  obtain ⟨sp, hget, hsp⟩ := Option.map_eq_some_iff.mp hentry
  obtain ⟨hprops, hdeadline, hbird, hperc, -⟩ := of_decide_eq_true hsp
  obtain ⟨hempty, hdivisible, htotal⟩ := hstate
  have hordered : s.FeesOrdered 50001 := by
    intro p history hhistory
    rw [ExtTreeMap.isEmpty_iff.mp hempty] at hhistory
    simp at hhistory
  have hcalculated : calculateFundraiser (!s.isPropertyDivisible 1) (toInt64 100000000) sp.earlyBird
      sp.deadline 1500000000 sp.numTokens sp.percentage (s.getTotalTokens crowd.propertyId) s =
        .ok (15, 1, false) s := by
    rw [hdivisible, hbird, hdeadline, hprops, hperc, hid]
    exact salePurchase_calculated htotal
  have hvalue : ((100000000 : Nat) : Int) ≤ MAX_INT_8_BYTES := by decide
  exact @Sold.purchase _ _ _ _ _ _ _ _ _ _ _ (salePurchase idx) _ _ hsold rfl hvalue hordered hcrowd
    (hid ▸ hget) hcalculated (eq_stateAfter hok)

/-- The states of the sale. -/
def saleState (idx : Nat) : State := Nat.rec saleStart (fun idx s =>
  stateAfter (logicHelperCrowdsaleParticipation fundedEnv (salePurchase idx)) s) idx

end HcOmni
