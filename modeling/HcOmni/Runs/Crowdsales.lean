import HcOmni.Conformance.Fundraiser
import HcOmni.Runs.Distributions

/-!
# Active crowdsales

What the crowdsale of an address, the entry of its property and the records of its purchases have to
do with each other, kept by every event while the identifiers of the main ecosystem last.
-/

namespace HcOmni

open Std MapSum Program CMPTally State

variable {c : Ctx} {env : Env} {s s' t s₀ : State} {Spare : Prop} {a : Address} {crowd : CMPCrowd}
  {p : PropertyId} {tx : CMPTransaction} {events : List Event}

/-! ### The invariant -/

/-- The sum of the values at one position of the records of a crowdsale. -/
def recordSum (position : Nat) (data : ExtTreeMap Hash (List Int) compare) : Int :=
  mapSum data fun _ record => record.getD position 0

/-- The crowdsale of an address: its property belongs to the address and was issued on terms that can
be calculated with, and what it has created is what its records say.  If the run is known to spare the
last token, it has not been created. -/
structure CrowdKept (Spare : Prop) (sps : CMPSPInfo) (a : Address) (crowd : CMPCrowd) : Prop where
  entry : ∃ info : Entry, sps.entries[crowd.propertyId]? = some info ∧ info.issuer = a ∧
    PurchaseTerms 0 info.numTokens info.deadline info.earlyBird info.percentage
  user : crowd.uCreated = recordSum 2 crowd.txFundraiserData
  issuer : crowd.iCreated = recordSum 3 crowd.txFundraiserData
  below : Spare → crowd.uCreated + crowd.iCreated < MAX_INT_8_BYTES

/-- All active crowdsales are kept, unless the identifiers are exhausted. -/
def State.CrowdsKept (Spare : Prop) (s : State) : Prop :=
  ¬s.Overrun → ∀ (a : Address) (crowd : CMPCrowd), s.myCrowds[a]? = some crowd →
    CrowdKept Spare s.mySps a crowd

theorem CrowdKept.congr {sps sps' : CMPSPInfo} (h : CrowdKept Spare sps a crowd)
    (hentry : sps'.entries[crowd.propertyId]? = sps.entries[crowd.propertyId]?) :
    CrowdKept Spare sps' a crowd :=
  ⟨by rw [hentry]; exact h.entry, h.user, h.issuer, h.below⟩

namespace State.CrowdsKept

theorem congr (h : s.CrowdsKept Spare) (hcrowds : s'.myCrowds = s.myCrowds)
    (hentries : s'.mySps.entries = s.mySps.entries) (hcounter : s'.mySps.nextSpid = s.mySps.nextSpid) :
    s'.CrowdsKept Spare := by
  intro hspace a crowd hget
  unfold Overrun at hspace
  rw [hcounter] at hspace
  rw [hcrowds] at hget
  exact (h hspace a crowd hget).congr (by rw [hentries])

theorem close {info : Entry} (hother : ∀ (b : Address) (other : CMPCrowd), b ≠ a →
      s.myCrowds[b]? = some other → other.propertyId ≠ p ∧ CrowdKept Spare s.mySps b other)
    (hcrowds : s'.myCrowds = s.myCrowds.erase a)
    (hentries : s'.mySps.entries = s.mySps.entries.insert p info) : s'.CrowdsKept Spare := by
  intro _ b other hfound
  rw [hcrowds] at hfound
  obtain ⟨hne, hold⟩ := getElem?_of_erase hfound
  obtain ⟨hp, hkept⟩ := hother b other (Ne.symm hne) hold
  refine hkept.congr ?_
  rw [hentries, getElem?_insert_of_ne (Ne.symm hp)]

theorem of_agree {W : List Part} (h : s.CrowdsKept Spare) (hagree : stateParts.Agree W s s')
    (hW : Apart W [.crowds, .properties, .counters]) : s'.CrowdsKept Spare :=
  h.congr (hagree .crowds (hW _ (by simp)))
    (congrArg Prod.fst (hagree .properties (hW _ (by simp))))
    (congrArg Prod.fst (hagree .counters (hW _ (by simp))))

end State.CrowdsKept

theorem CrowdsUnique.ne {crowds : ExtTreeMap Address CMPCrowd compare} {b : Address}
    {other : CMPCrowd} (h : CrowdsUnique crowds) (hget : crowds[a]? = some crowd)
    (hother : crowds[b]? = some other) (hne : b ≠ a) : other.propertyId ≠ crowd.propertyId :=
  fun heq => hne (h b a other crowd hother hget heq)

/-! ### Entries -/

theorem putEntry_entries (info : Entry) (hp : p ≠ 1 ∧ p ≠ 2) :
    (s.putEntry p info).mySps.entries = s.mySps.entries.insert p info ∧
      (s.putEntry p info).mySps.nextSpid = s.mySps.nextSpid := by
  obtain ⟨-, hentries, hspid, -⟩ := @CMPSPInfo.updateSP_of_ne s.mySps p hp info
  exact ⟨hentries, hspid⟩

/-- `assert(_my_sps->updateSP(...))` -/
theorem survives_updateSP {I : State → Prop} {Q : Unit → State → Prop} {info : Entry}
    (h : p ≠ 1 ∧ p ≠ 2 → Q () (s.putEntry p info)) :
    wp (assertUpdateSP p info) Q (Survives I) s :=
  wp_mono (wp_assertUpdateSP (c := .any) (P := fun _ => False) h) (fun _ _ hQ => hQ)
    fun _ _ hfails hlive => (hfails.1 hlive).elim

theorem survives_credit {I : State → Prop} {Q : Unit → State → Prop} {n : Int}
    (h : s.CanCredit a p n → Q () (s.credit a p n)) : wp (assertCredit a p n) Q (Survives I) s := by
  unfold assertCredit
  by_cases hpos : n > 0
  · rw [if_pos hpos]
    refine survives_update (by decide) fun hadmits => ?_
    have hQ := h fun hpos => hadmits.2.2 hpos
    rwa [credit_of_pos hpos] at hQ
  · rw [if_neg hpos]
    have hQ := h fun hpos' => absurd hpos' hpos
    rwa [credit_of_nonpos (by omega)] at hQ

/-- `putNewProperty` -/
theorem survives_putNew {I : State → Prop} {Q : PropertyId → State → Prop} {ecosystem : Nat}
    {info : Entry} (heco : ecosystem = 1 ∨ ecosystem = 2)
    (h : 0 < s.mySps.peekNextSPID ecosystem →
      Q (s.mySps.peekNextSPID ecosystem) (s.putNew ecosystem info)) :
    wp (putNewProperty ecosystem info) Q (Survives I) s :=
  wp_mono (wp_putNewProperty (c := .any) (P := fun _ => False) heco h) (fun _ _ hQ => hQ)
    fun _ _ hfails hlive => (hfails.1 hlive).elim

/-! ### Creating properties -/

section Logic

variable (hok : PacketOk c tx s) (htracks : c.Tracks s) (h : s.CrowdsKept Spare)

include hok htracks h

theorem keptCrowds_putNew {ecosystem : Nat} (heco : ecosystem = 1 ∨ ecosystem = 2)
    (hid : 0 < s.mySps.peekNextSPID ecosystem) (info : Entry) :
    (s.putNew ecosystem info).CrowdsKept Spare := by
  have hsupply := hok.sound.supply htracks
  intro hspace a crowd hget
  obtain ⟨-, -, hentries, -, hother⟩ := hsupply.fresh heco hid hspace rfl
  refine (h htracks.2 a crowd hget).congr ?_
  rw [hentries, getElem?_insert_of_ne (Ne.symm (hother a crowd hget))]

theorem keptCrowds_logicMathCreatePropertyFixed :
    Keeps (CrowdsKept Spare) (logicMathCreatePropertyFixed env tx) s := by
  unfold logicMathCreatePropertyFixed
  refine survives_get (survives_rejectIf h fun heco => survives_rejectIf h fun _ =>
    survives_rejectIf h fun _ => survives_rejectIf h fun _ => survives_rejectIf h fun _ => ?_)
  rw [wp_bind]
  refine survives_putNew (ecosystem_cases heco) fun hid => ?_
  have hnew := keptCrowds_putNew hok htracks h (ecosystem_cases heco) hid
    { newEntry tx with numTokens := tx.nValue, fixed := true }
  refine keeps_of_touches (W := [.tally .BALANCE, .cache, .thresholds]) ?_
    fun s' hagree => hnew.of_agree hagree (by decide)
  exact touches_update (by decide) fun _ => .bind touches_notifyTotalTokensChanged fun _ _ => .pure

theorem keptCrowds_logicMathCreatePropertyManaged :
    Keeps (CrowdsKept Spare) (logicMathCreatePropertyManaged tx) s := by
  unfold logicMathCreatePropertyManaged
  refine survives_get (survives_rejectIf h fun heco => survives_rejectIf h fun _ =>
    survives_rejectIf h fun _ => survives_rejectIf h fun _ => ?_)
  rw [wp_bind]
  exact survives_putNew (ecosystem_cases heco) fun hid =>
    keptCrowds_putNew hok htracks h (ecosystem_cases heco) hid _

theorem keptCrowds_logicMathCreatePropertyVariable
    (hbytes : tx.earlyBird < 2 ^ 8 ∧ tx.percentage < 2 ^ 8) :
    Keeps (CrowdsKept Spare) (logicMathCreatePropertyVariable tx) s := by
  unfold logicMathCreatePropertyVariable
  refine survives_get (survives_rejectIf h fun heco => survives_rejectIf h fun _ =>
    survives_rejectIf h fun _ => survives_rejectIf h fun hvalue => survives_rejectIf h fun _ =>
      survives_rejectIf h fun _ => survives_rejectIf h fun _ => survives_rejectIf h fun _ =>
        survives_rejectIf h fun hnone => ?_)
  replace hvalue := amount_of_valueOutOfRange hvalue
  have hnone : s.myCrowds[tx.sender]? = none :=
    Option.not_isSome_iff_eq_none.mp (ne_true_of_eq_false hnone)
  rw [wp_bind]
  refine survives_putNew (ecosystem_cases heco) fun hid => ?_
  have hnew := keptCrowds_putNew hok htracks h (ecosystem_cases heco) hid
    { newEntry tx with
      numTokens := tx.nValue
      propertyDesired := tx.property
      deadline := toInt64 tx.deadline
      earlyBird := tx.earlyBird
      percentage := tx.percentage }
  simp only [wp_bind, wp_modify, wp_pure]
  intro hspace a crowd hget
  change (s.myCrowds.insertIfNew tx.sender _)[a]? = some crowd at hget
  rw [insertIfNew_of_none hnone] at hget
  rcases getElem?_of_insert hget with ⟨rfl, rfl⟩ | ⟨-, hold⟩
  · obtain ⟨-, -, hentries, -⟩ :=
      (hok.sound.supply htracks).fresh (ecosystem_cases heco) hid hspace rfl
    have hterms : PurchaseTerms 0 tx.nValue (toInt64 tx.deadline) tx.earlyBird tx.percentage :=
      ⟨⟨by decide, by decide⟩, ⟨Int.le_of_lt hvalue.1, hvalue.2⟩, toInt64_le _, hbytes.1, hbytes.2⟩
    have hfound := congrArg (·[s.mySps.peekNextSPID tx.ecosystem]?) hentries
    simp only [ExtTreeMap.getElem?_insert_self] at hfound
    refine ⟨⟨_, hfound, rfl, ?_⟩, rfl, rfl, fun _ => (by decide : (0 : Int) + 0 < _)⟩
    dsimp only
    exact hterms
  · exact hnew hspace a crowd hold

/-! ### Managed properties -/

omit hok in
theorem keptCrowds_putEntry (hp : p ≠ 1 ∧ p ≠ 2)
    (hother : ∀ (a : Address) (crowd : CMPCrowd), s.myCrowds[a]? = some crowd →
      crowd.propertyId ≠ p) (info : Entry) : (s.putEntry p info).CrowdsKept Spare := by
  intro _ a crowd hget
  refine (h htracks.2 a crowd hget).congr ?_
  rw [(putEntry_entries info hp).1, getElem?_insert_of_ne (Ne.symm (hother a crowd hget))]

omit h in
theorem crowd_ne_of_manual {sp : Entry} (hget : s.mySps.getSP p = some sp)
    (hmanual : sp.manual = true) (hcrowd : s.myCrowds[a]? = some crowd) : crowd.propertyId ≠ p := by
  rintro rfl
  obtain ⟨info, hentry, -, hnot, -⟩ := ((hok.sound.supply htracks).crowds a crowd hcrowd).entry
  rw [CMPSPInfo.getSP_of_ne (ne_of_manual hget hmanual)] at hget
  cases hget.symm.trans hentry
  rw [hmanual] at hnot
  cases hnot

theorem keptCrowds_logicMathRevokeTokens :
    Keeps (CrowdsKept Spare) (logicMathRevokeTokens env tx) s := by
  unfold logicMathRevokeTokens
  refine survives_get (survives_rejectIf h fun _ => survives_rejectIf h fun _ =>
    survives_rejectIf h fun _ => survives_reads h reads_assertGetSP fun sp hget =>
      survives_rejectIf h fun hmanual => survives_rejectIf h fun _ => ?_)
  replace hmanual : sp.manual = true := by simpa using hmanual
  rw [wp_bind]
  refine survives_update (by decide) fun _ => ?_
  rw [wp_bind]
  refine survives_updateSP fun hp => ?_
  have hnew := keptCrowds_putEntry (s := s.addTally tx.sender tx.property (-tx.nValue) .BALANCE)
    htracks h hp fun a crowd hcrowd => crowd_ne_of_manual hok htracks hget hmanual hcrowd
  exact keeps_of_touches (.bind touches_notifyTotalTokensChanged fun _ _ => .pure)
    fun s' hagree => (hnew _).of_agree hagree (by decide)

omit hok in
theorem keptCrowds_logicMathChangeIssuer :
    Keeps (CrowdsKept Spare) (logicMathChangeIssuer tx) s := by
  unfold logicMathChangeIssuer
  refine survives_get (survives_rejectIf h fun _ => survives_rejectIf h fun _ =>
    survives_reads h reads_assertGetSP fun sp hget => survives_rejectIf h fun hissuer =>
      survives_rejectIf h fun hidle => survives_rejectIf h fun _ => survives_rejectIf h fun _ => ?_)
  rw [wp_bind]
  refine survives_updateSP fun hp => keptCrowds_putEntry htracks h hp (fun a crowd hcrowd => ?_) _
  rintro heq
  obtain ⟨info, hentry, howner, -⟩ := (h htracks.2 a crowd hcrowd).entry
  rw [CMPSPInfo.getSP_of_ne hp, ← heq, hentry] at hget
  have hsender : tx.sender = a := by
    rw [← howner, Option.some.inj hget]
    simpa using hissuer
  rw [hsender, hcrowd] at hidle
  cases hidle

/-! ### Closing -/

omit hok in
theorem keptCrowds_closeCrowdsale {sp : Entry} (hother : ∀ (b : Address) (other : CMPCrowd), b ≠ a →
      s.myCrowds[b]? = some other → other.propertyId ≠ p) :
    Keeps (fun s' => s'.CrowdsKept Spare ∧ c.Tracks s' ∧ s'.myCrowds = s.myCrowds.erase a)
      (closeCrowdsale a p sp) s := by
  unfold closeCrowdsale Keeps
  rw [wp_bind]
  refine survives_updateSP fun hp => ?_
  rw [wp_bind]
  obtain ⟨hentries, hcounter⟩ := putEntry_entries (s := s) sp hp
  refine survives_credit fun _ => ⟨?_, ⟨htracks.1, fun hover => htracks.2 ?_⟩, rfl⟩
  · exact State.CrowdsKept.close (fun b other hne hget =>
      ⟨hother b other hne hget, h htracks.2 b other hget⟩) rfl hentries
  · unfold Overrun at hover ⊢
    rwa [← hcounter]

theorem keptCrowds_logicMathCloseCrowdsale :
    Keeps (CrowdsKept Spare) (logicMathCloseCrowdsale tx) s := by
  unfold logicMathCloseCrowdsale
  refine survives_get (survives_rejectIf h fun _ => survives_rejectIf h fun _ => ?_)
  cases hcrowd : s.myCrowds[tx.sender]? with
  | none => exact fun _ => h
  | some crowd =>
    refine survives_rejectIf h fun hproperty => survives_reads h reads_assertGetSP
      fun sp _ => survives_reads h reads_getMissedIssuerBonus fun missed _ => ?_
    have hproperty : tx.property = crowd.propertyId := by simpa using hproperty
    rw [hproperty, wp_bind]
    refine wp_mono (keptCrowds_closeCrowdsale htracks h fun b other hne hother => ?_)
      (fun _ _ hclosed => hclosed.1) fun _ _ hclosed hlive => (hclosed hlive).1
    exact (hok.sound.supply htracks).unique.ne hcrowd hother hne

end Logic

/-! ### Purchases -/

/-- The tokens a purchase creates for the user and for the issuer, unless the maximum is exceeded. -/
def State.purchaseTokens (s : State) (tx : CMPTransaction) (sp : Entry) : Nat × Nat :=
  let user := userTokens (!s.isPropertyDivisible tx.property) tx.nValue sp.numTokens.toNat
    (secondsLeft sp.deadline tx.blockTime) sp.earlyBird
  (user, issuerTokens user sp.percentage)

/-- The purchase creates the last token that fits, and no more. -/
def State.exactPurchase (s : State) (tx : CMPTransaction) : Bool :=
  match s.myCrowds[tx.receiver]? with
  | none => false
  | some crowd =>
      match s.mySps.getSP crowd.propertyId with
      | none => false
      | some sp =>
          crowd.propertyDesired == tx.property &&
            decide (crowd.uCreated + crowd.iCreated + (s.purchaseTokens tx sp).1 +
              (s.purchaseTokens tx sp).2 = MAX_INT_8_BYTES)

section Purchase

variable {sp : Entry} {E : Halt → Prop}

theorem created_ne_of_not_exact (hcrowd : s.myCrowds[tx.receiver]? = some crowd)
    (hget : s.mySps.getSP crowd.propertyId = some sp) (hdesired : crowd.propertyDesired = tx.property)
    (hexact : s.exactPurchase tx = false) :
    crowd.uCreated + crowd.iCreated + (s.purchaseTokens tx sp).1 + (s.purchaseTokens tx sp).2 ≠
      MAX_INT_8_BYTES := by
  simpa [State.exactPurchase, hcrowd, hget, hdesired] using hexact

theorem State.exactPurchase_congr (hcrowds : s'.myCrowds = s.myCrowds)
    (hentry : ∀ (a : Address) (crowd : CMPCrowd), s.myCrowds[a]? = some crowd →
      s'.mySps.getSP crowd.propertyId = s.mySps.getSP crowd.propertyId)
    (hdivisible : s'.isPropertyDivisible tx.property = s.isPropertyDivisible tx.property) :
    s'.exactPurchase tx = s.exactPurchase tx := by
  unfold exactPurchase purchaseTokens
  rw [hcrowds, hdivisible]
  cases hcrowd : s.myCrowds[tx.receiver]? with
  | none => rfl
  | some crowd => simp only [hentry _ _ hcrowd]

/-- **What a purchase creates**: its tokens in full, or everything that is left, and then the crowdsale
is closed.  If the last token is spared, it is not created before. -/
theorem reads_purchase (hkept : CrowdKept Spare s.mySps a crowd)
    (hcrowd : s.myCrowds[tx.receiver]? = some crowd)
    (hget : s.mySps.getSP crowd.propertyId = some sp)
    (hentry : s.mySps.entries[crowd.propertyId]? = some sp)
    (hvalue : (tx.nValue : Int) ≤ MAX_INT_8_BYTES) {total : Int}
    (htotal : total = crowd.uCreated + crowd.iCreated ∧ 0 ≤ total ∧ total ≤ MAX_INT_8_BYTES)
    (hdesired : crowd.propertyDesired = tx.property)
    (hexact : Spare → s.exactPurchase tx = false)
    (hcalc : ¬Spare → ∀ e, CalcError True e → E e) (htime : tx.blockTime < 0 → E (.abort .other)) :
    Reads (calculateFundraiser (!s.isPropertyDivisible tx.property) (toInt64 tx.nValue) sp.earlyBird
        sp.deadline tx.blockTime sp.numTokens sp.percentage total)
      (fun tokens => 0 ≤ tokens.1 ∧ 0 ≤ tokens.2.1 ∧
        total + tokens.1 + tokens.2.1 ≤ MAX_INT_8_BYTES ∧
        (Spare → tokens.2.2 = false → total + tokens.1 + tokens.2.1 < MAX_INT_8_BYTES)) E s := by
  obtain ⟨htotal, hrange⟩ := htotal
  obtain ⟨info, hinfo, -, hterms⟩ := hkept.entry
  cases hentry.symm.trans hinfo
  have hamount : toInt64 tx.nValue = tx.nValue :=
    toInt64_of_range (by unfold MIN_INT_8_BYTES; omega) hvalue
  have hbought : PurchaseTerms tx.nValue sp.numTokens sp.deadline sp.earlyBird sp.percentage :=
    ⟨⟨by omega, hvalue⟩, hterms.props, hterms.deadline, hterms.bonus, hterms.perc⟩
  have hfull : total = MAX_INT_8_BYTES → E .thrown := by
    intro hmax
    refine hcalc (fun hspare => ?_) _ (.inr ⟨trivial, rfl⟩)
    have hbelow := hkept.below hspare
    omega
  rw [hamount]
  refine (reads_calculateFundraiser_tokens hbought hrange htime hfull (s.purchaseTokens tx sp).1
    (s.purchaseTokens tx sp).2 rfl rfl).mono ?_
  rintro tokens (⟨hfits, rfl⟩ | ⟨-, hclosed, huser, hissuer, hall⟩)
  · refine ⟨by simp only; omega, by simp only; omega, hfits, fun hspare _ => ?_⟩
    have hne := created_ne_of_not_exact hcrowd hget hdesired (hexact hspare)
    rw [← htotal] at hne
    simp only
    omega
  · exact ⟨huser, hissuer, Int.le_of_eq hall, fun _ hopen => by rw [hclosed] at hopen; cases hopen⟩

theorem CrowdKept.invest {user issuer paid time : Int} {txid : Hash} {closed : Bool}
    (h : CrowdKept Spare s.mySps a crowd) (hnonneg : 0 ≤ crowd.uCreated ∧ 0 ≤ crowd.iCreated)
    (huser : 0 ≤ user) (hissuer : 0 ≤ issuer)
    (hmax : crowd.uCreated + crowd.iCreated + user + issuer ≤ MAX_INT_8_BYTES)
    (hbelow : Spare → closed = false →
      crowd.uCreated + crowd.iCreated + user + issuer < MAX_INT_8_BYTES)
    (hfresh : crowd.txFundraiserData[txid]? = none) (hopen : closed = false) :
    CrowdKept Spare s.mySps a (crowd.invest txid [paid, time, user, issuer] user issuer) := by
  have hu : toInt64 (crowd.uCreated + user) = crowd.uCreated + user :=
    toInt64_of_range (by unfold MIN_INT_8_BYTES; omega) (by omega)
  have hi : toInt64 (crowd.iCreated + issuer) = crowd.iCreated + issuer :=
    toInt64_of_range (by unfold MIN_INT_8_BYTES; omega) (by omega)
  have hsum : ∀ position, recordSum position (crowd.txFundraiserData.insertIfNew txid
      [paid, time, user, issuer]) = recordSum position crowd.txFundraiserData +
        [paid, time, user, issuer].getD position 0 := by
    intro position
    rw [insertIfNew_of_none hfresh]
    exact (mapSum_insert_new hfresh).trans (Int.add_comm _ _)
  refine ⟨h.entry, ?_, ?_, fun hspare => ?_⟩
  · simp only [CMPCrowd.invest, hu, hsum, ← h.user]
    rfl
  · simp only [CMPCrowd.invest, hi, hsum, ← h.issuer]
    rfl
  · have := hbelow hspare hopen
    simp only [CMPCrowd.invest, hu, hi]
    omega

end Purchase

/-- The failures that end a purchase, and the states they leave behind. -/
structure PurchaseFails (Spare : Prop) (env : Env) (tx : CMPTransaction) (E : Halt → State → Prop)
    (s : State) : Prop where
  ret : ∀ rc, E (.ret rc) s
  /-- the last token may have been created -/
  calculation : ¬Spare → ∀ e, CalcError True e → E e s
  time : tx.blockTime < 0 → E (.abort .other) s
  chain : env.chainActive tx.block = none → ∀ s', E .crash s'
  fees : ∀ crowd : CMPCrowd, s.myCrowds[tx.receiver]? = some crowd →
    0 < s.getCachedAmount crowd.propertyId → ¬s.HasFeeOwner crowd.propertyId →
      ∀ s', E (.abort .other) s'

/-- The state after the tokens of a purchase have been credited. -/
def State.purchased (s : State) (tx : CMPTransaction) (crowd : CMPCrowd) (user issuer : Int) :
    State :=
  { (s.credit tx.sender crowd.propertyId user).credit tx.receiver crowd.propertyId issuer with
    myCrowds := s.myCrowds.insert tx.receiver
      (crowd.invest tx.txid [toInt64 tx.nValue, tx.blockTime, user, issuer] user issuer) }

section Participation

variable {E : Halt → State → Prop} {sp : Entry} {user issuer : Int}

theorem wp_eraseMaxedCrowdsale {time block : Int} (hget : s.myCrowds[a]? = some crowd)
    (hentry : s.mySps.getSP crowd.propertyId = some sp)
    (hp : crowd.propertyId ≠ 1 ∧ crowd.propertyId ≠ 2)
    (hunique : CrowdsUnique s.myCrowds) (hother : ∀ (b : Address) (other : CMPCrowd), b ≠ a →
      s.myCrowds[b]? = some other → CrowdKept Spare s.mySps b other)
    (hchain : env.chainActive block = none → ∀ s', E .crash s') :
    wp (eraseMaxedCrowdsale env a time block) (fun _ => CrowdsKept Spare) E s := by
  unfold eraseMaxedCrowdsale assertGetSP
  rw [wp_bind, wp_get, hget]
  simp only
  rw [wp_bind, wp_bind, wp_get, hentry]
  simp only [wp_pure]
  cases hknown : env.chainActive block with
  | none => exact hchain hknown s
  | some blockHash =>
    have hupdate : ∀ info, (s.mySps.updateSP crowd.propertyId info).1 = true := fun info =>
      (@CMPSPInfo.updateSP_of_ne s.mySps _ hp info).1
    unfold assertUpdateSP
    simp only [wp_bind, wp_get, wp_modify, wp_set, hupdate]
    exact State.CrowdsKept.close (fun b other hne hfound =>
      ⟨hunique.ne hget hfound hne, hother b other hne hfound⟩) rfl (putEntry_entries _ hp).1

theorem canCredit_purchase (hs : Sound c s) (huser : 0 ≤ user)
    (hheld : s.held p + user + issuer ≤ MAX_INT_8_BYTES) (hissuer : 0 ≤ issuer) {b : Address} :
    s.CanCredit a p user ∧ (s.credit a p user).CanCredit b p issuer := by
  have hfirst : s.CanCredit a p user := hs.canCredit (by omega)
  refine ⟨hfirst, fun _ => ?_⟩
  have hle := (hs.range.credit hfirst).money_le_held b p (t := .BALANCE) (by decide)
  rw [held_credit _ _ _ _ huser, if_pos rfl] at hle
  omega

theorem hasFeeOwner_purchased (hp : 2 < crowd.propertyId) {q : PropertyId} :
    (s.purchased tx crowd user issuer).HasFeeOwner q ↔ s.HasFeeOwner q := by
  refine HasFeeOwner.of_money fun a t => ?_
  have hq := feeOwnersProperty_le q
  have hne : ¬crowd.propertyId = feeOwnersProperty q := by lia
  change State.money (State.credit (State.credit s _ _ _) _ _ _) a _ t = _
  simp [money_credit, hne]

theorem wp_afterPurchase (hs : Sound c (s.purchased tx crowd user issuer)) (htracks : c.Tracks s)
    (hfails : PurchaseFails Spare env tx E s) (hblock : tx.block = c.block)
    (hcrowd : s.myCrowds[tx.receiver]? = some crowd)
    (hentry : s.mySps.getSP crowd.propertyId = some sp) (hp : 2 < crowd.propertyId)
    (h : s.CrowdsKept Spare) {closed : Bool} (rc : Int)
    (hopen : closed = false → CrowdKept Spare s.mySps tx.receiver
      (crowd.invest tx.txid [toInt64 tx.nValue, tx.blockTime, user, issuer] user issuer)) :
    wp (notifyTotalTokensChanged env crowd.propertyId tx.block >>= fun _ => do
        if closed then eraseMaxedCrowdsale env tx.receiver tx.blockTime tx.block else pure ()
        pure rc)
      (fun _ => CrowdsKept Spare) E (s.purchased tx crowd user issuer) := by
  have hother : ∀ (b : Address) (other : CMPCrowd), b ≠ tx.receiver →
      (s.purchased tx crowd user issuer).myCrowds[b]? = some other →
        CrowdKept Spare s.mySps b other := by
    intro b other hne hfound
    exact h htracks.2 b other ((getElem?_insert_of_ne (Ne.symm hne)).symm.trans hfound)
  have hnotify := wp_notify_of_owner env (E := E) hs htracks fun hcached hnone =>
    hfails.fees crowd hcrowd hcached ((hasFeeOwner_purchased hp).not.mp hnone)
  rw [wp_bind, hblock]
  refine wp_mono (wp_and touches_notifyTotalTokensChanged hnotify) ?_ fun _ _ hboth => hboth.2
  rintro _ s' ⟨hagree, -⟩
  have hcrowds : s'.myCrowds = (s.purchased tx crowd user issuer).myCrowds :=
    hagree .crowds (by decide)
  have hentries : s'.mySps.entries = s.mySps.entries :=
    congrArg Prod.fst (hagree .properties (by decide))
  have hkept : ∀ (b : Address) (other : CMPCrowd), b ≠ tx.receiver →
      s'.myCrowds[b]? = some other → CrowdKept Spare s'.mySps b other := by
    intro b other hne hfound
    rw [hcrowds] at hfound
    exact (hother b other hne hfound).congr (by rw [hentries])
  have hnow : s'.myCrowds[tx.receiver]? = some (crowd.invest tx.txid
      [toInt64 tx.nValue, tx.blockTime, user, issuer] user issuer) := by
    rw [hcrowds]
    exact ExtTreeMap.getElem?_insert_self
  cases hclosed : closed with
  | false =>
    intro _ b other hfound
    by_cases hb : b = tx.receiver
    · subst hb
      cases hnow.symm.trans hfound
      exact (hopen hclosed).congr (by rw [hentries])
    · exact hkept b other hb hfound
  | true =>
    have hentry' : s'.mySps.getSP crowd.propertyId = some sp := by
      rw [CMPSPInfo.getSP_of_ne (by lia)] at hentry ⊢
      rw [hentries]
      exact hentry
    have hunique : CrowdsUnique s'.myCrowds := by
      rw [hcrowds]
      exact (hs.supply htracks).unique
    have hne : crowd.propertyId ≠ 1 ∧ crowd.propertyId ≠ 2 := by lia
    simp only [if_true]
    rw [wp_bind]
    exact wp_eraseMaxedCrowdsale hnow hentry' hne hunique hkept (hblock ▸ hfails.chain)

/-- **A purchase keeps the crowdsales.**  The one it belongs to may have created the last token in
between, but is closed then. -/
theorem wp_participation (hs : Sound c s) (htracks : c.Tracks s)
    (hfails : PurchaseFails Spare env tx E s) (htxid : tx.txid = c.txid) (hblock : tx.block = c.block)
    (hfresh : ∀ (a : Address) (crowd : CMPCrowd), s.myCrowds[a]? = some crowd →
      crowd.txFundraiserData[c.txid]? = none)
    (hvalue : (tx.nValue : Int) ≤ MAX_INT_8_BYTES) (hexact : Spare → s.exactPurchase tx = false)
    (h : s.CrowdsKept Spare) :
    wp (logicHelperCrowdsaleParticipation env tx) (fun _ => CrowdsKept Spare) E s := by
  unfold logicHelperCrowdsaleParticipation assertGetSP
  rw [wp_bind, wp_get]
  cases hcrowd : s.myCrowds[tx.receiver]? with
  | none => exact hfails.ret _
  | some crowd =>
    have hsupply := hs.supply htracks
    have hkept := h htracks.2 _ _ hcrowd
    have hnonneg := (hsupply.crowds _ _ hcrowd).nonneg
    obtain ⟨hheld, hmax, hreported⟩ := hs.crowd_created htracks hcrowd
    obtain ⟨sp, hentry, -⟩ := hkept.entry
    have hp := hsupply.two_lt_of_entry hentry
    have hget : s.mySps.getSP crowd.propertyId = some sp := by
      rw [CMPSPInfo.getSP_of_ne (by lia)]
      exact hentry
    simp only
    by_cases hdesired : crowd.propertyDesired = tx.property
    · have hnot : (crowd.propertyDesired != tx.property) = false := by simpa using hdesired
      rw [hnot, rejectIf_false, hreported]
      simp only [pure_bind, wp_bind, wp_get, hget, wp_pure]
      refine wp_mono (reads_purchase hkept hcrowd hget hentry hvalue ⟨rfl, by omega, hmax⟩ hdesired
        hexact hfails.calculation hfails.time) ?_ fun _ _ hboth => hboth.1 ▸ hboth.2
      rintro tokens s' ⟨rfl, huser, hissuer, htotal, hbelow⟩
      have hcached := hsupply.cached crowd.propertyId
      obtain ⟨hcredit, hcredit'⟩ := canCredit_purchase (p := crowd.propertyId) (a := tx.sender)
        (b := tx.receiver) hs huser (by omega) hissuer
      have hstep := @Step.participate c s' tx.sender tx.receiver crowd sp (toInt64 tx.nValue)
        tx.blockTime tokens.1 tokens.2.1 hcrowd hget huser hissuer
        (fun _ => by rw [hreported]; exact htotal) (fun _ => hfresh _ _ hcrowd) hcredit hcredit'
      have hs' := hs.step hstep
      rw [← htxid] at hs' hfresh
      rw [wp_modify]
      refine wp_credit_of_canCredit hs.range hcredit ?_
      refine wp_credit_of_canCredit (hs.range.credit hcredit) hcredit' ?_
      have hafter := wp_afterPurchase hs' htracks hfails hblock hcrowd hget hp h
        (if tokens.1 = 0 ∧ tokens.2.1 = 0 then PKT_ERROR_CROWD - 3 else 0) fun hopen => hkept.invest hnonneg huser hissuer htotal hbelow (hfresh _ _ hcrowd) hopen
      rw [wp_bind] at hafter
      exact hafter
    · have hnot : (crowd.propertyDesired != tx.property) = true := by simpa using hdesired
      rw [hnot]
      exact hfails.ret _

theorem wp_logicMathSimpleSend (hok : PacketOk c tx s) (htracks : c.Tracks s)
    (h : s.CrowdsKept Spare) (hret : ∀ rc, E (.ret rc) s)
    (hexact : Spare → s.exactPurchase tx = false)
    (hfails : PurchaseFails Spare env tx
      (fun e s' => match e with | .ret _ => s'.CrowdsKept Spare | e => E e s')
      (s.move tx.property tx.nValue tx.sender .BALANCE tx.receiver .BALANCE)) :
    wp (logicMathSimpleSend env tx) (fun _ => CrowdsKept Spare) E s := by
  have hreject : ∀ {cond : Bool} {rc : Int} {f : Unit → Op Int},
      (cond = false → wp (f ()) (fun _ => CrowdsKept Spare) E s) →
        wp (rejectIf cond rc >>= f) (fun _ => CrowdsKept Spare) E s := by
    intro cond rc f hf
    cases cond with
    | false => exact hf rfl
    | true => exact hret rc
  unfold logicMathSimpleSend
  rw [wp_bind, wp_get]
  refine hreject fun _ => hreject fun hvalue => hreject fun _ => hreject fun hbalance => ?_
  replace hvalue := amount_of_valueOutOfRange hvalue
  have hbalance : (tx.nValue : Int) ≤ s.money tx.sender tx.property .BALANCE :=
    Int.not_lt.mp (of_decide_eq_false hbalance)
  have hheld := hok.sound.held_le htracks tx.property
  have hcached := (hok.sound.supply htracks).cached tx.property
  have hmove := hok.sound.range.canMove (b := tx.receiver) (u := .BALANCE) (by decide) (by decide)
    hvalue.1 hbalance (by omega)
  have hsame : (s.move tx.property tx.nValue tx.sender .BALANCE tx.receiver
      .BALANCE).exactPurchase tx = s.exactPurchase tx :=
    State.exactPurchase_congr rfl (fun _ _ _ => rfl) rfl
  have hexact' := fun hspare => hsame.trans (hexact hspare)
  simp only [wp_bind, wp_pure]
  refine wp_move_of_canMove (fun _ => hok.free) hok.sound.range (by decide) hmove (wp_callRc_of ?_)
  exact wp_participation (hok.sound.step (.transfer hmove hok.free)) htracks hfails hok.txid hok.block
    (hok.crowd_fresh htracks.1) hvalue.2 hexact' h

theorem purchaseFails_survives (h : s.CrowdsKept Spare) :
    PurchaseFails Spare env tx (Survives (CrowdsKept Spare)) s :=
  ⟨fun _ _ => h, fun _ _ _ _ => h, fun _ => False.elim, fun _ _ => False.elim,
    fun _ _ _ _ _ => False.elim⟩

theorem purchaseFails_kept (h : s.CrowdsKept Spare) :
    PurchaseFails Spare env tx (fun e s' => match e with
      | .ret _ => s'.CrowdsKept Spare
      | e => Survives (CrowdsKept Spare) e s') s := by
  refine ⟨fun _ => h, fun _ e he => ?_, fun _ => False.elim, fun _ _ => False.elim,
    fun _ _ _ _ _ => False.elim⟩
  rcases he with rfl | ⟨-, rfl⟩
  · exact False.elim
  · exact fun _ => h

theorem keptCrowds_logicMathSimpleSend (hok : PacketOk c tx s) (htracks : c.Tracks s)
    (hexact : Spare → s.exactPurchase tx = false) (h : s.CrowdsKept Spare) :
    Keeps (CrowdsKept Spare) (logicMathSimpleSend env tx) s :=
  wp_logicMathSimpleSend hok htracks h (fun _ _ => h) hexact (purchaseFails_kept h)

theorem keptCrowds_logicMathGrantTokens (hok : PacketOk c tx s) (htracks : c.Tracks s)
    (hexact : Spare → s.aux.params.isFeatureActivated FEATURE_GRANTEFFECTS tx.block = false →
      s.exactPurchase tx = false) (h : s.CrowdsKept Spare) :
    Keeps (CrowdsKept Spare) (logicMathGrantTokens env tx) s := by
  unfold logicMathGrantTokens
  refine survives_get (survives_rejectIf h fun _ => survives_rejectIf h fun hvalue =>
    survives_rejectIf h fun _ => survives_reads h reads_assertGetSP fun sp hget =>
      survives_rejectIf h fun hmanual => survives_rejectIf h fun _ =>
        survives_rejectIf h fun hsupply => ?_)
  replace hvalue := amount_of_valueOutOfRange hvalue
  replace hmanual : sp.manual = true := by simpa using hmanual
  replace hsupply := Int.not_lt.mp (of_decide_eq_false hsupply)
  have hp := ne_of_manual hget hmanual
  have hother : ∀ (a : Address) (crowd : CMPCrowd), s.myCrowds[a]? = some crowd →
      crowd.propertyId ≠ tx.property := fun a crowd hcrowd =>
    crowd_ne_of_manual hok htracks hget hmanual hcrowd
  rw [wp_bind]
  refine survives_updateSP fun _ => ?_
  rw [wp_bind]
  refine survives_update (by decide) fun hadmits => ?_
  have hstep := Step.grant (c := c) (a := tx.receiver) tx.blockHash hp hget hmanual hvalue.1 hsupply
    (fun ht => hok.entry_fresh ht hget) fun hpos => hadmits.2.2 hpos
  rw [credit_of_pos hvalue.1] at hstep
  have hs' := hok.sound.step hstep
  rw [hok.txid]
  generalize hinfo : ({ sp with
    historicalData := sp.historicalData.insertIfNew c.txid [(tx.nValue : Int), 0]
    updateBlock := tx.blockHash } : Entry) = info at *
  have hgranted : ((s.putEntry tx.property info).addTally tx.receiver tx.property tx.nValue
      .BALANCE).CrowdsKept Spare := keptCrowds_putEntry htracks h hp hother info
  have htracks' : c.Tracks ((s.putEntry tx.property info).addTally tx.receiver tx.property tx.nValue
      .BALANCE) := by
    refine ⟨htracks.1, fun hover => htracks.2 ?_⟩
    unfold Overrun at hover ⊢
    rwa [← (putEntry_entries (s := s) info hp).2]
  have hnotify : ∀ {s' : State}, s'.CrowdsKept Spare → Keeps (CrowdsKept Spare)
      (notifyTotalTokensChanged env tx.property tx.block >>= fun _ => pure (0 : Int)) s' := fun h' =>
    keeps_of_touches (.bind touches_notifyTotalTokensChanged fun _ _ => .pure)
      fun _ hagree => h'.of_agree hagree (by decide)
  rw [wp_ite]
  refine ⟨fun _ => hnotify hgranted, fun hinactive => ?_⟩
  refine Keeps.bind (keeps_callRc ?_) fun _ _ h' => hnotify h'
  refine wp_participation hs' htracks' (purchaseFails_survives hgranted) hok.txid hok.block
    (hok.crowd_fresh htracks.1) hvalue.2 (fun hspare => ?_) hgranted
  rw [State.exactPurchase_congr (s := s)]
  · exact hexact hspare (by simpa using hinactive)
  · rfl
  · intro a crowd hcrowd
    obtain ⟨old, hold, -⟩ := (h htracks.2 a crowd hcrowd).entry
    have := (hok.sound.supply htracks).two_lt_of_entry hold
    rw [CMPSPInfo.getSP_of_ne (by lia), CMPSPInfo.getSP_of_ne (by lia)]
    change (s.putEntry tx.property info).mySps.entries[_]? = _
    rw [(putEntry_entries info hp).1, getElem?_insert_of_ne (Ne.symm (hother a crowd hcrowd))]
  · have hnow : (s.putEntry tx.property info).mySps.getSP tx.property = some info := by
      rw [CMPSPInfo.getSP_of_ne hp, (putEntry_entries info hp).1, ExtTreeMap.getElem?_insert_self]
    change (s.putEntry tx.property info).isPropertyDivisible tx.property = _
    unfold isPropertyDivisible
    rw [hnow, hget, ← hinfo]
    rfl

end Participation

/-! ### Expiry -/

theorem keptCrowds_eraseExpiredCrowdsale {time : Int} {blockHash : Hash} (hs : Sound c s)
    (htracks : c.Tracks s) (h : s.CrowdsKept Spare) :
    Keeps (CrowdsKept Spare) (eraseExpiredCrowdsale time blockHash) s := by
  unfold eraseExpiredCrowdsale
  refine survives_get ?_
  -- the crowdsales that are left are among those of the beginning
  have hloop := Keeps.forM (I := fun s' : State => s'.CrowdsKept Spare ∧ c.Tracks s' ∧
      ∀ (a : Address) (crowd : CMPCrowd), s'.myCrowds[a]? = some crowd →
        s.myCrowds[a]? = some crowd)
    (fun entry => eraseExpiredCrowd time blockHash entry.1 entry.2) s.myCrowds.toList s ?_
    ⟨h, htracks, fun _ _ => id⟩
  · exact wp_mono hloop (fun _ _ hleft => hleft.1) fun _ _ hleft hlive => (hleft hlive).1
  · rintro ⟨a, crowd⟩ hmem s' ⟨hkept, htracks', hsub⟩
    have hcrowd := mem_toList.mp hmem
    unfold eraseExpiredCrowd Keeps
    rw [wp_ite]
    refine ⟨fun _ => ?_, fun _ => ⟨hkept, htracks', hsub⟩⟩
    refine survives_reads ⟨hkept, htracks', hsub⟩ reads_assertGetSP fun sp _ =>
      survives_reads ⟨hkept, htracks', hsub⟩ reads_getMissedIssuerBonus fun missed _ => ?_
    have hsub' : ∀ u : State, u.myCrowds = s'.myCrowds.erase a →
        ∀ (b : Address) (other : CMPCrowd), u.myCrowds[b]? = some other →
          s.myCrowds[b]? = some other := by
      intro u hu b other hget
      rw [hu] at hget
      exact hsub b other (getElem?_of_erase hget).2
    refine wp_mono (keptCrowds_closeCrowdsale htracks' hkept fun b other hne hother => ?_)
      (fun _ u hclosed => ⟨hclosed.1, hclosed.2.1, hsub' u hclosed.2.2⟩)
      fun _ u hclosed hlive => ⟨(hclosed hlive).1, (hclosed hlive).2.1, hsub' u (hclosed hlive).2.2⟩
    exact (hs.supply htracks).unique.ne hcrowd (hsub b other hother) hne

/-! ### Events -/

/-- The transaction buys from a crowdsale if there is one: a send, and a grant before its side
effects are disabled. -/
def State.buys (s : State) (tx : CMPTransaction) : Bool :=
  tx.type == MSC_TYPE_SIMPLE_SEND || tx.type == MSC_TYPE_GRANT_PROPERTY_TOKENS &&
    !s.aux.params.isFeatureActivated FEATURE_GRANTEFFECTS tx.block

/-- The event is a purchase that creates the last token that fits. -/
def Event.exactPurchase (s : State) : Event → Bool
  | .packet tx =>
      match tx.interpretTransaction with
      | some parsed => s.buys parsed && s.exactPurchase parsed
      | none => false
  | _ => false

theorem bytes_interpretTransaction {parsed : CMPTransaction}
    (h : tx.interpretTransaction = some parsed)
    (hvariable : parsed.type = MSC_TYPE_CREATE_PROPERTY_VARIABLE) :
    parsed.earlyBird < 2 ^ 8 ∧ parsed.percentage < 2 ^ 8 := by
  obtain ⟨tx₁, htype, hhead⟩ := sameHead_of_interpretTransaction h
  rw [hhead.type] at hvariable
  simp only [CMPTransaction.interpretTransaction, htype, Option.bind_eq_bind, Option.bind_some,
    hvariable] at h
  change tx₁.interpretCreatePropertyVariable = some parsed at h
  rw [CMPTransaction.interpretCreatePropertyVariable, Option.ite_none_left_eq_some] at h
  obtain ⟨-, h⟩ := h
  dsimp only at h
  rw [Option.ite_none_left_eq_some] at h
  cases h.2
  have hbyte : ∀ pos, tx₁.readUInt pos 1 < 2 ^ 8 := fun pos => by
    have := (tx₁.buffer.getD (pos + 0) 0).toNat_lt
    change 256 * 0 + (tx₁.buffer.getD (pos + 0) 0).toNat < 2 ^ 8
    omega
  exact ⟨hbyte _, hbyte _⟩

theorem apart_crowds {type : Nat} (h : type ∉ [MSC_TYPE_SIMPLE_SEND, MSC_TYPE_CREATE_PROPERTY_FIXED,
      MSC_TYPE_CREATE_PROPERTY_VARIABLE, MSC_TYPE_CLOSE_CROWDSALE, MSC_TYPE_CREATE_PROPERTY_MANUAL,
      MSC_TYPE_GRANT_PROPERTY_TOKENS, MSC_TYPE_REVOKE_PROPERTY_TOKENS,
      MSC_TYPE_CHANGE_ISSUER_ADDRESS]) :
    Apart (partsOfType type) [.crowds, .properties, .counters] := by
  simp only [List.mem_cons, List.not_mem_nil, or_false, not_or] at h
  obtain ⟨hsend, hfixed, hvariable, hclose, hmanaged, hgrant, hrevoke, hissuer⟩ := h
  unfold partsOfType
  rw [if_neg hsend, if_neg hfixed, if_neg hvariable, if_neg hclose, if_neg hmanaged, if_neg hgrant,
    if_neg hrevoke, if_neg hissuer]
  repeat refine apart_ite (by decide) ?_
  decide

/-- **A transaction keeps the crowdsales.** -/
theorem keptCrowds_logicMath (hok : PacketOk c tx s) (htracks : c.Tracks s)
    (hbytes : tx.type = MSC_TYPE_CREATE_PROPERTY_VARIABLE →
      tx.earlyBird < 2 ^ 8 ∧ tx.percentage < 2 ^ 8)
    (hexact : Spare → s.buys tx = true → s.exactPurchase tx = false) (h : s.CrowdsKept Spare) :
    Keeps (CrowdsKept Spare) (logicMath env tx) s := by
  by_cases hother : tx.type ∉ [MSC_TYPE_SIMPLE_SEND, MSC_TYPE_CREATE_PROPERTY_FIXED,
      MSC_TYPE_CREATE_PROPERTY_VARIABLE, MSC_TYPE_CLOSE_CROWDSALE, MSC_TYPE_CREATE_PROPERTY_MANUAL,
      MSC_TYPE_GRANT_PROPERTY_TOKENS, MSC_TYPE_REVOKE_PROPERTY_TOKENS,
      MSC_TYPE_CHANGE_ISSUER_ADDRESS]
  · exact keeps_of_touches touches_logicMath fun _ hagree => h.of_agree hagree (apart_crowds hother)
  · simp only [List.mem_cons, List.not_mem_nil, or_false, not_not] at hother
    unfold logicMath
    rcases hother with htype | htype | htype | htype | htype | htype | htype | htype <;>
      rw [htype]
    · exact keptCrowds_logicMathSimpleSend hok htracks
        (fun hspare => hexact hspare (by simp [State.buys, htype])) h
    · exact keptCrowds_logicMathCreatePropertyFixed hok htracks h
    · exact keptCrowds_logicMathCreatePropertyVariable hok htracks h (hbytes htype)
    · exact keptCrowds_logicMathCloseCrowdsale hok htracks h
    · exact keptCrowds_logicMathCreatePropertyManaged hok htracks h
    · exact keptCrowds_logicMathGrantTokens hok htracks
        (fun hspare hinactive => hexact hspare (by simp [State.buys, htype, hinactive])) h
    · exact keptCrowds_logicMathRevokeTokens hok htracks h
    · exact keptCrowds_logicMathChangeIssuer htracks h

/-- **An event keeps the crowdsales.** -/
theorem keptCrowds_exec {event : Event} (hs : Sound c s) (hsuits : Suits c env s event)
    (htracks : c.Tracks s) (hexact : Spare → event.exactPurchase s = false)
    (h : s.CrowdsKept Spare) : Keeps (CrowdsKept Spare) (event.exec env) s := by
  cases event with
  | packet tx =>
    refine keeps_packet h fun parsed hparse hfree => ?_
    refine keptCrowds_logicMath (hsuits.packetOk hs hparse hfree) htracks
      (bytes_interpretTransaction hparse) (fun hspare hbuys => ?_) h
    have hnot := hexact hspare
    simpa [Event.exactPurchase, hparse, hbuys] using hnot
  | expireCrowdsales time blockHash => exact keptCrowds_eraseExpiredCrowdsale hs htracks h
  | payment | expireAccepts | vestDevmsc | pending =>
    exact keeps_of_touches (touches_exec _) fun s' hagree =>
      h.of_agree hagree (by simp only [Event.parts]; decide)

/-! ### Runs -/

theorem Outcome.overrun (h : Outcome c s s') (hs : Sound c s) (hover : s.Overrun) : s'.Overrun :=
  h.induction hs (fun _ => hover) (fun _ _ ht hover' hstep => hstep.overrun ht.spid hover')
    fun _ _ => hover

/-- **The crowdsales are kept along a run.** -/
theorem run_crowdsKept (hstart : Genesis s₀) (htxids : (events.filterMap Event.txid?).Nodup)
    (hheights : (events.filterMap Event.height?).Pairwise (· ≤ ·))
    (hexact : Spare → ∀ before event after t, events = before ++ event :: after →
      run env s₀ before = some t → event.exactPurchase t = false)
    (hrun : run env s₀ events = some s) : s.CrowdsKept Spare := by
  have hsuits : RunSuits .tracked env s₀ events := runSuits_tracked htxids hheights
  refine foldlM_invariant (I := fun _ s => s.CrowdsKept Spare) ?_ ?_ hrun
  · intro _ a crowd hget
    simp [hstart.crowds] at hget
  · intro before event after u u' hsplit hbefore hu hnext
    obtain ⟨block, txid, hsound, hsuit⟩ := hsuits.next hstart hsplit hbefore
    by_cases hover : u.Overrun
    · exact fun hspace =>
        absurd ((step_outcome hsound hsuit hnext).overrun hsound hover) hspace
    · exact (keptCrowds_exec hsound hsuit ⟨trivial, hover⟩
        (fun hspare => hexact hspare before event after u hsplit hbefore) hu).step hnext

/-- A crowdsale with bonuses for early buyers and for the issuer, and two purchases. -/
def purchaseEvents : List Event := [
  .vestDevmsc 1500000000 50000,
  samplePacket 50000 0 "issuer".toList [] (createPayloadIssuanceVariable 1 1 0 [] [] "token".toList []
    [] 1 100 1501209600 10 20),
  samplePacket 50001 0 "exodus".toList "issuer".toList (createPayloadSimpleSend 1 100000000),
  samplePacket 50001 1 "exodus".toList "issuer".toList (createPayloadSimpleSend 1 200000000)]

def fundedEnv : Env := { sampleEnv with devmscAvailable := fun _ => 1000000000 }

/-- The first property of the test ecosystem, sold in a crowdsale. -/
def testCrowdsale : Event := .packet {
  txid := 0
  block := 50000
  blockTime := 1500000000
  txIdx := 0
  txFeePaid := 0
  blockHash := 50000
  payload := createPayloadIssuanceVariable 2 1 0 [] [] "token".toList [] [] 2 1 1600000000 0 0
  sender := "seller".toList
  receiver := [] }

theorem exists_testCrowdsale : ∃ s crowd, step sampleEnv (State.empty sampleEnv mainConsensusParams)
    testCrowdsale = some s ∧ s.myCrowds["seller".toList]? = some crowd ∧
      crowd.propertyId = TEST_ECO_PROPERTY_1 ∧ crowd.uCreated + crowd.iCreated = 0 ∧ Issued s 3 s ∧
      ∀ a p, s.money a p .BALANCE = 0 := by
  have hvalues : (step sampleEnv (State.empty sampleEnv mainConsensusParams) testCrowdsale).map
      (fun s => ((s.myCrowds["seller".toList]?).map fun crowd =>
        (crowd.propertyId, crowd.uCreated + crowd.iCreated), s.mySps.nextSpid)) =
      some (some (TEST_ECO_PROPERTY_1, 0), 3) := by decide +kernel
  obtain ⟨s, hstep, hs⟩ := Option.map_eq_some_iff.mp hvalues
  simp only [Prod.mk.injEq, Option.map_eq_some_iff] at hs
  obtain ⟨⟨crowd, hcrowd, hid, hcreated⟩, hcounter⟩ := hs
  have hparts : testCrowdsale.parts = [.properties, .counters, .crowds] := by decide +kernel
  have hagree : stateParts.Agree testCrowdsale.parts (State.empty sampleEnv mainConsensusParams) s :=
    (keeps_of_touches (touches_exec _) fun _ h => h).step hstep
  rw [hparts] at hagree
  have hmoney : ∀ a p, s.money a p .BALANCE = 0 := fun a p =>
    congrFun (congrFun (hagree (.tally .BALANCE) (by decide)) a) p
  have hparams : s.aux.params = mainConsensusParams :=
    hagree .params (by decide)
  have hfrozen : s.setFrozenAddresses = ∅ := congrArg Prod.snd (hagree .freezing (by decide))
  exact ⟨s, crowd, hstep, hcrowd, hid, hcreated, ⟨hparams, hagree .cache (by decide), hfrozen, hcounter, rfl,
    fun _ _ _ => rfl, fun _ _ => rfl⟩, hmoney⟩

end HcOmni
