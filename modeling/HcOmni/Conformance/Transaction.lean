import HcOmni.Conformance.Crowdsale
import HcOmni.Conformance.DEx
import HcOmni.Conformance.MetaDEx

/-!
# Transactions take only steps

One lemma for each transaction type, under what is known about a parsed transaction when its
logic begins.
-/

namespace HcOmni

open Std MapSum Program CMPTally State

/-- What is known about a parsed transaction when its logic begins. -/
structure PacketOk (c : Ctx) (tx : CMPTransaction) (s : State) : Prop where
  sound : Sound c s
  txid : tx.txid = c.txid
  block : tx.block = c.block
  free : s.isAddressFrozen tx.sender tx.property = false
  fresh : c.Tracked → ¬s.TxUsed c.txid
  addr : tx.type = MSC_TYPE_ACCEPT_OFFER_BTC → c.Addr tx.sender ∧ c.Addr tx.receiver
  place : c.Place tx.block tx.txIdx
  feeless : c.Strict → s.aux.params.isFeatureActivated FEATURE_FEES tx.block = false
  burns : c.Strict → tx.type = MSC_TYPE_SEND_TO_OWNERS → tx.version = MP_TX_PKT_V0
  space : c.Strict → s.mySps.nextSpid < TEST_ECO_PROPERTY_1

variable {c : Ctx} {s s' : State} {env : Env} {tx : CMPTransaction}

/-! ### Checks -/

/-- How a check can fail: with an early return, or an assertion that says nothing about tokens. -/
def CheckError (e : Halt) : Prop := (∃ rc, e = .ret rc) ∨ e = .abort .other

theorem CheckError.not_bad {e : Halt} (h : CheckError e) : ¬Bad c e := by
  rcases h with ⟨rc, rfl⟩ | rfl <;> exact id

theorem reads_rejectIf {cond : Bool} {rc : Int} :
    Reads (rejectIf cond rc) (fun _ => cond = false) CheckError s := by
  cases cond with
  | false => exact .pure rfl
  | true => exact .throw (.inl ⟨rc, rfl⟩)

theorem conforms_check {α β : Type} {P : α → Prop} {R : β → State → Prop} {m : Op α} {f : α → Op β}
    (hm : Reads m P CheckError s) (hf : ∀ a, P a → Conforms c.contract (f a) R s) :
    Conforms c.contract (m >>= f) R s :=
  Conforms.reads hm (fun _ h => CheckError.not_bad h) hf

theorem amount_of_valueOutOfRange {value : Nat} (h : valueOutOfRange value = false) :
    0 < (value : Int) ∧ (value : Int) ≤ MAX_INT_8_BYTES := by
  simp only [valueOutOfRange, Bool.or_eq_false_iff, beq_eq_false_iff_ne,
    decide_eq_false_iff_not] at h
  omega

theorem reads_checkTradingPair : Reads (checkTradingPair tx) (fun _ => True) CheckError s :=
  .get (.bind reads_rejectIf fun _ _ => .bind reads_rejectIf fun _ _ => .bind reads_rejectIf
    fun _ _ => .bind reads_rejectIf fun _ _ => reads_rejectIf.mono fun _ _ => trivial)

theorem reads_checkOrderAmounts :
    Reads (checkOrderAmounts tx)
      (fun _ => (0 < (tx.nNewValue : Int) ∧ (tx.nNewValue : Int) ≤ MAX_INT_8_BYTES) ∧
        0 < (tx.desiredValue : Int) ∧ (tx.desiredValue : Int) ≤ MAX_INT_8_BYTES) CheckError s :=
  .bind reads_rejectIf fun _ h => reads_rejectIf.mono fun _ h' =>
    ⟨amount_of_valueOutOfRange h, amount_of_valueOutOfRange h'⟩

theorem ne_of_manual {p : PropertyId} {sp : Entry} (hget : s.mySps.getSP p = some sp)
    (hmanual : sp.manual = true) : p ≠ 1 ∧ p ≠ 2 := by
  constructor
  · rintro rfl
    cases hget
    cases hmanual
  · rintro rfl
    cases hget
    cases hmanual

theorem reads_checkManagedIssuer :
    Reads (checkManagedIssuer tx) (fun _ => tx.property ≠ 1 ∧ tx.property ≠ 2) CheckError s := by
  refine .get (.bind reads_rejectIf fun _ _ => .bind reads_rejectIf fun _ _ =>
    .bind (reads_assertGetSP.mono_error fun e he => ?_) fun sp hget =>
      .bind reads_rejectIf fun _ hmanual => reads_rejectIf.mono fun _ _ => ?_)
  · exact .inr (he.resolve_right fun h => h.1)
  · exact ne_of_manual hget (by simpa using hmanual)

/-! ### Sending -/

theorem PacketOk.crowd_fresh (h : PacketOk c tx s) (htracked : c.Tracked) (a : Address)
    (crowd : CMPCrowd) (hcrowd : s.myCrowds[a]? = some crowd) :
    crowd.txFundraiserData[c.txid]? = none := by
  by_contra hsome
  exact h.fresh htracked (.of_crowd hcrowd
    (ExtTreeMap.mem_iff_isSome_getElem?.mpr (Option.isSome_iff_ne_none.mpr hsome)))

theorem PacketOk.entry_fresh (h : PacketOk c tx s) (htracked : c.Tracked) {p : PropertyId}
    {sp : Entry} (hget : s.mySps.getSP p = some sp) : sp.historicalData[c.txid]? = none := by
  by_contra hsome
  exact h.fresh htracked (.of_entry hget
    (ExtTreeMap.mem_iff_isSome_getElem?.mpr (Option.isSome_iff_ne_none.mpr hsome)))

theorem conforms_logicMathSimpleSend (h : PacketOk c tx s) :
    Conforms c.contract (logicMathSimpleSend env tx) (fun _ _ => True) s := by
  unfold logicMathSimpleSend
  refine Conforms.get (conforms_rejectIf fun _ => conforms_rejectIf fun hvalue =>
    conforms_rejectIf fun _ => conforms_rejectIf fun hbalance => ?_)
  have hbalance : (tx.nValue : Int) ≤ s.money tx.sender tx.property .BALANCE :=
    Int.not_lt.mp (of_decide_eq_false hbalance)
  refine conforms_move h.sound (by decide) (by decide) (amount_of_valueOutOfRange hvalue).1
    (fun _ => h.free) (fun _ => hbalance) (fun hmove => .transfer hmove h.free) fun hmove => ?_
  exact Conforms.bind (conforms_callRc (conforms_logicHelperCrowdsaleParticipation
    (h.sound.step (.transfer hmove h.free)) h.txid h.block h.crowd_fresh)) fun _ _ _ _ =>
      Conforms.pure trivial

theorem conforms_sendToReceivers {receivers : List (Int × Address)} (hs : Sound c s)
    (hfree : s.isAddressFrozen tx.sender tx.property = false)
    (hpos : ∀ r ∈ receivers, 0 < r.1)
    (henough : c.Strict → (receivers.map Prod.fst).sum ≤ s.money tx.sender tx.property .BALANCE) :
    Conforms c.contract (sendToReceivers tx receivers) (fun _ s' => Sound c s') s := by
  refine (Conforms.forM (I := fun rest s' => Sound c s' ∧
    s'.isAddressFrozen tx.sender tx.property = false ∧ (∀ r ∈ rest, 0 < r.1) ∧
    (c.Strict → (rest.map Prod.fst).sum ≤ s'.money tx.sender tx.property .BALANCE))
    ⟨hs, hfree, hpos, henough⟩ ?_).mono fun _ _ _ h => h.1
  rintro r rest s' ⟨hs', hfree', hpos', henough'⟩
  have hr := hpos' r List.mem_cons_self
  have hrest : 0 ≤ (rest.map Prod.fst).sum := List.sum_nonneg fun x hx => by
    obtain ⟨r', hr', rfl⟩ := List.mem_map.mp hx
    exact Int.le_of_lt (hpos' r' (List.mem_cons_of_mem r hr'))
  simp only [List.map_cons, List.sum_cons] at henough'
  refine conforms_move hs' (by decide) (by decide) hr (fun _ => hfree') (fun hstrict => ?_)
    (fun hmove => .transfer hmove hfree') fun hmove => ?_
  · have := henough' hstrict
    omega
  have hsteps := Steps.record (.single (Step.transfer (c := c) hmove hfree'))
    (.stoReceive r.2 tx.txid tx.block tx.property r.1)
  refine conforms_record.mono ?_
  rintro _ s'' - rfl
  refine ⟨hsteps.sound hs', (hsteps.isAddressFrozen _ _).trans hfree',
    fun r' hr' => hpos' r' (List.mem_cons_of_mem r hr'), fun hstrict => ?_⟩
  have := henough' hstrict
  change _ ≤ (s'.move _ _ _ _ _ _).money _ _ _
  rw [money_move]
  simp only [and_true, if_true]
  split <;> omega

theorem conforms_payTransferFee {p : PropertyId} {fee : Int} (h : PacketOk c tx s)
    (hp : p = 1 ∨ p = 2) (hpos : 0 < fee)
    (hstrict : c.Strict → tx.version = MP_TX_PKT_V0 ∧ fee ≤ s.money tx.sender p .BALANCE) :
    Conforms c.contract (payTransferFee env tx p fee)
      (fun _ s' => c.Strict → s' = s.addTally tx.sender p (-fee) .BALANCE) s := by
  have hs := h.sound
  have hfree : s.isAddressFrozen tx.sender p = false := by
    by_contra hfrozen
    have := hs.frozen tx.sender p (by simpa using hfrozen)
    lia
  unfold payTransferFee
  rw [conforms_iff, wp_bind]
  refine wp_assertUpdateTallyMap (by decide) (fun _ _ => hfree) (fun hstr => ?_) fun hadmits => ?_
  · have := (hstrict hstr).2
    exact ⟨by omega, by omega, by omega⟩
  have henough : fee ≤ s.money tx.sender p .BALANCE := by
    have := hadmits.2.1
    omega
  rw [wp_ite]
  refine ⟨fun _ => ?_, fun hv1 => ?_⟩
  · exact ⟨.single (.burn hp hpos henough hfree), fun _ => rfl⟩
  · have hloose : ¬c.Strict := fun hstr => hv1 (hstrict hstr).1
    rw [h.block]
    refine wp_mono (wp_addFee hloose ?_ fun htracks => ?_)
      (fun _ s' hfee => ⟨.single (.feePaid hloose hp hpos henough hfree hfee),
        fun hstr => absurd hstr hloose⟩)
      fun e s' he => ⟨fun hlive => .single (.feePaid hloose hp hpos henough hfree (he.1 hlive).2),
        he.2⟩
    · exact hs.range.debit (Int.le_of_lt hpos) henough
    · -- the fee was held by the sender, so the cache has room for it
      have htracks : c.Tracks s := htracks
      have hready := hs.feesReady htracks
      have hmoney := hs.range.money_le_held tx.sender p (t := .BALANCE) (by decide)
      have hheld := hs.held_le htracks p
      refine ⟨⟨hready.ordered, hready.cached, fun q hq => ?_⟩, Int.le_of_lt hpos, ?_⟩
      · have := hready.owned q hq
        rw [held_addTally]
        split <;> omega
      · change s.getCachedAmount p + fee ≤ _
        omega

theorem length_le_sum {receivers : List (Int × Address)} (hpos : ∀ r ∈ receivers, 0 < r.1) :
    (receivers.length : Int) ≤ (receivers.map Prod.fst).sum := by
  induction receivers with
  | nil => simp
  | cons r rest ih =>
    have hr := hpos r List.mem_cons_self
    have hrest := ih fun r' hr' => hpos r' (List.mem_cons_of_mem r hr')
    simp only [List.length_cons, List.map_cons, List.sum_cons]
    omega

theorem reads_receivers {p : PropertyId} (hs : Sound c s)
    (hvalue : 0 < (tx.nValue : Int) ∧ (tx.nValue : Int) ≤ MAX_INT_8_BYTES) :
    Reads (stoGetReceivers tx.sender p tx.nValue)
      (fun receivers => (∀ r ∈ receivers, 0 < r.1) ∧ (receivers.map Prod.fst).sum ≤ tx.nValue ∧
        (c.Strict → receivers ≠ [] → (receivers.map Prod.fst).sum = tx.nValue))
      (CalcError True) s := by
  have hreceivers : Reads (stoGetReceivers tx.sender p tx.nValue) _ _ s :=
    reads_stoGetReceivers hs.range
  by_cases hstrict : c.Strict
  · have htracks := hs.tracks_of_strict hstrict
    have hheld := hs.held_le htracks p
    have hcached := (hs.supply htracks).cached p
    refine wp_mono (wp_and hreceivers (reads_stoGetReceivers_sum (E := fun _ => False) hs.range
      (by omega) hvalue)) ?_ fun _ _ h => h.2.2.elim
    rintro receivers s' ⟨⟨hsame, hpos, hsum⟩, -, hall, hnone⟩
    refine ⟨hsame, hpos, hsum (by omega), fun _ hne => hall ?_⟩
    by_contra hnot
    exact hne (hnone hnot)
  · refine (hreceivers.mono_error fun e he => he.imp_right fun h => ⟨trivial, h.2⟩).mono ?_
    rintro receivers ⟨hpos, hsum⟩
    exact ⟨hpos, hsum (by omega), fun h => absurd h hstrict⟩

theorem feeProperty_cases (tx : CMPTransaction) : tx.feeProperty = 1 ∨ tx.feeProperty = 2 := by
  unfold CMPTransaction.feeProperty
  split
  · exact .inr rfl
  · exact .inl rfl

theorem transferFee_v0 (hv0 : tx.version = MP_TX_PKT_V0) (n : Nat) : tx.transferFee n = n := by
  unfold CMPTransaction.transferFee
  rw [if_pos hv0]
  exact Int.one_mul n

theorem transferFee_pos {n : Nat} (hpos : 0 < n) : 0 < tx.transferFee n := by
  unfold CMPTransaction.transferFee TRANSFER_FEE_PER_OWNER TRANSFER_FEE_PER_OWNER_V1
  dsimp only
  split <;> omega

theorem balance_after_fee {n : Int} (hs : Sound c s) (hstrict : c.Strict)
    (hn : 0 ≤ n ∧ n ≤ tx.nValue)
    (hbalance : (tx.nValue : Int) ≤ s.money tx.sender tx.property .BALANCE)
    (hsame : tx.feeProperty = tx.property →
      toInt64 (tx.nValue + n) ≤ s.money tx.sender tx.feeProperty .BALANCE) :
    (tx.nValue : Int) ≤
      (s.addTally tx.sender tx.feeProperty (-n) .BALANCE).money tx.sender tx.property .BALANCE := by
  rw [money_addTally]
  by_cases hproperty : tx.feeProperty = tx.property
  · -- all tokens of properties 1 and 2 together are so few that the sum cannot wrap
    have htracks := hs.tracks_of_strict hstrict
    have hsupply := hs.supply htracks
    have hfew : s.money tx.sender tx.feeProperty .BALANCE ≤ BASE_SUPPLY + ALL_REWARD := by
      have hmoney := hs.range.money_le_held tx.sender tx.feeProperty (t := .BALANCE) (by decide)
      have hbase := hsupply.base tx.feeProperty (by have := feeProperty_cases tx; lia)
      have hcached := hsupply.cached tx.feeProperty
      have hreward := hsupply.reward
      omega
    have hsum := hsame hproperty
    rw [hproperty] at hfew hsum
    unfold BASE_SUPPLY ALL_REWARD at hfew
    rw [toInt64_of_range (by unfold MIN_INT_8_BYTES; omega) (by unfold MAX_INT_8_BYTES; omega)]
      at hsum
    simp only [hproperty, and_true, if_true]
    omega
  · simp only [hproperty, false_and, and_false, if_false]
    omega

/-- **A send to owners.**  In strict circumstances fee and amounts were checked together, and
their sum does not overflow. -/
theorem conforms_logicMathSendToOwners (h : PacketOk c tx s)
    (htype : tx.type = MSC_TYPE_SEND_TO_OWNERS) :
    Conforms c.contract (logicMathSendToOwners env tx) (fun _ _ => True) s := by
  have hs := h.sound
  unfold logicMathSendToOwners
  refine Conforms.get (conforms_rejectIf fun _ => conforms_rejectIf fun hvalue =>
    conforms_rejectIf fun _ => conforms_rejectIf fun _ => conforms_rejectIf fun hbalance => ?_)
  replace hvalue := amount_of_valueOutOfRange hvalue
  have hbalance : (tx.nValue : Int) ≤ s.money tx.sender tx.property .BALANCE :=
    Int.not_lt.mp (of_decide_eq_false hbalance)
  refine conforms_calc (reads_receivers hs hvalue) fun receivers hreceivers => ?_
  obtain ⟨hpos, hsum, hall⟩ := hreceivers
  refine conforms_rejectIf fun hsome => conforms_rejectIf fun hother => conforms_rejectIf
    fun hsame => ?_
  have hne : receivers ≠ [] := by simpa using hsome
  have hle := length_le_sum hpos
  have hpaid : 0 < tx.transferFee receivers.length :=
    transferFee_pos (List.length_pos_iff.mpr hne)
  have hburned : c.Strict → tx.transferFee receivers.length = receivers.length := fun hstrict =>
    transferFee_v0 (h.burns hstrict htype) _
  have henough : c.Strict → tx.version = MP_TX_PKT_V0 ∧
      tx.transferFee receivers.length ≤ s.money tx.sender tx.feeProperty .BALANCE := by
    intro hstrict
    refine ⟨h.burns hstrict htype, ?_⟩
    by_cases hproperty : tx.feeProperty = tx.property
    · rw [hburned hstrict, hproperty]
      omega
    · have hnot : ¬s.money tx.sender tx.feeProperty .BALANCE < tx.transferFee receivers.length := by
        simpa [hproperty, getTokenBalance] using hother
      omega
  refine Conforms.bind (conforms_payTransferFee h (feeProperty_cases tx) hpaid henough)
    fun _ s₁ hsteps hleft => ?_
  have hs₁ := Steps.sound hsteps hs
  refine Conforms.bind (conforms_sendToReceivers hs₁ ((Steps.isAddressFrozen hsteps _ _).trans h.free)
    hpos fun hstrict => ?_) fun _ s₂ _ hs₂ => ?_
  · rw [hall hstrict hne, hleft hstrict, hburned hstrict]
    refine balance_after_fee hs hstrict (by omega) hbalance fun hproperty => ?_
    have hnot : ¬s.money tx.sender tx.feeProperty .BALANCE <
        toInt64 (tx.nValue + tx.transferFee receivers.length) := by
      simpa [hproperty, getTokenBalance] using hsame
    rw [hburned hstrict] at hnot
    exact Int.not_lt.mp hnot
  refine conforms_assertThat (fun hnot hstrict => ?_) fun _ => ?_
  · exact absurd (hall hstrict hne) (of_decide_eq_false hnot)
  refine Conforms.ite (fun _ => ?_) fun _ => Conforms.pure trivial
  rw [h.block]
  exact Conforms.bind (conforms_notifyTotalTokensChanged hs₂) fun _ _ _ _ => Conforms.pure trivial

theorem conforms_sendAllProperties :
    ∀ {properties : List PropertyId} {sent : Nat} {s : State}, Sound c s →
      Conforms c.contract (sendAllProperties tx properties sent) (fun _ _ => True) s
  | [], _, _, _ => Conforms.pure trivial
  | p :: rest, sent, s, hs => by
    have hskip : Conforms c.contract (sendAllProperties tx rest sent) (fun _ _ => True) s :=
      conforms_sendAllProperties hs
    unfold sendAllProperties
    refine Conforms.get (Conforms.ite (fun _ => hskip) fun _ => Conforms.ite (fun _ => hskip)
      fun _ => Conforms.ite (fun _ => hskip) fun hfrozen => Conforms.ite (fun hpos => ?_)
        fun _ => hskip)
    have hfree : s.isAddressFrozen tx.sender p = false := by simpa using hfrozen
    refine conforms_move hs (by decide) (by decide) hpos (fun _ => hfree) (fun _ => le_rfl)
      (fun hmove => .transfer hmove hfree) fun hmove => ?_
    refine Conforms.bind conforms_record fun _ s' hsteps _ => conforms_sendAllProperties ?_
    exact Steps.sound hsteps (hs.step (.transfer hmove hfree))

theorem conforms_logicMathSendAll (h : PacketOk c tx s) :
    Conforms c.contract (logicMathSendAll tx) (fun _ _ => True) s := by
  unfold logicMathSendAll
  refine Conforms.get (conforms_rejectIf fun _ => ?_)
  cases s.mpTallyMap[tx.sender]? with
  | none => exact Conforms.throw id
  | some tally =>
    exact Conforms.bind (conforms_sendAllProperties h.sound) fun _ _ _ _ =>
      conforms_rejectIf fun _ => Conforms.pure trivial

/-! ### The exchanges -/

theorem conforms_logicMathTradeOffer (h : PacketOk c tx s) :
    Conforms c.contract (logicMathTradeOffer env tx) (fun _ _ => True) s := by
  have hs := h.sound
  unfold logicMathTradeOffer
  refine Conforms.get (conforms_rejectIf fun _ => conforms_rejectIf fun _ =>
    conforms_rejectIf fun hproperty => ?_)
  have hp : tx.property = 1 ∨ tx.property = 2 := by
    simp only [Bool.and_eq_false_iff, bne_eq_false_iff_eq] at hproperty
    exact hproperty.symm
  have hcreate : Conforms c.contract (dexOfferCreate env tx.sender tx.property tx.nValue tx.block
      (toInt64 tx.amountDesired) (toInt64 tx.minFee) tx.blocktimelimit tx.txid) _ s :=
    conforms_dexOfferCreate hs hp h.free
  have hupdate : Conforms c.contract (dexOfferUpdate env tx.sender tx.property tx.nValue tx.block
      (toInt64 tx.amountDesired) (toInt64 tx.minFee) tx.blocktimelimit tx.txid) _ s :=
    conforms_dexOfferUpdate hs hp h.free
  have hdestroy : Conforms c.contract (dexOfferDestroy tx.sender tx.property) _ s :=
    conforms_dexOfferDestroy hs
  refine Conforms.ite (fun _ => Conforms.ite (fun _ => Conforms.ite (fun _ => ?_) fun _ => ?_)
    fun _ => Conforms.ite (fun _ => hdestroy) fun _ => Conforms.pure trivial) fun _ =>
      Conforms.ite (fun _ => ?_) fun _ => Conforms.pure trivial
  · exact Conforms.bind hupdate fun _ _ _ _ => Conforms.pure trivial
  · exact Conforms.bind hcreate fun _ _ _ _ => Conforms.pure trivial
  · refine conforms_rejectIf fun _ => conforms_rejectIf fun _ => Conforms.ite (fun _ => ?_) fun _ =>
      Conforms.ite (fun _ => ?_) fun _ => Conforms.ite (fun _ => hdestroy) fun _ =>
        Conforms.pure trivial
    · exact Conforms.bind hcreate fun _ _ _ _ => Conforms.pure trivial
    · exact Conforms.bind hupdate fun _ _ _ _ => Conforms.pure trivial

theorem conforms_logicMathAcceptOfferBTC (h : PacketOk c tx s)
    (htype : tx.type = MSC_TYPE_ACCEPT_OFFER_BTC) :
    Conforms c.contract (logicMathAcceptOfferBTC tx) (fun _ _ => True) s :=
  Conforms.get (conforms_rejectIf fun _ => conforms_rejectIf fun _ =>
    Conforms.bind (conforms_dexAcceptCreate h.sound (h.addr htype)) fun _ _ _ _ =>
      Conforms.pure trivial)

theorem conforms_logicMathMetaDExTrade (h : PacketOk c tx s) :
    Conforms c.contract (logicMathMetaDExTrade env tx) (fun _ _ => True) s := by
  unfold logicMathMetaDExTrade
  refine conforms_check reads_checkTradingPair fun _ _ => conforms_check reads_checkOrderAmounts
    fun _ hamounts => Conforms.get (conforms_rejectIf fun _ => conforms_rejectIf fun hbalance => ?_)
  refine Conforms.bind conforms_record fun _ s' hsteps hrecorded => ?_
  subst hrecorded
  exact conforms_metaDExAdd (Steps.sound hsteps h.sound) h.block h.free hamounts.1.2 hamounts.2
    h.feeless (fun _ => Int.not_lt.mp (of_decide_eq_false hbalance)) h.place

theorem conforms_logicMathMetaDExCancelPrice (h : PacketOk c tx s) :
    Conforms c.contract (logicMathMetaDExCancelPrice tx) (fun _ _ => True) s :=
  conforms_check reads_checkTradingPair fun _ _ => conforms_check reads_checkOrderAmounts
    fun _ _ => conforms_metaDExCancelAtPrice h.sound

theorem conforms_logicMathMetaDExCancelPair (h : PacketOk c tx s) :
    Conforms c.contract (logicMathMetaDExCancelPair tx) (fun _ _ => True) s :=
  conforms_check reads_checkTradingPair fun _ _ => conforms_metaDExCancelAllForPair h.sound

theorem conforms_logicMathMetaDExCancelEcosystem (h : PacketOk c tx s) :
    Conforms c.contract (logicMathMetaDExCancelEcosystem tx) (fun _ _ => True) s :=
  Conforms.get (conforms_rejectIf fun _ => conforms_rejectIf fun _ =>
    conforms_metaDExCancelEverything h.sound)

/-! ### Creating properties -/

section Create

variable {ecosystem : Nat} {info : Entry}

theorem ecosystem_cases
    (h : (ecosystem != OMNI_PROPERTY_MSC && ecosystem != OMNI_PROPERTY_TMSC) = false) :
    ecosystem = 1 ∨ ecosystem = 2 := by
  simp only [Bool.and_eq_false_iff, bne_eq_false_iff_eq] at h
  exact h

theorem wp_putNewProperty {Q : PropertyId → State → Prop} {P : State → Prop}
    (heco : ecosystem = 1 ∨ ecosystem = 2)
    (h : 0 < s.mySps.peekNextSPID ecosystem →
      Q (s.mySps.peekNextSPID ecosystem) (s.putNew ecosystem info)) :
    wp (putNewProperty ecosystem info) Q (Fails c P) s := by
  have hid : (s.mySps.putSP ecosystem info).1 = s.mySps.peekNextSPID ecosystem := by
    rcases heco with rfl | rfl <;> rfl
  unfold putNewProperty
  simp only [wp_bind, wp_get, wp_set, wp_pure, hid]
  exact wp_assertThat (fun _ => id) fun hpos => h (of_decide_eq_true hpos)

theorem PacketOk.held_new (h : PacketOk c tx s) (hstrict : c.Strict)
    (heco : ecosystem = 1 ∨ ecosystem = 2) (hid : 0 < s.mySps.peekNextSPID ecosystem) :
    s.held (s.mySps.peekNextSPID ecosystem) = 0 := by
  have hs := h.sound
  have htracks := hs.tracks_of_strict hstrict
  have hspace : ¬(s.putNew ecosystem {}).Overrun := by
    have hlt := h.space hstrict
    have hnot := (hs.strict hstrict).space
    unfold Overrun putNew TEST_ECO_PROPERTY_1 at *
    rcases heco with rfl | rfl
    · rw [(CMPSPInfo.putSP_main _ _).2.1]
      lia
    · rw [(CMPSPInfo.putSP_test _ _).2.1]
      exact hnot
  obtain ⟨hp, hnone, -⟩ := (hs.supply htracks).fresh heco hid hspace rfl
  have htotal := (hs.supply htracks).total _ hp
  rw [issued_of_none hnone, (hs.strict hstrict).cached] at htotal
  omega

theorem conforms_logicMathCreatePropertyFixed (h : PacketOk c tx s) :
    Conforms c.contract (logicMathCreatePropertyFixed env tx) (fun _ _ => True) s := by
  have hs := h.sound
  unfold logicMathCreatePropertyFixed
  refine Conforms.get (conforms_rejectIf fun heco => conforms_rejectIf fun _ =>
    conforms_rejectIf fun hvalue => conforms_rejectIf fun _ => conforms_rejectIf fun _ => ?_)
  replace heco := ecosystem_cases heco
  replace hvalue := amount_of_valueOutOfRange hvalue
  rw [conforms_iff, wp_bind]
  refine wp_putNewProperty heco fun hid => ?_
  rw [wp_bind]
  refine wp_assertUpdateTallyMap (by decide) (fun _ hneg => by omega) (fun hstrict => ?_)
    fun hadmits => ?_
  · have hzero := h.held_new hstrict heco hid
    have hle := hs.range.money_le_held tx.sender (s.mySps.peekNextSPID tx.ecosystem) (t := .BALANCE)
      (by decide)
    have hnonneg := hs.range tx.sender (s.mySps.peekNextSPID tx.ecosystem) .BALANCE (by decide)
    change Admits (s.money _ _ _) _
    exact ⟨by omega, by omega, fun _ => by omega⟩
  · have hstep := @Step.createFixed c s tx.ecosystem
      { newEntry tx with numTokens := tx.nValue, fixed := true } tx.sender heco hid h.space rfl rfl
      rfl hvalue.1 hvalue.2 fun hpos => hadmits.2.2 hpos
    rw [credit_of_pos hvalue.1] at hstep
    rw [h.block]
    exact Conforms.after (C := c.contract) (.single hstep) (Conforms.bind
      (conforms_notifyTotalTokensChanged (hs.step hstep)) fun _ _ _ _ => Conforms.pure trivial)

theorem conforms_logicMathCreatePropertyVariable (h : PacketOk c tx s) :
    Conforms c.contract (logicMathCreatePropertyVariable tx) (fun _ _ => True) s := by
  unfold logicMathCreatePropertyVariable
  refine Conforms.get (conforms_rejectIf fun heco => conforms_rejectIf fun _ =>
    conforms_rejectIf fun _ => conforms_rejectIf fun _ => conforms_rejectIf fun _ =>
      conforms_rejectIf fun _ => conforms_rejectIf fun _ => conforms_rejectIf fun _ =>
        conforms_rejectIf fun hnone => ?_)
  replace heco := ecosystem_cases heco
  have hnone : s.myCrowds[tx.sender]? = none :=
    Option.not_isSome_iff_eq_none.mp (ne_true_of_eq_false hnone)
  rw [conforms_iff, wp_bind]
  refine wp_putNewProperty heco fun hid => ⟨.single ?_, trivial⟩
  change Step c s { s.putNew tx.ecosystem _ with
    myCrowds := s.myCrowds.insertIfNew tx.sender _ }
  rw [insertIfNew_of_none hnone]
  exact .createCrowdsale heco hid h.space rfl rfl rfl rfl hnone rfl ⟨rfl, rfl, rfl⟩

theorem conforms_logicMathCreatePropertyManaged (h : PacketOk c tx s) :
    Conforms c.contract (logicMathCreatePropertyManaged tx) (fun _ _ => True) s := by
  unfold logicMathCreatePropertyManaged
  refine Conforms.get (conforms_rejectIf fun heco => conforms_rejectIf fun _ =>
    conforms_rejectIf fun _ => conforms_rejectIf fun _ => ?_)
  replace heco := ecosystem_cases heco
  rw [conforms_iff, wp_bind]
  exact wp_putNewProperty heco fun hid =>
    ⟨.single (.createManaged heco hid h.space rfl rfl rfl), trivial⟩

end Create

theorem conforms_logicMathCloseCrowdsale (h : PacketOk c tx s) :
    Conforms c.contract (logicMathCloseCrowdsale tx) (fun _ _ => True) s := by
  unfold logicMathCloseCrowdsale
  refine Conforms.get (conforms_rejectIf fun _ => conforms_rejectIf fun _ => ?_)
  cases hcrowd : s.myCrowds[tx.sender]? with
  | none => exact Conforms.throw id
  | some crowd =>
    refine conforms_rejectIf fun hproperty => conforms_calc reads_assertGetSP
      fun sp hget => conforms_calc reads_getMissedIssuerBonus fun missed hmissed => ?_
    have hproperty : tx.property = crowd.propertyId := by simpa using hproperty
    rw [hproperty] at hget ⊢
    exact Conforms.bind
      (conforms_closeCrowdsale h.sound hcrowd hget ⟨rfl, rfl⟩ rfl hmissed.1 hmissed.2)
      fun _ _ _ _ => Conforms.pure trivial

/-! ### Managed properties -/

theorem conforms_logicMathGrantTokens (h : PacketOk c tx s) :
    Conforms c.contract (logicMathGrantTokens env tx) (fun _ _ => True) s := by
  have hs := h.sound
  unfold logicMathGrantTokens
  refine Conforms.get (conforms_rejectIf fun _ => conforms_rejectIf fun hvalue =>
    conforms_rejectIf fun _ => conforms_calc reads_assertGetSP fun sp hget =>
      conforms_rejectIf fun hmanual => conforms_rejectIf fun _ => conforms_rejectIf fun hsupply => ?_)
  replace hvalue := amount_of_valueOutOfRange hvalue
  replace hmanual : sp.manual = true := by simpa using hmanual
  replace hsupply := Int.not_lt.mp (of_decide_eq_false hsupply)
  have hp := ne_of_manual hget hmanual
  rw [conforms_iff, wp_bind]
  refine wp_assertUpdateSP fun _ => ?_
  rw [wp_bind]
  refine wp_assertUpdateTallyMap (by decide) (fun _ hneg => by omega) (fun hstrict => ?_)
    fun hadmits => ?_
  · have htracks := hs.tracks_of_strict hstrict
    have hentry := hget
    rw [CMPSPInfo.getSP_of_ne hp] at hentry
    have htotal := (hs.supply htracks).getTotalTokens_eq hs.range hentry
    have hcached := (hs.supply htracks).cached tx.property
    have hroom := hs.canCredit (a := tx.receiver) (p := tx.property) (n := tx.nValue) (by omega)
    have hnonneg := hs.range tx.receiver tx.property .BALANCE (by decide)
    exact ⟨by omega, by change 0 ≤ s.money _ _ _ + _; omega, hroom⟩
  have hstep := Step.grant (c := c) (a := tx.receiver) tx.blockHash hp hget hmanual hvalue.1 hsupply
    (fun ht => h.entry_fresh ht hget) fun hpos => hadmits.2.2 hpos
  rw [credit_of_pos hvalue.1] at hstep
  have hs' := hs.step hstep
  have hnotify : ∀ {s' : State}, Sound c s' → Conforms c.contract
      (notifyTotalTokensChanged env tx.property c.block >>= fun _ => pure (0 : Int))
      (fun _ _ => True) s' := fun hs'' =>
    Conforms.bind (conforms_notifyTotalTokensChanged hs'') fun _ _ _ _ => Conforms.pure trivial
  rw [h.txid, h.block]
  refine Conforms.after (C := c.contract) (.single hstep) (Conforms.ite (fun _ => hnotify hs')
    fun _ => ?_)
  exact Conforms.bind (conforms_callRc (conforms_logicHelperCrowdsaleParticipation hs' h.txid h.block
    h.crowd_fresh)) fun _ _ hsteps _ => hnotify (Steps.sound hsteps hs')

theorem conforms_logicMathRevokeTokens (h : PacketOk c tx s) :
    Conforms c.contract (logicMathRevokeTokens env tx) (fun _ _ => True) s := by
  have hs := h.sound
  unfold logicMathRevokeTokens
  refine Conforms.get (conforms_rejectIf fun _ => conforms_rejectIf fun hvalue =>
    conforms_rejectIf fun _ => conforms_calc reads_assertGetSP fun sp hget =>
      conforms_rejectIf fun hmanual => conforms_rejectIf fun hbalance => ?_)
  replace hvalue := amount_of_valueOutOfRange hvalue
  replace hmanual : sp.manual = true := by simpa using hmanual
  have hbalance : (tx.nValue : Int) ≤ s.money tx.sender tx.property .BALANCE :=
    Int.not_lt.mp (of_decide_eq_false hbalance)
  have hp := ne_of_manual hget hmanual
  rw [conforms_iff, wp_bind]
  refine wp_assertUpdateTallyMap (by decide) (fun _ _ => h.free)
    (fun _ => ⟨by omega, by omega, by omega⟩) fun _ => ?_
  rw [wp_bind]
  refine wp_assertUpdateSP fun _ => ?_
  have hstep := Step.revoke (c := c) tx.blockHash hp hget hmanual hvalue.1 hbalance h.free
    fun ht => h.entry_fresh ht hget
  rw [h.txid, h.block]
  exact Conforms.after (C := c.contract) (.single hstep) (Conforms.bind
    (conforms_notifyTotalTokensChanged (hs.step hstep)) fun _ _ _ _ => Conforms.pure trivial)

theorem conforms_logicMathChangeIssuer :
    Conforms c.contract (logicMathChangeIssuer tx) (fun _ _ => True) s := by
  unfold logicMathChangeIssuer
  refine Conforms.get (conforms_rejectIf fun _ => conforms_rejectIf fun _ =>
    conforms_calc reads_assertGetSP fun sp hget => conforms_rejectIf fun _ =>
      conforms_rejectIf fun _ => conforms_rejectIf fun _ => conforms_rejectIf fun _ => ?_)
  rw [conforms_iff, wp_bind]
  exact wp_assertUpdateSP fun hp => ⟨.single (.changeIssuer _ _ hp hget), trivial⟩

end HcOmni
