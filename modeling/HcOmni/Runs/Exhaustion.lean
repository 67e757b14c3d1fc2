import HcOmni.Payload.RoundTrip
import HcOmni.Runs.Invariant

/-!
# Running out of identifiers

The identifiers of the main ecosystem count up from 3, and nothing stops the counter where the
identifiers of the test ecosystem begin.  This module follows the run in which one address issues
property after property, until the next identifier is one that is in use.
-/

namespace HcOmni

open Std MapSum Program CMPTally State

variable {s : State} {env : Env} {tx : CMPTransaction}

/-! ### Creating a property -/

section Creating

variable {Q : Unit → State → Prop} {E : Halt → State → Prop} {a : Address} {p : PropertyId}
  {n : Int} {t : TallyType}

theorem wp_assertUpdateTallyMap_of_pos (hpos : 0 < n) :
    wp (assertUpdateTallyMap a p n t) Q E s ↔
      wp (assertThat .tallyUpdated ((s.mpTallyMap.getD a {}).updateMoney p n t).1) Q E { s with
        mpTallyMap := s.mpTallyMap.insert a ((s.mpTallyMap.getD a {}).updateMoney p n t).2 } := by
  have hfrozen : t = .BALANCE → n < 0 → s.isAddressFrozen a p = false := fun _ hneg => by omega
  unfold assertUpdateTallyMap updateTallyMap
  rw [if_neg (by omega)]
  simp only [wp_bind, wp_get, notFrozen_eq_true hfrozen]
  rfl

theorem wp_assertUpdateTallyMap_of_room (hpos : 0 < n) (hnonneg : 0 ≤ s.money a p t)
    (hroom : s.money a p t + n ≤ MAX_INT_8_BYTES) (h : Q () (s.addTally a p n t)) :
    wp (assertUpdateTallyMap a p n t) Q E s := by
  have hadmits : Admits ((s.mpTallyMap.getD a {}).getMoney p t) n := by
    rw [getMoney_getD]
    exact ⟨by omega, by omega, fun _ => hroom⟩
  rw [wp_assertUpdateTallyMap_of_pos hpos, updateMoney_of_admits hadmits]
  exact h

theorem wp_assertUpdateTallyMap_of_overflow (hpos : 0 < n) (ht : t ≠ .PENDING)
    (hroom : MAX_INT_8_BYTES < s.money a p t + n) :
    wp (assertUpdateTallyMap a p n t) (fun _ _ => False)
      (fun halt _ => halt = .abort .tallyUpdated) s := by
  rw [wp_assertUpdateTallyMap_of_pos hpos]
  cases hupdated : ((s.mpTallyMap.getD a {}).updateMoney p n t).1 with
  | false => rfl
  | true =>
    have hadmits := admits_of_updateMoney ht hupdated
    rw [getMoney_getD] at hadmits
    exact absurd (hadmits.2.2 hpos) (by omega)

theorem wp_notifyTotalTokensChanged_of_empty {block : Int} (hcache : s.feecache = ∅)
    (h : ∀ aux : Aux, aux.params = s.aux.params → Q () { s with aux := aux }) :
    wp (notifyTotalTokensChanged env p block) Q E s := by
  unfold notifyTotalTokensChanged updateDistributionThresholds evalCache
  simp only [wp_bind, wp_modify, wp_get]
  rw [if_neg]
  · exact h _ rfl
  · simp only [ExtTreeMap.getD_insert_self, getCachedAmount, hcache]
    simp
    split <;> omega

end Creating

theorem logicMath_of_fixed (htype : tx.type = MSC_TYPE_CREATE_PROPERTY_FIXED) :
    logicMath env tx = logicMathCreatePropertyFixed env tx := by
  unfold logicMath
  simp only [htype]
  rfl

/-- What a transaction that creates a fixed property passes. -/
structure CreatesFixed (s : State) (tx : CMPTransaction) : Prop where
  ecosystem : tx.ecosystem = 1 ∨ tx.ecosystem = 2
  allowed : typeNotAllowed s tx tx.ecosystem = false
  value : valueOutOfRange tx.nValue = false
  propType : propertyTypeInvalid tx.propType = false
  name : tx.name.isEmpty = false
  counter : 0 < s.mySps.peekNextSPID tx.ecosystem

/-- The entry of the new property. -/
def CreatesFixed.info (tx : CMPTransaction) : Entry :=
  { newEntry tx with numTokens := tx.nValue, fixed := true }

theorem CreatesFixed.wp_stored {Q : Int → State → Prop} {E : Halt → State → Prop}
    (h : CreatesFixed s tx)
    (hrest : wp (assertUpdateTallyMap tx.sender (s.mySps.peekNextSPID tx.ecosystem) tx.nValue .BALANCE)
      (fun _ s' => wp (notifyTotalTokensChanged env (s.mySps.peekNextSPID tx.ecosystem) tx.block)
        (fun _ s'' => Q 0 s'') E s') E (s.putNew tx.ecosystem (info tx))) :
    wp (logicMathCreatePropertyFixed env tx) Q E s := by
  have heco : (tx.ecosystem != OMNI_PROPERTY_MSC && tx.ecosystem != OMNI_PROPERTY_TMSC) = false := by
    rcases h.ecosystem with heco | heco <;> rw [heco] <;> rfl
  have hid : (s.mySps.putSP tx.ecosystem (info tx)).1 = s.mySps.peekNextSPID tx.ecosystem := by
    rcases h.ecosystem with heco | heco <;> rw [heco] <;> rfl
  have hcounter : decide ((s.mySps.putSP tx.ecosystem (info tx)).1 > 0) = true := by
    rw [hid]
    exact decide_eq_true h.counter
  rw [← hid] at hrest
  unfold logicMathCreatePropertyFixed putNewProperty
  simp only [heco, h.allowed, h.value, h.propType, h.name, rejectIf, Bool.false_eq_true, if_false,
    wp_bind, wp_get, wp_pure, wp_set]
  change wp (assertThat .other (decide ((s.mySps.putSP tx.ecosystem (info tx)).1 > 0))) _ _ _
  rw [hcounter]
  exact hrest

/-! ### The transactions of the run -/

/-- A new property with as many tokens as there can be. -/
def issuanceTx (ecosystem : UInt8) (sender : Address) (idx : Nat) : CMPTransaction where
  txid := idx
  block := 50000
  blockTime := 1500000000
  txIdx := idx
  txFeePaid := 0
  blockHash := 50000
  payload := createPayloadIssuanceFixed ecosystem 1 0 [] [] "token".toList [] [] 9223372036854775807
  sender := sender
  receiver := []

/-- What is read from the payload of the transaction. -/
def issuanceParsed (ecosystem : UInt8) (sender : Address) (idx : Nat) : CMPTransaction :=
  { issuanceTx ecosystem sender idx with
    type := MSC_TYPE_CREATE_PROPERTY_FIXED
    ecosystem := ecosystem.toNat
    propType := 1
    name := "token".toList
    nValue := 9223372036854775807
    nNewValue := 9223372036854775807 }

theorem interpretTransaction_issuance {ecosystem : UInt8} (sender : Address) (idx : Nat) : (issuanceTx ecosystem sender idx).interpretTransaction =
      some (issuanceParsed ecosystem sender idx) := by
  have h : Carries (issuanceTx ecosystem sender idx) (issuanceFields 50 ecosystem 1 0
      ⟨[], [], "token".toList, [], []⟩ ++ [pushBackBytes 8 (9223372036854775807 : UInt64).toNat]) := by
    constructor
    · simp [issuanceTx, createPayloadIssuanceFixed, issuanceHead, messageHead, issuanceFields,
        headFields, PropertyTexts.fields, pushBackBytes_one]
    · simp [issuanceFields, headFields, PropertyTexts.fields, CMPTransaction.PKT_BUFFER_SIZE]
  have hplain : (⟨[], [], "token".toList, [], []⟩ : PropertyTexts).Plain := by
    refine ⟨?_, ?_, ?_, ?_, ?_⟩ <;> decide
  exact interpretTransaction_fixed hplain (by decide) h

theorem createsFixed_issuance {ecosystem : UInt8} (heco : ecosystem = 1 ∨ ecosystem = 2)
    {sender : Address} {idx : Nat} (hparams : s.aux.params = mainConsensusParams)
    (hid : 0 < s.mySps.peekNextSPID ecosystem.toNat) :
    CreatesFixed s (issuanceParsed ecosystem sender idx) where
  ecosystem := heco.imp (fun h => by rw [h]; rfl) fun h => by rw [h]; rfl
  allowed := by
    unfold typeNotAllowed
    rw [hparams]
    change (!mainConsensusParams.isTransactionTypeAllowed 50000 ecosystem.toNat 50 0) = false
    rcases heco with rfl | rfl <;> decide
  value := (by decide : valueOutOfRange 9223372036854775807 = false)
  propType := rfl
  name := (by decide : "token".toList.isEmpty = false)
  counter := hid

theorem fields_issuanceTx (ecosystem : UInt8) (sender : Address) (idx : Nat) :
    (issuanceTx ecosystem sender idx).rpcOnly = false ∧
      (issuanceTx ecosystem sender idx).txid = idx ∧
      (issuanceTx ecosystem sender idx).block = 50000 ∧
      (issuanceTx ecosystem sender idx).txIdx = idx :=
  ⟨rfl, rfl, rfl, rfl⟩

theorem fields_issuanceParsed (ecosystem : UInt8) (sender : Address) (idx : Nat) :
    (issuanceParsed ecosystem sender idx).type = MSC_TYPE_CREATE_PROPERTY_FIXED ∧
      (issuanceParsed ecosystem sender idx).sender = sender ∧
      (issuanceParsed ecosystem sender idx).ecosystem = ecosystem.toNat ∧
      ((issuanceParsed ecosystem sender idx).nValue : Int) = MAX_INT_8_BYTES :=
  ⟨rfl, rfl, rfl, rfl⟩

-- from here on the transactions are used through these lemmas only
attribute [irreducible] issuanceTx issuanceParsed

/-! ### The run -/

def issuance (ecosystem : UInt8) (sender : Address) (idx : Nat) : Event :=
  .packet (issuanceTx ecosystem sender idx)

/-- The first identifier of the test ecosystem is taken, and then one after the other of the main
ecosystem. -/
def issuances (n : Nat) : List Event :=
  issuance 2 "issuer".toList 0 ::
    (List.range n).map fun i => issuance 1 "issuer".toList (i + 1)

theorem wp_issuance {ecosystem : UInt8} (heco : ecosystem = 1 ∨ ecosystem = 2) {sender : Address}
    {idx : Nat} {P : State → Prop} {E : Halt → State → Prop}
    (hparams : s.aux.params = mainConsensusParams) (hfrozen : s.setFrozenAddresses = ∅)
    (hid : 0 < s.mySps.peekNextSPID ecosystem.toNat)
    (hrest : ∀ block, wp (assertUpdateTallyMap sender (s.mySps.peekNextSPID ecosystem.toNat)
        MAX_INT_8_BYTES .BALANCE)
      (fun _ s' => wp (notifyTotalTokensChanged env (s.mySps.peekNextSPID ecosystem.toNat) block)
        (fun _ s'' => P s'') E s') E
      (s.putNew ecosystem.toNat (CreatesFixed.info (issuanceParsed ecosystem sender idx)))) :
    wp ((issuance ecosystem sender idx).exec env) (fun _ s' => P s') E s := by
  obtain ⟨htype, hsender, heco', hvalue⟩ := fields_issuanceParsed ecosystem sender idx
  have hcreates : CreatesFixed s (issuanceParsed ecosystem sender idx) :=
    createsFixed_issuance heco hparams hid
  unfold issuance Event.exec
  rw [wp_bind]
  refine wp_interpretPacket (fields_issuanceTx _ _ _).1 (interpretTransaction_issuance sender idx)
    (by rw [htype]; decide) (by simp [isAddressFrozen, hfrozen]) ?_
  rw [logicMath_of_fixed htype]
  refine hcreates.wp_stored ?_
  rw [hsender, heco', hvalue]
  exact hrest _

theorem wp_issuance_of_room {ecosystem : UInt8} (heco : ecosystem = 1 ∨ ecosystem = 2)
    {sender : Address} {idx : Nat} {P : State → Prop} {E : Halt → State → Prop}
    (hparams : s.aux.params = mainConsensusParams) (hfrozen : s.setFrozenAddresses = ∅)
    (hcache : s.feecache = ∅) (hid : 0 < s.mySps.peekNextSPID ecosystem.toNat)
    (hroom : s.money sender (s.mySps.peekNextSPID ecosystem.toNat) .BALANCE = 0)
    (h : ∀ s' : State, s'.aux.params = mainConsensusParams → s'.feecache = ∅ →
      s'.setFrozenAddresses = ∅ → s'.mySps = (s.mySps.putSP ecosystem.toNat
        (CreatesFixed.info (issuanceParsed ecosystem sender idx))).2 →
      s'.mpTallyMap = (s.addTally sender (s.mySps.peekNextSPID ecosystem.toNat) MAX_INT_8_BYTES
        .BALANCE).mpTallyMap → s'.myCrowds = s.myCrowds → P s') :
    wp ((issuance ecosystem sender idx).exec env) (fun _ s' => P s') E s := by
  refine wp_issuance heco hparams hfrozen hid fun block => ?_
  refine wp_assertUpdateTallyMap_of_room (by decide) (Int.le_of_eq hroom.symm) ?_ ?_
  · change s.money _ _ _ + _ ≤ _
    rw [hroom]
    decide
  · exact wp_notifyTotalTokensChanged_of_empty hcache fun aux haux =>
      h _ (haux.trans hparams) hcache hfrozen rfl rfl rfl

/-- What the run keeps to until the identifiers meet. -/
structure Issuing (next : PropertyId) (s : State) : Prop where
  params : s.aux.params = mainConsensusParams
  cache : s.feecache = ∅
  frozen : s.setFrozenAddresses = ∅
  counter : s.mySps.nextSpid = next
  fresh : ∀ a p, next ≤ p → p ≤ TEST_ECO_PROPERTY_1 → (a = "issuer".toList → p < TEST_ECO_PROPERTY_1) →
    s.money a p .BALANCE = 0
  taken : s.money "issuer".toList TEST_ECO_PROPERTY_1 .BALANCE = MAX_INT_8_BYTES
  held : s.held TEST_ECO_PROPERTY_1 = MAX_INT_8_BYTES

theorem exists_step {event : Event} {P : State → Prop}
    (h : wp (event.exec env) (fun _ s' => P s') (fun _ _ => False) s) :
    ∃ s', step env s event = some s' ∧ P s' :=
  exists_step_of_live (wp_mono h (fun _ _ h => h) fun _ _ h => h.elim)

/-- What issuing one property after the other does to a state, until the identifiers meet. -/
structure Issued (s₁ : State) (next : PropertyId) (s : State) : Prop where
  params : s.aux.params = mainConsensusParams
  cache : s.feecache = ∅
  frozen : s.setFrozenAddresses = ∅
  counter : s.mySps.nextSpid = next
  crowds : s.myCrowds = s₁.myCrowds
  money : ∀ a p, next ≤ p → s.money a p .BALANCE = s₁.money a p .BALANCE
  held : ∀ p, next ≤ p → s.held p = s₁.held p

/-- **One more property**, as long as the identifiers last. -/
theorem Issued.succ (env : Env) {s₁ : State} {next : PropertyId} (hs : Issued s₁ next s)
    (hthree : 3 ≤ next) (hlt : next < TEST_ECO_PROPERTY_1)
    (hnone : s₁.money "issuer".toList next .BALANCE = 0) (idx : Nat) :
    ∃ s', step env s (issuance 1 "issuer".toList idx) = some s' ∧ Issued s₁ (next + 1) s' := by
  have hid : s.mySps.peekNextSPID (1 : UInt8).toNat = next := hs.counter
  refine exists_step (wp_issuance_of_room (.inl rfl) hs.params hs.frozen hs.cache ?_ ?_
    fun s' hparams hcache hfrozen hsps htallies hcrowds => ?_)
  · rw [hid]
    lia
  · rw [hid]
    exact (hs.money _ next le_rfl).trans hnone
  rw [hid] at htallies
  refine ⟨hparams, hcache, hfrozen, ?_, hcrowds.trans hs.crowds, fun a p hle => ?_, fun p hle => ?_⟩
  · rw [hsps]
    change (s.mySps.nextSpid + 1) % 2 ^ 32 = next + 1
    rw [hs.counter]
    unfold TEST_ECO_PROPERTY_1 at hlt
    lia
  · rw [money_congr htallies, money_addTally, if_neg (by rintro ⟨-, rfl, -⟩; lia), Int.add_zero]
    exact hs.money a p (by lia)
  · unfold State.held
    rw [htallies]
    refine (held_addTally _ _ _ _ _ _).trans ?_
    rw [if_neg (by rintro ⟨rfl, -⟩; lia), Int.add_zero]
    exact hs.held p (by lia)

/-- **Up to the first identifier of the test ecosystem** every one of the main ecosystem can be
used. -/
theorem run_issued (env : Env) {s₁ : State} (hs₁ : Issued s₁ 3 s₁)
    (hnone : ∀ p, 3 ≤ p → p < TEST_ECO_PROPERTY_1 → s₁.money "issuer".toList p .BALANCE = 0)
    (k n : Nat) (hn : n + 3 ≤ TEST_ECO_PROPERTY_1) :
    ∃ s, run env s₁ ((List.range n).map fun i => issuance 1 "issuer".toList (i + k)) = some s ∧
      Issued s₁ (n + 3) s := by
  induction n with
  | zero => exact ⟨s₁, rfl, hs₁⟩
  | succ n ih =>
    obtain ⟨s, hrun, hs⟩ := ih (by lia)
    obtain ⟨s', hstep, hs'⟩ := hs.succ env (by lia) (by lia) (hnone _ (by lia) (by lia)) (n + k)
    refine ⟨s', ?_, hs'⟩
    rw [List.range_succ, List.map_append, List.map_singleton, run_concat, hrun]
    exact hstep

theorem Issuing.start (env : Env) : ∃ s, step env (State.empty env mainConsensusParams)
    (issuance 2 "issuer".toList 0) = some s ∧ Issuing 3 s := by
  have hid : (State.empty env mainConsensusParams).mySps.peekNextSPID (2 : UInt8).toNat =
      TEST_ECO_PROPERTY_1 := rfl
  have hzero : ∀ a p t, (State.empty env mainConsensusParams).money a p t = 0 := fun _ _ _ => rfl
  refine exists_step (wp_issuance_of_room (.inr rfl) rfl rfl rfl (by rw [hid]; decide) (hzero _ _ _)
    fun s' hparams hcache hfrozen hsps htallies _ => ?_)
  rw [hid] at htallies
  refine ⟨hparams, hcache, hfrozen, by rw [hsps]; rfl, fun a p hle hp ha => ?_, ?_, ?_⟩
  · rw [money_congr htallies, money_addTally, if_neg, Int.add_zero]
    · exact hzero _ _ _
    · rintro ⟨rfl, rfl, -⟩
      exact absurd (ha rfl) (lt_irrefl _)
  · rw [money_congr htallies, money_addTally, if_pos ⟨rfl, rfl, rfl⟩, hzero, Int.zero_add]
  · have hheld : (State.empty env mainConsensusParams).held TEST_ECO_PROPERTY_1 = 0 :=
      mapSum_empty _
    unfold State.held
    rw [htallies]
    refine (held_addTally _ _ _ _ _ _).trans ?_
    rw [if_pos ⟨rfl, by decide⟩, hheld, Int.zero_add]

theorem issuances_succ (n : Nat) :
    issuances (n + 1) = issuances n ++ [issuance 1 "issuer".toList (n + 1)] := by
  simp [issuances, List.range_succ]

theorem run_cons (env : Env) (s : State) (event : Event) (events : List Event) :
    run env s (event :: events) = (step env s event).bind fun t => run env t events := rfl

theorem run_around {s₀ s₁ s₂ : State} {firsts events : List Event} {last : Event}
    (hfirsts : run env s₀ firsts = some s₁) (hrun : run env s₁ events = some s)
    (hlast : step env s last = some s₂) : run env s₀ (firsts ++ events ++ [last]) = some s₂ := by
  have hboth : run env s₀ (firsts ++ events) = some s := by
    rw [run, List.foldlM_append]
    exact Option.bind_eq_some_iff.mpr ⟨s₁, hfirsts, hrun⟩
  rw [run_concat, hboth]
  exact hlast

theorem run_issuances (env : Env) (n : Nat) (hn : n + 3 ≤ TEST_ECO_PROPERTY_1) :
    ∃ s, run env (State.empty env mainConsensusParams) (issuances n) = some s ∧
      Issuing (n + 3) s := by
  obtain ⟨s₁, hfirst, hs₁⟩ := Issuing.start env
  have hstart : Issued s₁ 3 s₁ :=
    ⟨hs₁.params, hs₁.cache, hs₁.frozen, hs₁.counter, rfl, fun _ _ _ => rfl, fun _ _ => rfl⟩
  obtain ⟨s, hrun, hs⟩ := run_issued env hstart
    (fun p hle hlt => hs₁.fresh _ p hle hlt.le fun _ => hlt) 1 n hn
  refine ⟨s, ?_, hs.params, hs.cache, hs.frozen, hs.counter, fun a p hle hp ha => ?_, ?_, ?_⟩
  · rw [issuances, run_cons, hfirst]
    exact hrun
  · rw [hs.money a p hle]
    exact hs₁.fresh a p (by lia) hp ha
  · rw [hs.money _ _ hn]
    exact hs₁.taken
  · rw [hs.held _ hn]
    exact hs₁.held

/-- Transactions in one block, numbered one after the other: some at first, and then issuances.  They
are all different, each has a place of its own in the chain, and the heights do not decrease. -/
theorem issued_ordered (firsts : List Event) (k : Nat)
    (htxids : firsts.filterMap Event.txid? = List.range k)
    (hplaces : firsts.filterMap Event.place? = (List.range k).map fun idx => (50000, idx))
    (hheights : firsts.filterMap Event.height? = (List.range k).map fun _ => 50000)
    (n : Nat) (sender : Address) :
    let events := firsts ++ ((List.range n).map fun i => issuance 1 "issuer".toList (i + k)) ++
      [issuance 1 sender (n + k)]
    (events.filterMap Event.txid?).Nodup ∧ (events.filterMap Event.place?).Nodup ∧
      (events.filterMap Event.height?).Pairwise (· ≤ ·) := by
  have hfields : ∀ sender idx, (issuance 1 sender idx).txid? = some idx ∧
      (issuance 1 sender idx).place? = some (50000, idx) ∧
      (issuance 1 sender idx).height? = some 50000 := by
    intro sender idx
    obtain ⟨-, htxid, hblock, hidx⟩ := fields_issuanceTx 1 sender idx
    refine ⟨congrArg some htxid, ?_, congrArg some hblock⟩
    change some ((issuanceTx 1 sender idx).block, (issuanceTx 1 sender idx).txIdx) = _
    rw [hblock, hidx]
  have hlist : ∀ {β : Type} (f : Event → Option β) (g : Nat → β),
      firsts.filterMap f = (List.range k).map g →
      (∀ sender idx, f (issuance 1 sender idx) = some (g idx)) →
      (firsts ++ ((List.range n).map fun i => issuance 1 "issuer".toList (i + k)) ++
        [issuance 1 sender (n + k)]).filterMap f = (List.range (k + n + 1)).map g := by
    intro β f g hfirsts hfg
    have hmap : (List.range n).filterMap (f ∘ fun i => issuance 1 "issuer".toList (i + k)) =
        (List.range n).map fun i => g (k + i) := by
      rw [← List.filterMap_eq_map]
      refine List.filterMap_congr fun i _ => (hfg _ (i + k)).trans ?_
      rw [Nat.add_comm]
      rfl
    rw [List.filterMap_append, List.filterMap_append, hfirsts,
      List.filterMap_cons_some (hfg sender (n + k)), List.filterMap_map, hmap, List.filterMap_nil,
      List.range_succ, List.range_add, List.map_append, List.map_append, List.map_map,
      List.map_singleton, Nat.add_comm n k]
    rfl
  refine ⟨?_, ?_, ?_⟩
  · rw [hlist Event.txid? id (by rw [List.map_id, htxids]) fun sender idx => (hfields sender idx).1,
      List.map_id]
    exact List.nodup_range
  · rw [hlist Event.place? (fun idx => (50000, idx)) hplaces
      fun sender idx => (hfields sender idx).2.1]
    exact List.nodup_range.map fun i j hij => (Prod.mk.inj hij).2
  · rw [hlist Event.height? (fun _ => 50000) hheights fun sender idx => (hfields sender idx).2.2,
      List.map_const', List.pairwise_replicate]
    exact .inr le_rfl

theorem issuances_ordered (n : Nat) (sender : Address) :
    let events := issuances n ++ [issuance 1 sender (n + 1)]
    (events.filterMap Event.txid?).Nodup ∧ (events.filterMap Event.place?).Nodup ∧
      (events.filterMap Event.height?).Pairwise (· ≤ ·) := by
  obtain ⟨-, htxid, hblock, hidx⟩ := fields_issuanceTx 2 "issuer".toList 0
  have hplace : (issuance 2 "issuer".toList 0).place? = some (50000, 0) := by
    change some ((issuanceTx 2 _ 0).block, (issuanceTx 2 _ 0).txIdx) = _
    rw [hblock, hidx]
  refine issued_ordered [issuance 2 "issuer".toList 0] 1 ?_ ?_ ?_ n sender
  · exact List.filterMap_cons_some (congrArg some htxid)
  · exact List.filterMap_cons_some hplace
  · exact List.filterMap_cons_some (congrArg some hblock)

end HcOmni
