import HcOmni.Conformance.Receivers
import HcOmni.Runs.Kept
import HcOmni.Runs.Supply

/-!
# Distributions that complete

The fees cached for a property are shared among the owners of property 1 or 2.  The shares are rounded
up and the last ones cut, so they add up to the cached amount as soon as there is an owner at all.  But
the sender of a send to owners may pay its last tokens of property 1 as the fee, and nobody has to own
tokens of property 2 in the first place.
-/

namespace HcOmni

open Std MapSum Program CMPTally State

variable {c : Ctx} {env : Env} {s s' t s₀ : State} {p q : PropertyId} {block : Int}
  {event : Event} {events before after : List Event}

/-! ### One distribution -/

/-- The property whose owners receive the fees of a property. -/
def feeOwnersProperty (p : PropertyId) : PropertyId :=
  if isTestEcosystemProperty p then OMNI_PROPERTY_TMSC else OMNI_PROPERTY_MSC

/-- Someone receives the fees of the property.  The name that stands for the sender receives
nothing. -/
def State.HasFeeOwner (s : State) (p : PropertyId) : Prop :=
  s.HasOwner "FEEDISTRIBUTION".toList (feeOwnersProperty p)

/-- The distribution returns: the shares add up to the cached amount, that much more is held
afterwards, and the cache is empty. -/
def Completes (env : Env) (p : PropertyId) (block : Int) (s : State) : Prop :=
  ∃ s' shares, distributeCache env p block s = .ok () s' ∧
    s'.aux.records = s.aux.records ++ [.feeDistribution p block (s.getCachedAmount p) shares] ∧
    (shares.map Prod.snd).sum = s.getCachedAmount p ∧
    s'.held p = s.held p + s.getCachedAmount p ∧ s'.getCachedAmount p = 0

/-- The amounts in the tallies leave room for a distribution. -/
structure Distributable (s : State) (p : PropertyId) (block : Int) : Prop where
  range : s.InRange
  ordered : s.FeesOrdered block
  owned : s.held (feeOwnersProperty p) ≤ MAX_INT_8_BYTES
  room : ∀ a, s.money a p .BALANCE + s.getCachedAmount p ≤ MAX_INT_8_BYTES

theorem feeOwnersProperty_le (p : PropertyId) : feeOwnersProperty p ≤ 2 := by
  unfold feeOwnersProperty OMNI_PROPERTY_TMSC OMNI_PROPERTY_MSC
  split <;> lia

theorem wp_creditReceivers_of_room {E : Halt → State → Prop} (receivers : List (Int × Address))
    (hpos : ∀ r ∈ receivers, 0 < r.1) (hrange : s.InRange)
    (hroom : ∀ a, s.money a p .BALANCE + (receivers.map Prod.fst).sum ≤ MAX_INT_8_BYTES) :
    wp (receivers.forM fun r => assertUpdateTallyMap r.2 p r.1 .BALANCE)
      (fun _ s' => Credited p (receivers.map Prod.fst).sum s s') E s := by
  -- what has been credited so far is the most by which any balance has grown
  refine wp_mono (wp_forM (I := fun rest s' => (∀ r ∈ rest, 0 < r.1) ∧
    ∃ n, n + (rest.map Prod.fst).sum = (receivers.map Prod.fst).sum ∧ Credited p n s s' ∧
      ∀ a, s'.money a p .BALANCE ≤ s.money a p .BALANCE + n)
    ⟨hpos, 0, by simp, Credited.refl, fun _ => by omega⟩ ?_) ?_ fun _ _ h => h
  · rintro r rest s' ⟨hpos, n, hsum, hcredited, hgrown⟩
    obtain ⟨hr, hrest⟩ := List.forall_mem_cons.mp hpos
    simp only [List.map_cons, List.sum_cons] at hsum
    have hrestSum : 0 ≤ (rest.map Prod.fst).sum := List.sum_nonneg fun x hx => by
      obtain ⟨r', hr', rfl⟩ := List.mem_map.mp hx
      exact Int.le_of_lt (hrest r' hr')
    have hnow := hgrown r.2
    have hmax := hroom r.2
    have hbefore := (hrange r.2 p .BALANCE (by decide)).1
    have hnonneg : 0 ≤ s'.money r.2 p .BALANCE := by
      rcases hcredited.credited r.2 p .BALANCE with hsame | ⟨-, -, hle, -⟩ <;> omega
    have hadmits : Admits (s'.money r.2 p .BALANCE) r.1 := ⟨by omega, by omega, fun _ => by omega⟩
    have hupdate : assertUpdateTallyMap r.2 p r.1 .BALANCE s' =
        .ok () (s'.addTally r.2 p r.1 .BALANCE) :=
      bind_of_ok (updateTallyMap_of_admits (fun _ hneg => by omega) hadmits)
    rw [wp_ok hupdate]
    refine ⟨hrest, n + r.1, by omega, hcredited.credit hr (hadmits.2.2 hr), fun a => ?_⟩
    have hgrown' := hgrown a
    rw [money_addTally]
    split <;> omega
  · rintro _ s' ⟨-, n, hsum, hcredited, -⟩
    simp only [List.map_nil, List.sum_nil, Int.add_zero] at hsum
    rwa [hsum] at hcredited

theorem getCachedAmount_cleared (hordered : s.FeesOrdered block) :
    (s.setFee env p block 0).getCachedAmount p = 0 := by
  rw [getCachedAmount_setFee]
  exact latest_insert_of_le (FeesOrdered.le hordered p)

theorem wp_distributeCache_iff {Q : Unit → State → Prop} {E : Halt → State → Prop}
    (h : Distributable s p block) (hcached : 0 < s.getCachedAmount p)
    (howner : s.HasFeeOwner p → ∀ (s' : State) (receivers : List (Int × Address)),
      Credited p (s.getCachedAmount p) s s' → (receivers.map Prod.fst).sum = s.getCachedAmount p →
      Q () (State.setFee env { s' with aux.records := s'.aux.records ++ [.feeDistribution p block
        (s.getCachedAmount p) (receivers.map fun r => (r.2, r.1))] } p block 0))
    (hnone : ¬s.HasFeeOwner p → ∀ s', E (.abort .other) s') :
    wp (distributeCache env p block) Q E s := by
  have hmax : s.getCachedAmount p ≤ MAX_INT_8_BYTES := by
    have hroom := h.room []
    have hnonneg := (h.range [] p .BALANCE (by decide)).1
    omega
  unfold distributeCache
  rw [wp_bind, wp_get, wp_bind]
  refine wp_mono (wp_and (reads_stoGetReceivers h.range) (reads_stoGetReceivers_sum
    (E := fun _ => False) h.range h.owned ⟨hcached, hmax⟩)) ?_ fun _ _ hboth => hboth.2.2.elim
  rintro receivers s' ⟨⟨rfl, hpos, -⟩, -, hall, hempty⟩
  by_cases hhas : s'.HasFeeOwner p
  · have hsum := hall hhas
    rw [wp_bind]
    refine wp_mono (wp_creditReceivers_of_room receivers hpos h.range fun a => ?_)
      (fun _ s'' hcredited => ?_) fun _ _ hfalse => hfalse
    · rw [hsum]
      exact h.room a
    · rw [hsum] at hcredited
      have hassert : decide ((receivers.map Prod.fst).sum = s'.getCachedAmount p) = true :=
        decide_eq_true hsum
      rw [wp_bind, wp_record, wp_bind, hassert, hsum]
      exact howner hhas s'' receivers hcredited hsum
  · have hnil := hempty hhas
    subst hnil
    have hassert : decide ((([] : List (Int × Address)).map Prod.fst).sum =
        s'.getCachedAmount p) = false := by
      refine decide_eq_false fun hzero => ?_
      simp only [List.map_nil, List.sum_nil] at hzero
      omega
    rw [wp_bind]
    change wp (assertThat .other _ >>= _) _ _ _
    rw [wp_bind, hassert]
    exact hnone hhas _

/-- **A distribution completes exactly if somebody receives it.** -/
theorem completes_iff (h : Distributable s p block) (hcached : 0 < s.getCachedAmount p) :
    Completes env p block s ↔ s.HasFeeOwner p := by
  constructor
  · rintro ⟨s', shares, hok, -⟩
    by_contra hnone
    have hfails : wp (distributeCache env p block) (fun _ _ => False) (fun _ _ => True) s :=
      wp_distributeCache_iff h hcached (fun hhas => absurd hhas hnone) fun _ _ => trivial
    exact (wp_ok hok).mp hfails
  · intro hhas
    have hcompletes : wp (distributeCache env p block) (fun _ s' => ∃ shares,
        s'.aux.records = s.aux.records ++
          [.feeDistribution p block (s.getCachedAmount p) shares] ∧
        (shares.map Prod.snd).sum = s.getCachedAmount p ∧
        s'.held p = s.held p + s.getCachedAmount p ∧ s'.getCachedAmount p = 0)
        (fun _ _ => False) s := by
      refine wp_distributeCache_iff h hcached (fun _ s' receivers hcredited hsum => ?_)
        fun hnone => absurd hhas hnone
      refine ⟨receivers.map fun r => (r.2, r.1), ?_, ?_, ?_, ?_⟩
      · rw [setFee_frame, hcredited.frame]
      · rw [List.map_map]
        exact hsum
      · rw [setFee_frame]
        exact (hcredited.held p).trans (by rw [if_pos rfl])
      · refine getCachedAmount_cleared (h.ordered.congr ?_)
        rw [hcredited.frame]
    obtain ⟨_, s', hok, shares, hcompleted⟩ := exists_of_wp hcompletes
    exact ⟨s', shares, hok, hcompleted⟩

/-! ### The calls inside an event -/

/-- The state with a threshold brought up to date. -/
def State.updateThreshold (s : State) (p : PropertyId) : State :=
  let distributionThreshold := (s.getTotalTokens p).tdiv OMNI_FEE_THRESHOLD
  { s with
    aux.distributionThresholds := s.aux.distributionThresholds.insert p
      (if distributionThreshold ≤ 0 then 1 else distributionThreshold) }

/-- The states in which `EvalCache` is called while an event is executed that began in `s`.  Before
the call there may have been any number of steps. -/
inductive EvalCall (c : Ctx) (env : Env) (s : State) : PropertyId → State → Prop
  /-- by `NotifyTotalTokensChanged`, behind the update of the threshold -/
  | notified {t : State} (p : PropertyId) (hsteps : Steps c s t) :
      EvalCall c env s p (t.updateThreshold p)
  /-- by `AddFee` for a trade, while the seller still has the fee among the reserved tokens -/
  | traded {t : State} {p : PropertyId} {seller : Address} {fee : Int} (hsteps : Steps c s t)
      (hfee : 0 ≤ fee) (hreserved : fee ≤ t.money seller p .METADEX_RESERVE) :
      EvalCall c env s p (t.setFee env p c.block (toInt64 (t.getCachedAmount p + fee)))
  /-- by `AddFee` for a send to owners, when the sender has paid the fee -/
  | sent {t u : State} {p : PropertyId} {sender : Address} {fee : Int} (hsteps : Steps c s t)
      (hfee : 0 ≤ fee) (henough : fee ≤ t.money sender p .BALANCE)
      (hpaid : u = t.addTally sender p (-fee) .BALANCE) :
      EvalCall c env s p (u.setFee env p c.block (toInt64 (u.getCachedAmount p + fee)))

theorem InRange.add_reserved_le_held {fee : Int} {a b : Address} (h : s.InRange) (hfee : 0 ≤ fee)
    (hreserved : fee ≤ s.money b p .METADEX_RESERVE) :
    s.money a p .BALANCE + fee ≤ s.held p := by
  have hle := (h.debit hfee hreserved).money_le_held a p (t := .BALANCE) (by decide)
  rw [held_addTally, money_addTally] at hle
  simp only [reduceCtorEq, and_false, if_false, Int.add_zero, ne_eq, not_false_eq_true, and_self,
    if_true] at hle
  omega

theorem Distributable.setFee {fee : Int} (hrange : s.InRange) (hordered : s.FeesOrdered block)
    (howned : s.held (feeOwnersProperty p) ≤ MAX_INT_8_BYTES)
    (hnonneg : 0 ≤ s.getCachedAmount p + fee)
    (hroom : ∀ a, s.money a p .BALANCE + (s.getCachedAmount p + fee) ≤ MAX_INT_8_BYTES) :
    Distributable (s.setFee env p block (toInt64 (s.getCachedAmount p + fee))) p block := by
  have hmax : s.getCachedAmount p + fee ≤ MAX_INT_8_BYTES := by
    have hempty := hroom []
    have hmoney := (hrange [] p .BALANCE (by decide)).1
    omega
  refine ⟨?_, FeesOrdered.setFee hordered, ?_, fun a => ?_⟩
  · rw [setFee_frame]
    exact hrange
  · rw [setFee_frame]
    exact howned
  · rw [getCachedAmount_setFee_add hordered hnonneg hmax, setFee_frame]
    exact hroom a

/-- **Wherever `EvalCache` is called there is room for a distribution.** -/
theorem EvalCall.distributable (hs : Sound c s) (hcall : EvalCall c env s p t) (htracked : c.Tracked)
    (hspace : ¬t.Overrun) : Distributable t p c.block := by
  have hready : ∀ u : State, Steps c s u → ¬u.Overrun → u.InRange ∧ u.FeesOrdered c.block ∧
      (∀ q, 0 ≤ u.getCachedAmount q) ∧ (∀ q, u.held q + u.getCachedAmount q ≤ MAX_INT_8_BYTES) ∧
      u.held (feeOwnersProperty p) ≤ MAX_INT_8_BYTES := by
    intro u hsteps hover
    have hu := Steps.sound hsteps hs
    have hsupply := hu.supply ⟨htracked, hover⟩
    have hheld := hu.held_le ⟨htracked, hover⟩
    have hbase := hheld (feeOwnersProperty p)
    have hcached := hsupply.cached (feeOwnersProperty p)
    exact ⟨hu.range, hsupply.ordered, hsupply.cached, hheld, by omega⟩
  cases hcall with
  | @notified u _ hsteps =>
    obtain ⟨hrange, hordered, -, hheld, howned⟩ := hready _ hsteps hspace
    refine ⟨hrange, hordered, howned, fun a => ?_⟩
    have hle := hrange.money_le_held a p (t := .BALANCE) (by decide)
    have hmax := hheld p
    change u.money a p .BALANCE + u.getCachedAmount p ≤ _
    omega
  | traded hsteps hfee hreserved =>
    rw [setFee_frame] at hspace
    obtain ⟨hrange, hordered, hcached, hheld, howned⟩ := hready _ hsteps hspace
    have hnonneg := hcached p
    refine .setFee hrange hordered howned (by omega) fun a => ?_
    have hle := InRange.add_reserved_le_held (a := a) hrange hfee hreserved
    have hmax := hheld p
    omega
  | @sent u _ _ sender fee hsteps hfee henough hpaid =>
    subst hpaid
    rw [setFee_frame] at hspace
    obtain ⟨hrange, hordered, hcached, hheld, howned⟩ := hready _ hsteps hspace
    have hnonneg := hcached p
    have hrange' := hrange.debit hfee henough
    have hcache : (u.addTally sender p (-fee) .BALANCE).getCachedAmount p = u.getCachedAmount p :=
      rfl
    refine .setFee hrange' hordered ?_ (by omega) fun a => ?_
    · rw [held_addTally]
      split <;> omega
    · have hle := hrange'.money_le_held a p (t := .BALANCE) (by decide)
      rw [held_addTally] at hle
      simp only [ne_eq, reduceCtorEq, not_false_eq_true, and_self, if_true] at hle
      have hmax := hheld p
      omega

theorem hasOwner_iff {sender : Address} : s.HasOwner sender p ↔ ∃ a, a ≠ sender ∧
    0 < s.money a p .BALANCE + s.money a p .SELLOFFER_RESERVE + s.money a p .ACCEPT_RESERVE +
      s.money a p .METADEX_RESERVE :=
  hasOwner_iff_tokens

theorem HasFeeOwner.of_money (h : ∀ a t, s'.money a (feeOwnersProperty p) t =
    s.money a (feeOwnersProperty p) t) : s'.HasFeeOwner p ↔ s.HasFeeOwner p := by
  unfold HasFeeOwner
  rw [hasOwner_iff, hasOwner_iff]
  simp only [h]

theorem wp_notify_of_owner (env : Env) {E : Halt → State → Prop} (hs : Sound c s) (htracks : c.Tracks s)
    (hnone : 0 < s.getCachedAmount p → ¬s.HasFeeOwner p → ∀ s', E (.abort .other) s') :
    wp (notifyTotalTokensChanged env p c.block) (fun _ _ => True) E s := by
  have hcall : EvalCall c env s p (s.updateThreshold p) := .notified p .refl
  have hroom := hcall.distributable hs htracks.1 htracks.2
  change wp (evalCache env p c.block) _ E (s.updateThreshold p)
  unfold evalCache
  rw [wp_bind, wp_get, wp_ite]
  refine ⟨fun hreached => ?_, fun _ => trivial⟩
  -- the threshold is at least one
  have hcached : 0 < (s.updateThreshold p).getCachedAmount p := by
    have hthreshold : 1 ≤ (s.updateThreshold p).aux.distributionThresholds.getD p 0 := by
      unfold updateThreshold
      simp only [ExtTreeMap.getD_insert_self]
      split <;> omega
    omega
  exact wp_distributeCache_iff hroom hcached (fun _ _ _ _ _ => trivial) (hnone hcached)

/-! ### Runs -/

/-- **When distributions complete.**  Wherever an event of a run calls `EvalCache` while the
identifiers last, a distribution of cached fees gives out exactly what is cached and empties the cache
if and only if somebody owns tokens of property 1, for properties of the test ecosystem of property
2. -/
theorem run_distribution_completes_iff (hstart : Genesis s₀)
    (htxids : (events.filterMap Event.txid?).Nodup)
    (hheights : (events.filterMap Event.height?).Pairwise (· ≤ ·))
    (hsplit : events = before ++ event :: after) (hrun : run env s₀ before = some s)
    (hblock : event.height? = some block) (txid : Hash)
    (hcall : EvalCall (Ctx.tracked.at block txid) env s p t) (hspace : ¬t.Overrun)
    (hcached : 0 < t.getCachedAmount p) :
    Completes env p block t ↔ t.HasFeeOwner p := by
  have hsound := sound_tracked hstart htxids hheights hsplit hrun hblock txid
  exact completes_iff (hcall.distributable hsound trivial hspace) hcached

/-- Tokens of the first property for the owners of the second one. -/
def ownersSend : CMPTransaction where
  txid := 999999003
  block := 999999
  blockTime := 1500000000
  txIdx := 3
  txFeePaid := 0
  blockHash := 999999
  payload := createPayloadSendToOwners 3 10 4
  sender := "exodus".toList
  receiver := []

/-- Two properties, of which some tokens of the second one go to a holder, and then the send to
owners. -/
def ownersEvents : List Event := [
  .vestDevmsc 1500000000 999999,
  samplePacket 999999 0 "exodus".toList []
    (createPayloadIssuanceFixed 1 1 0 [] [] "first".toList [] [] 100),
  samplePacket 999999 1 "exodus".toList []
    (createPayloadIssuanceFixed 1 1 0 [] [] "second".toList [] [] 100),
  samplePacket 999999 2 "exodus".toList "holder".toList (createPayloadSimpleSend 4 1),
  .packet ownersSend]

/-- More developer tokens than the fee of one receiver. -/
def wealthyEnv : Env := { sampleEnv with devmscAvailable := fun _ => 5000 }

instance (s : State) (sender : Address) (p : PropertyId) : Decidable (s.HasOwner sender p) :=
  inferInstanceAs (Decidable (∃ owner ∈ ownersOf s sender p, 0 < owner.1))

instance (s : State) (p : PropertyId) : Decidable (s.HasFeeOwner p) :=
  inferInstanceAs (Decidable (s.HasOwner _ _))

theorem HasFeeOwner.congr (h : s'.mpTallyMap = s.mpTallyMap) :
    s'.HasFeeOwner p ↔ s.HasFeeOwner p := by
  unfold HasFeeOwner HasOwner ownersOf
  rw [h]

/-- The state in which a send to owners calls `EvalCache`, with nothing cached before. -/
theorem exists_evalCall_sent (env : Env) {sender : Address} (fee : Int) (hs : Sound c s) (htracked : c.Tracked)
    (hspace : ¬s.Overrun) (hcache : s.getCachedAmount p = 0) (hfee : 0 ≤ fee)
    (henough : fee ≤ s.money sender p .BALANCE) :
    ∃ t, t = State.setFee env (s.addTally sender p (-fee) .BALANCE) p c.block
        (toInt64 ((s.addTally sender p (-fee) .BALANCE).getCachedAmount p + fee)) ∧
      EvalCall c env s p t ∧ t.getCachedAmount p = fee ∧ ¬t.Overrun ∧
      t.mpTallyMap = (s.addTally sender p (-fee) .BALANCE).mpTallyMap ∧ t.aux = s.aux := by
  have hmax := (hs.range sender p .BALANCE (by decide)).2
  have hzero : (s.addTally sender p (-fee) .BALANCE).getCachedAmount p = 0 := hcache
  have hordered : (s.addTally sender p (-fee) .BALANCE).FeesOrdered c.block :=
    (hs.supply ⟨htracked, hspace⟩).ordered
  refine ⟨_, rfl, .sent .refl hfee henough rfl, ?_, ?_, ?_, ?_⟩
  · rw [getCachedAmount_setFee_add hordered (by omega) (by omega), hzero, Int.zero_add]
  · rw [setFee_frame]
    exact hspace
  · rw [setFee_frame]
  · rw [setFee_frame]
    rfl

/-- The issuer pays the fee for one receiver and keeps some tokens of property 1. -/
theorem run_distribution_completes_iff_paid :
    ∃ s t, run wealthyEnv (State.empty wealthyEnv mainConsensusParams) (ownersEvents.take 4) = some s ∧
      EvalCall (Ctx.tracked.at 999999 999999003) wealthyEnv s 1 t ∧ t.getCachedAmount 1 = 1000 ∧
      Completes wealthyEnv 1 999999 t := by
  have hvalues : (run wealthyEnv (State.empty wealthyEnv mainConsensusParams)
      (ownersEvents.take 4)).map (fun s => (s.money "exodus".toList 1 .BALANCE, s.getCachedAmount 1,
        s.mySps.nextSpid, decide (HasFeeOwner (s.addTally "exodus".toList 1 (-1000) .BALANCE) 1))) =
      some (5000, 0, 5, true) := by decide +kernel
  obtain ⟨s, hrun, hs⟩ := Option.map_eq_some_iff.mp hvalues
  simp only [Prod.mk.injEq, decide_eq_true_eq] at hs
  obtain ⟨hmoney, hcache, hcounter, howner⟩ := hs
  have hspace : ¬s.Overrun := not_overrun_of_eq hcounter (by decide)
  have htxids : (ownersEvents.filterMap Event.txid?).Nodup := by decide +kernel
  have hheights : (ownersEvents.filterMap Event.height?).Pairwise (· ≤ ·) := by decide +kernel
  have hsound := sound_tracked (genesis_empty _ _) htxids hheights
    (List.take_append_drop 4 ownersEvents).symm hrun rfl 999999003
  obtain ⟨t, -, hcall, hcached, hspace', htally, -⟩ := exists_evalCall_sent wealthyEnv 1000
    hsound trivial hspace hcache (by decide) (by rw [hmoney]; decide)
  refine ⟨s, t, hrun, hcall, hcached, ?_⟩
  exact (run_distribution_completes_iff (genesis_empty _ _) htxids hheights
    (List.take_append_drop 4 ownersEvents).symm hrun rfl 999999003 hcall hspace'
    (by rw [hcached]; decide)).mpr ((HasFeeOwner.congr htally).mpr howner)

/-- The checks of a send to owners that pass before its fee is paid. -/
structure PaysOwners (s : State) (tx : CMPTransaction) (receivers : List (Int × Address)) : Prop where
  allowed : typeNotAllowed s tx tx.property = false
  value : valueOutOfRange tx.nValue = false
  valid : s.isPropertyIdValid tx.property = true
  distribution : s.isPropertyIdValid tx.distributionProperty = true
  balance : (tx.nValue : Int) ≤ s.getTokenBalance tx.sender tx.property .BALANCE
  version : tx.version ≠ MP_TX_PKT_V0
  found : okResult (stoGetReceivers tx.sender tx.distributionProperty tx.nValue) (fun _ => ()) s =
    some (receivers, ())
  nonempty : receivers ≠ []
  fee : tx.transferFee receivers.length ≤ s.getTokenBalance tx.sender tx.feeProperty .BALANCE
  other : tx.feeProperty ≠ tx.property

theorem PaysOwners.wp_fails {tx : CMPTransaction} {receivers : List (Int × Address)}
    {Q : Int → State → Prop} {E : Halt → State → Prop} (h : PaysOwners s tx receivers)
    (hrange : s.InRange) (hpay : wp (payTransferFee env tx tx.feeProperty (tx.transferFee receivers.length))
      (fun _ _ => False) E s) : wp (logicMathSendToOwners env tx) Q E s := by
  unfold logicMathSendToOwners
  rw [wp_bind, wp_get]
  simp only [h.allowed, h.value, h.valid, h.distribution, rejectIf_false, Bool.not_true,
    Bool.and_false, wp_bind, wp_pure, if_neg h.version, decide_eq_false (Int.not_lt.mpr h.balance)]
  obtain ⟨s', hfound, -⟩ := exists_of_okResult h.found
  have hsame : s' = s := ((wp_ok hfound).mp (reads_stoGetReceivers hrange)).1
  rw [wp_ok (hsame ▸ hfound)]
  have hnonempty : receivers.isEmpty = false := by
    cases receivers with
    | nil => exact absurd rfl h.nonempty
    | cons => rfl
  have hother : (tx.feeProperty == tx.property) = false := by simpa using h.other
  simp only [hnonempty, hother, rejectIf_false, wp_pure, Bool.false_and, Bool.and_false,
    decide_eq_false (Int.not_lt.mpr h.fee)]
  exact wp_mono hpay (fun _ _ hfalse => hfalse.elim) fun _ _ hE => hE

theorem wp_payTransferFee_fails {tx : CMPTransaction} {fee : Int} {Q : Unit → State → Prop}
    (hs : Sound c s) (htracked : c.Tracked) (hspace : ¬s.Overrun) (hblock : tx.block = c.block)
    (hversion : tx.version ≠ MP_TX_PKT_V0) (hcache : s.getCachedAmount p = 0) (hfee : 0 < fee)
    (henough : fee ≤ s.money tx.sender p .BALANCE) (hfree : s.isAddressFrozen tx.sender p = false)
    (hthreshold : s.aux.distributionThresholds.getD p 0 ≤ fee)
    (hnone : ¬HasFeeOwner (s.addTally tx.sender p (-fee) .BALANCE) p) :
    wp (payTransferFee env tx p fee) Q (fun e _ => e = .abort .other) s := by
  have hdebit : assertUpdateTallyMap tx.sender p (-fee) .BALANCE s =
      .ok () (s.addTally tx.sender p (-fee) .BALANCE) :=
    bind_of_ok (updateTallyMap_of_admits (fun _ _ => hfree) ⟨by omega, by omega, fun _ => by omega⟩)
  obtain ⟨t, ht, hcall, hcached, hspace', htally, haux⟩ := exists_evalCall_sent env fee
    hs htracked hspace hcache (Int.le_of_lt hfee) henough
  unfold payTransferFee
  rw [wp_bind, wp_ok hdebit, if_neg hversion, hblock]
  change wp (evalCache env p c.block) Q _ (State.setFee env _ p c.block _)
  rw [← ht]
  unfold evalCache
  rw [wp_bind, wp_get, haux, hcached, if_pos hthreshold]
  refine wp_distributeCache_iff (hcall.distributable hs htracked hspace') (by omega)
    (fun howner => absurd ((HasFeeOwner.congr htally).mp howner) hnone) fun _ _ => rfl

theorem logicMath_of_sendToOwners {tx : CMPTransaction} (htype : tx.type = MSC_TYPE_SEND_TO_OWNERS) :
    logicMath env tx = logicMathSendToOwners env tx := by
  unfold logicMath
  simp only [htype]
  rfl

/-- **A distribution that nobody receives.**  The issuer pays the last tokens of property 1 as the fee
of a send to owners, and the assertion at the end of the distribution fails. -/
theorem exists_distribution_fails :
    ∃ s t u, run sampleEnv (State.empty sampleEnv mainConsensusParams) (ownersEvents.take 4) = some s ∧
      EvalCall (Ctx.tracked.at 999999 999999003) sampleEnv s 1 t ∧ 0 < t.getCachedAmount 1 ∧
      ¬Completes sampleEnv 1 999999 t ∧
      (Event.packet ownersSend).exec sampleEnv s = .error (.abort .other) u := by
  have hfields : ownersSend.interpretTransaction.map (fun tx => decide (
      tx.type = MSC_TYPE_SEND_TO_OWNERS ∧ tx.version = 1 ∧ tx.sender = "exodus".toList ∧
      tx.block = 999999 ∧ tx.feeProperty = 1 ∧ tx.property = 3 ∧ tx.transferFee 1 = 1000)) =
      some true := by decide +kernel
  obtain ⟨tx, hparse, hfields⟩ := Option.map_eq_some_iff.mp hfields
  obtain ⟨htype, hversion, hsender, hblock, hfeeProperty, hproperty, hfee⟩ := of_decide_eq_true hfields
  have hvalues : (run sampleEnv (State.empty sampleEnv mainConsensusParams)
      (ownersEvents.take 4)).map (fun s => decide (s.money "exodus".toList 1 .BALANCE = 1000 ∧
        s.getCachedAmount 1 = 0 ∧ s.mySps.nextSpid = 5 ∧ s.aux.distributionThresholds.getD 1 0 = 1 ∧
        s.isAddressFrozen "exodus".toList 1 = false ∧ s.isAddressFrozen "exodus".toList 3 = false ∧
        ¬HasFeeOwner (s.addTally "exodus".toList 1 (-1000) .BALANCE) 1)) = some true := by
    decide +kernel
  obtain ⟨s, hrun, hs⟩ := Option.map_eq_some_iff.mp hvalues
  obtain ⟨hmoney, hcache, hcounter, hthreshold, hfree, hfree', hnone⟩ := of_decide_eq_true hs
  have hchecks : (run sampleEnv (State.empty sampleEnv mainConsensusParams)
      (ownersEvents.take 4)).bind (fun s => ownersSend.interpretTransaction.map fun tx => decide (
        typeNotAllowed s tx tx.property = false ∧ valueOutOfRange tx.nValue = false ∧
        s.isPropertyIdValid tx.property = true ∧ s.isPropertyIdValid tx.distributionProperty = true ∧
        (tx.nValue : Int) ≤ s.getTokenBalance tx.sender tx.property .BALANCE ∧
        okResult (stoGetReceivers tx.sender tx.distributionProperty tx.nValue) (fun _ => ()) s =
          some ([(10, "holder".toList)], ()))) = some true := by
    decide +kernel
  rw [hrun, Option.bind_some, hparse, Option.map_some, Option.some.injEq] at hchecks
  obtain ⟨hallowed, hvalue, hvalid, hdistribution, hbalance, hfound⟩ := of_decide_eq_true hchecks
  have hpays : PaysOwners s tx [(10, "holder".toList)] :=
    ⟨hallowed, hvalue, hvalid, hdistribution, hbalance, by rw [hversion]; decide, hfound, by simp,
      by rw [List.length_singleton, hfee, hfeeProperty, hsender]; exact hmoney.ge,
      by rw [hfeeProperty, hproperty]; decide⟩
  have hspace : ¬s.Overrun := not_overrun_of_eq hcounter (by decide)
  have hsplit := (List.take_append_drop 4 ownersEvents).symm
  have htxids : (ownersEvents.filterMap Event.txid?).Nodup := by decide +kernel
  have hsound := sound_tracked (genesis_empty _ _) htxids (by decide +kernel) hsplit hrun rfl 999999003
  obtain ⟨t, -, hcall, hcached, hspace', htally, -⟩ := exists_evalCall_sent sampleEnv 1000
    hsound trivial hspace hcache (by decide) (by rw [hmoney])
  have hfails : wp ((Event.packet ownersSend).exec sampleEnv) (fun _ _ => False)
      (fun e _ => e = .abort .other) s := by
    change wp (interpretPacket sampleEnv ownersSend >>= fun _ => pure ()) _ _ s
    rw [wp_bind]
    refine wp_interpretPacket rfl hparse (by rw [htype]; decide)
      (by rw [hsender, hproperty]; exact hfree') ?_
    rw [logicMath_of_sendToOwners htype]
    refine hpays.wp_fails hsound.range ?_
    rw [List.length_singleton, hfee, hfeeProperty]
    rw [← hsender] at hmoney hfree hnone
    exact wp_payTransferFee_fails hsound trivial hspace hblock (by rw [hversion]; decide) hcache
      (by decide) hmoney.ge hfree (by rw [hthreshold]; decide) hnone
  have hincomplete : ¬Completes sampleEnv 1 999999 t := fun hcompletes =>
    hnone ((HasFeeOwner.congr htally).mp ((completes_iff
      (hcall.distributable hsound trivial hspace') (by rw [hcached]; decide)).mp hcompletes))
  cases hexec : (Event.packet ownersSend).exec sampleEnv s with
  | ok a u => exact ((wp_ok hexec).mp hfails).elim
  | error e u =>
      obtain rfl := (wp_error hexec).mp hfails
      exact ⟨s, t, u, hrun, hcall, by rw [hcached]; decide, hincomplete, hexec⟩

end HcOmni
