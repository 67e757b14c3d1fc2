import HcOmni.Conformance.System
import HcOmni.Core.CreatePayload

/-!
# The invariant along a run

Every event of a run is executed in circumstances of its own: its block and its transaction.
This module carries the invariant of the engine from event to event, so that at every point of a
run the next event is known to do only what `Outcome` lists.
-/

namespace HcOmni

open Std MapSum Program CMPTally State

variable {c : Ctx} {s s' t t' : State} {env : Env} {event : Event} {events before after : List Event}

/-! ### One event -/

theorem exists_step_of_live {P : State → Prop}
    (h : wp (event.exec env) (fun _ s' => P s') (fun e s' => e.Live ∧ P s') s) :
    ∃ s', step env s event = some s' ∧ P s' := by
  unfold step
  cases hm : event.exec env s with
  | ok a s' => exact ⟨s', rfl, (wp_ok hm).mp h⟩
  | error halt s' =>
    obtain ⟨hlive, hP⟩ := (wp_error hm).mp h
    exact ⟨s', if_pos hlive, hP⟩

theorem step_outcome (hs : Sound c s) (h : Suits c env s event)
    (hstep : step env s event = some s') : Outcome c s s' := by
  have hexec := outcome_exec hs h
  unfold step at hstep
  cases hm : event.exec env s with
  | ok a s'' =>
    rw [hm] at hstep
    cases hstep
    exact (wp_ok hm).mp hexec
  | error halt s'' =>
    rw [hm] at hstep
    obtain ⟨hlive, hsame⟩ := Option.ite_none_right_eq_some.mp hstep
    cases hsame
    exact ((wp_error hm).mp hexec).1 hlive

theorem not_bad_of_exec {halt : Halt} (hs : Sound c s) (h : Suits c env s event)
    (hexec : event.exec env s = .error halt s') : ¬Bad c halt :=
  ((wp_error hexec).mp (outcome_exec hs h)).2

theorem wp_interpretPacket {tx tx' : CMPTransaction} {Q : Int → State → Prop} {E : Halt → State → Prop}
    (hrpc : tx.rpcOnly = false) (hparse : tx.interpretTransaction = some tx')
    (htype : tx'.type ≠ MSC_TYPE_SEND_AGREEMENT)
    (hfree : s.isAddressFrozen tx'.sender tx'.property = false)
    (h : wp (logicMath env tx') Q E s) : wp (interpretPacket env tx) Q E s := by
  unfold interpretPacket decodeAgreement
  simp only [hrpc, hparse, htype, rejectIf, Bool.false_eq_true, if_false, wp_bind, wp_get, wp_pure]
  rw [hfree]
  exact h

namespace Outcome

theorem txUsed {txid : Hash} (h : Outcome c s s') (hused : s'.TxUsed txid) :
    s.TxUsed txid ∨ txid = c.txid := by
  cases h with
  | freezes => exact .inl hused
  | @steps _ aux hvested hsteps =>
    induction hsteps with
    | refl => exact .inl hused
    | tail _ hstep ih => exact (hstep.txUsed hused).elim ih .inr

/-- **Frozen balances do not decrease.** -/
theorem frozen_balance_le {a : Address} {p : PropertyId} (h : Outcome c s s')
    (hfrozen : s.isAddressFrozen a p = true) :
    s.money a p .BALANCE ≤ s'.money a p .BALANCE := by
  cases h with
  | freezes => exact le_rfl
  | @steps _ aux hvested hsteps =>
    induction hsteps with
    | refl => exact le_rfl
    | tail hbefore hstep ih =>
      exact ih.trans (hstep.frozen_balance_le ((Steps.isAddressFrozen hbefore a p).trans hfrozen))

theorem induction {I : State → Prop} (h : Outcome c s s') (hs : Sound c s)
    (haux : ∀ aux, I { s with aux := aux })
    (hstep : ∀ t t', Sound c t → I t → Step c t t' → I t')
    (hfreeze : ∀ enabled frozen, I { s with
      setFreezingEnabledProperties := enabled, setFrozenAddresses := frozen }) : I s' := by
  cases h with
  | freezes => exact hfreeze _ _
  | steps aux hvested hsteps =>
    have hboth : Sound c s' ∧ I s' := by
      induction hsteps with
      | refl => exact ⟨hs.setAux hvested, haux aux⟩
      | tail _ hnext ih => exact ⟨ih.1.step hnext, hstep _ _ ih.1 ih.2 hnext⟩
    exact hboth.2

end Outcome

/-! ### The start -/

/-- Nothing has happened yet.  There may be tokens of properties 1 and 2, but nothing else. -/
structure Genesis (s : State) : Prop where
  range : s.InRange
  base : ∀ p, p = 1 ∨ p = 2 → s.held p ≤ BASE_SUPPLY
  other : ∀ p, p ≠ 1 ∧ p ≠ 2 → s.held p = 0
  offers : s.myOffers = ∅
  accepts : s.myAccepts = ∅
  crowds : s.myCrowds = ∅
  book : s.metadex = ∅
  entries : s.mySps.entries = ∅
  counters : s.mySps.nextSpid = 3 ∧ s.mySps.nextTestSpid = TEST_ECO_PROPERTY_1
  cache : s.feecache = ∅
  frozen : s.setFrozenAddresses = ∅
  vested : s.aux.exodusPrev = 0

namespace Genesis

variable (h : Genesis s)

include h

theorem getCachedAmount_eq (p : PropertyId) : s.getCachedAmount p = 0 := by
  simp [getCachedAmount, h.cache]

theorem issued_eq (p : PropertyId) : s.issued p = 0 :=
  issued_of_none (by simp [h.entries])

theorem bookSum_eq (a : Address) (p : PropertyId) : s.bookSum a p = 0 := by
  unfold bookSum
  rw [h.book]
  exact mapSum_empty _

theorem acceptSum_eq (a : Address) (p : PropertyId) : s.acceptSum a p = 0 := by
  unfold acceptSum
  rw [h.accepts]
  exact mapSum_empty _

theorem acceptsOk : s.AcceptsOk :=
  ⟨by simp [h.offers], by simp [h.accepts]⟩

theorem not_overrun : ¬s.Overrun := not_overrun_of_eq h.counters.1 (by decide)

theorem supply (c : Ctx) : Supply c s where
  ids := ⟨by rw [h.counters.1]; decide, .inr (by rw [h.counters.2]; decide), by simp [h.entries]⟩
  kinds := by simp [h.entries]
  crowds := by simp [h.crowds]
  unique := by simp [CrowdsUnique, h.crowds]
  total p hp := by
    rw [h.other p ⟨by lia, by lia⟩, h.getCachedAmount_eq, h.issued_eq]
    rfl
  bounded p hp := by
    rw [h.issued_eq]
    decide
  cached p := by rw [h.getCachedAmount_eq]
  base p hp := by
    rw [h.getCachedAmount_eq, h.vested, Int.add_zero, Int.add_zero]
    by_cases hbase : p = 1 ∨ p = 2
    · exact h.base p hbase
    · rw [h.other p (not_or.mp hbase)]
      decide
  reward := by
    rw [h.vested]
    decide
  ordered := by simp [FeesOrdered, h.cache]

/-- **The invariant holds at the start.** -/
theorem sound (c : Ctx) : Sound c s where
  range := h.range
  frozen := by simp [isAddressFrozen, h.frozen]
  book := by simp [BookOk, mdSet, h.book]
  reserve a p := by
    unfold reserveSlack
    rw [h.bookSum_eq, Int.sub_zero]
    exact (h.range a p _ (by decide)).1
  accepts := by simp [h.accepts]
  spid := by
    rw [h.counters.1]
    decide
  supply _ := h.supply c
  strict _ := by
    refine ⟨h.acceptsOk, fun a p => ?_, h.cache, h.not_overrun⟩
    unfold acceptSlack
    rw [h.acceptSum_eq, Int.sub_zero]
    exact (h.range a p _ (by decide)).1

theorem not_txUsed (txid : Hash) : ¬s.TxUsed txid := by
  simp [TxUsed, h.entries, h.crowds]

end Genesis

theorem genesis_empty (env : Env) (params : ConsensusParams) :
    Genesis (State.empty env params) where
  range a p t _ := by
    have hzero : (State.empty env params).money a p t = 0 := by simp [money, State.empty]
    rw [hzero]
    decide
  base p _ := by
    have hzero : (State.empty env params).held p = 0 := mapSum_empty _
    rw [hzero]
    decide
  other p _ := mapSum_empty _
  offers := rfl
  accepts := rfl
  crowds := rfl
  book := rfl
  entries := rfl
  counters := ⟨rfl, rfl⟩
  cache := rfl
  frozen := rfl
  vested := rfl

/-! ### Runs -/

/-- The circumstances of one event of a run. -/
def Ctx.at (c : Ctx) (block : Int) (txid : Hash) : Ctx := { c with block := block, txid := txid }

/-- Nothing but the block matters to the invariant, and that may only grow.  Where no fees are
taken, it does not matter either. -/
theorem Sound.at {block block' : Int} {txid txid' : Hash} (hs : Sound (c.at block txid) s)
    (hle : c.Tracked → ¬c.Strict → block ≤ block') : Sound (c.at block' txid') s where
  range := hs.range
  frozen := hs.frozen
  book := hs.book
  reserve := hs.reserve
  accepts := hs.accepts
  spid := hs.spid
  supply htracks := by
    have h := hs.supply htracks
    refine ⟨h.ids, h.kinds, h.crowds, h.unique, h.total, h.bounded, h.cached, h.base, h.reward, ?_⟩
    by_cases hstrict : c.Strict
    · simp [FeesOrdered, (hs.strict hstrict).cache]
    · exact fun p history hget b v hb =>
        (h.ordered p history hget b v hb).trans (hle htracks.1 hstrict)
  strict := hs.strict

/-- What a run has to keep to, so that the promises of `c` are true of each of its events. -/
structure RunSuits (c : Ctx) (env : Env) (s : State) (events : List Event) : Prop where
  txids : c.Tracked → (events.filterMap Event.txid?).Nodup
  heights : c.Tracked → ¬c.Strict → (events.filterMap Event.height?).Pairwise (· ≤ ·)
  addr : ∀ tx, Event.packet tx ∈ events → c.Addr tx.sender ∧ c.Addr tx.receiver
  place : ∀ tx, Event.packet tx ∈ events → c.Place tx.block tx.txIdx
  vests : ∀ nTime block, Event.vestDevmsc nTime block ∈ events → c.Vests
  fits : c.Fits → ∀ before event after t, events = before ++ event :: after →
    run env s before = some t → event.PurchaseFits env t
  feeless : c.Strict → ∀ before event after t, events = before ++ event :: after →
    run env s before = some t → event.Feeless t
  space : c.Strict → ∀ before event after t, events = before ++ event :: after →
    run env s before = some t → t.mySps.nextSpid < TEST_ECO_PROPERTY_1

/-- The invariant of a run, with the events behind it. -/
structure RunSound (c : Ctx) (before : List Event) (t : State) : Prop where
  sound : ∀ block,
    (c.Tracked → ¬c.Strict → ∀ height ∈ before.filterMap Event.height?, height ≤ block) →
    ∀ txid, Sound (c.at block txid) t
  used : ∀ txid, t.TxUsed txid → txid ∈ before.filterMap Event.txid?

theorem RunSound.of_genesis (h : Genesis s) : RunSound c [] s :=
  ⟨fun _ _ _ => h.sound _, fun txid hused => absurd hused (h.not_txUsed txid)⟩

namespace RunSuits

variable (h : RunSuits c env s events) (hsplit : events = before ++ event :: after)

include h hsplit

theorem height_le (htracked : c.Tracked) (hloose : ¬c.Strict) {height block : Int}
    (hevent : event.height? = some block) (hmem : height ∈ before.filterMap Event.height?) :
    height ≤ block := by
  have hpairs := h.heights htracked hloose
  rw [hsplit, List.filterMap_append, List.filterMap_cons_some hevent, List.pairwise_append] at hpairs
  exact hpairs.2.2 height hmem block List.mem_cons_self

theorem txid_fresh (htracked : c.Tracked) {txid : Hash} (hevent : event.txid? = some txid) :
    txid ∉ before.filterMap Event.txid? := by
  have hnodup := h.txids htracked
  rw [hsplit, List.filterMap_append, List.filterMap_cons_some hevent, List.nodup_append] at hnodup
  exact fun hmem => hnodup.2.2 txid hmem txid List.mem_cons_self rfl

/-- **Every event of a run is executed in circumstances that suit it.** -/
theorem suits (hrun : run env s before = some t) (ht : RunSound c before t) {block : Int}
    {txid : Hash} (hblock : ∀ height, event.height? = some height → height = block)
    (htxid : ∀ txid', event.txid? = some txid' → txid' = txid) :
    Suits (c.at block txid) env t event where
  txid := htxid
  height := hblock
  fresh htracked txid' hevent hused := h.txid_fresh hsplit htracked hevent (ht.used txid' hused)
  addr tx htx := h.addr tx (by simp [hsplit, htx])
  place tx htx := h.place tx (by simp [hsplit, htx])
  fits hfits := h.fits hfits before event after t hsplit hrun
  vests nTime block' hvest := h.vests nTime block' (by simp [hsplit, hvest])
  feeless hstrict := h.feeless hstrict before event after t hsplit hrun
  space hstrict := h.space hstrict before event after t hsplit hrun

/-- Circumstances with the block of the event, or a given one that is high enough if it has
none, and with its transaction, or any other if it has none. -/
theorem exists_suits (hrun : run env s before = some t) (ht : RunSound c before t) {top : Int}
    (htop : c.Tracked → ¬c.Strict →
      ∀ height ∈ (before ++ [event]).filterMap Event.height?, height ≤ top)
    {txid : Hash} (htxid : ∀ txid', event.txid? = some txid' → txid' = txid) :
    ∃ block, (c.Tracked → ¬c.Strict → block ≤ top) ∧ Sound (c.at block txid) t ∧
      Suits (c.at block txid) env t event := by
  rw [List.filterMap_append] at htop
  cases hevent : event.height? with
  | some block =>
    refine ⟨block, fun htracked hloose => htop htracked hloose block ?_, ?_, ?_⟩
    · rw [List.filterMap_cons_some hevent]
      simp
    · exact ht.sound block
        (fun htracked hloose height => h.height_le hsplit htracked hloose hevent) txid
    · refine h.suits hsplit hrun ht (fun height hsome => ?_) htxid
      rw [hevent] at hsome
      exact (Option.some.inj hsome).symm
  | none =>
    refine ⟨top, fun _ _ => le_rfl, ?_, ?_⟩
    · exact ht.sound top (fun htracked hloose height hmem =>
        htop htracked hloose height (List.mem_append_left _ hmem)) txid
    · exact h.suits hsplit hrun ht (fun height hsome => by simp [hevent] at hsome) htxid

/-- **One event of a run keeps the invariant of the run.** -/
theorem step (hrun : run env s before = some t) (ht : RunSound c before t)
    (hstep : step env t event = some t') : RunSound c (before ++ [event]) t' := by
  constructor
  · intro top htop txid
    have hown : ∀ txid', event.txid? = some txid' → txid' = event.txid?.getD 0 :=
      fun txid' hsome => by simp [hsome]
    obtain ⟨block, hle, hsound, hsuits⟩ := h.exists_suits hsplit hrun ht htop hown
    exact (hsound.outcome (step_outcome hsound hsuits hstep)).at hle
  · intro txid hused
    rw [List.filterMap_append, List.mem_append]
    -- without a transaction, whichever one is put into the circumstances leaves no record
    obtain ⟨other, hother, hne⟩ : ∃ other, (∀ txid', event.txid? = some txid' → txid' = other) ∧
        (event.txid? = none → txid ≠ other) := by
      cases hevent : event.txid? with
      | some txid' => exact ⟨txid', fun _ hsome => (Option.some.inj hsome).symm, (fun h => by cases h)⟩
      | none => exact ⟨txid + 1, (fun _ h => by cases h), fun _ => Nat.ne_of_lt (Nat.lt_succ_self txid)⟩
    obtain ⟨top, htop⟩ := ((before ++ [event]).filterMap Event.height?).toFinset.exists_le
    obtain ⟨block, -, hsound, hsuits⟩ := h.exists_suits hsplit hrun ht
      (fun _ _ height hmem => htop height (List.mem_toFinset.mpr hmem)) hother
    rcases (step_outcome hsound hsuits hstep).txUsed hused with hbefore | hnow
    · exact .inl (ht.used txid hbefore)
    · right
      cases hevent : event.txid? with
      | none => exact absurd hnow (hne hevent)
      | some txid' =>
        rw [List.filterMap_cons_some hevent, hnow, ← hother txid' hevent]
        exact List.mem_cons_self

omit hsplit

/-- **The invariant of a run holds all along it.** -/
theorem sound (hstart : Genesis s) (hsplit : events = before ++ after)
    (hrun : run env s before = some t) : RunSound c before t := by
  refine foldlM_invariant (RunSound.of_genesis hstart) ?_ hrun
  intro earlier event later u u' hearlier hu hsound hstep
  have hwhole : events = earlier ++ event :: (later ++ after) := by
    rw [hsplit, hearlier, List.append_assoc, List.cons_append]
  exact h.step hwhole hu hsound hstep

theorem exists_sound (hstart : Genesis s) (hrun : run env s events = some t) :
    ∃ top, Sound (c.at top 0) t := by
  obtain ⟨top, htop⟩ := (events.filterMap Event.height?).toFinset.exists_le
  exact ⟨top, (h.sound hstart (List.append_nil events).symm hrun).sound top
    (fun _ _ height hmem => htop height (List.mem_toFinset.mpr hmem)) 0⟩

theorem next (hstart : Genesis s) (hsplit : events = before ++ event :: after)
    (hrun : run env s before = some t) :
    ∃ block txid, Sound (c.at block txid) t ∧ Suits (c.at block txid) env t event := by
  obtain ⟨top, htop⟩ := ((before ++ [event]).filterMap Event.height?).toFinset.exists_le
  have hown : ∀ txid', event.txid? = some txid' → txid' = event.txid?.getD 0 :=
    fun txid' hsome => by simp [hsome]
  obtain ⟨block, -, hboth⟩ := h.exists_suits hsplit hrun (h.sound hstart hsplit hrun)
    (fun _ _ height hmem => htop height (List.mem_toFinset.mpr hmem)) hown
  exact ⟨block, _, hboth⟩

/-- **Induction along a run that keeps to its promises.** -/
theorem induction {I : State → Prop} (hstart : Genesis s) (hI : I s)
    (hstep : ∀ block txid u u', Sound (c.at block txid) u → I u → Outcome (c.at block txid) u u' →
      I u')
    (hrun : run env s events = some t) : I t := by
  refine foldlM_invariant (I := fun _ => I) hI ?_ hrun
  intro before event after u u' hsplit hbefore hu hnext
  obtain ⟨block, txid, hsound, hsuits⟩ := h.next hstart hsplit hbefore
  exact hstep block txid u u' hsound hu (step_outcome hsound hsuits hnext)

end RunSuits

/-! ### Circumstances without promises -/

/-- Nothing is promised about a run. -/
def Ctx.any : Ctx where
  block := 0
  txid := 0
  Addr _ := True
  Place _ _ := True
  Tracked := False
  Fits := False
  Vests := True
  Strict := False
  tracked_of_strict := id
  fits_of_strict := id
  clean_of_strict := False.elim

theorem runSuits_any : RunSuits .any env s events where
  txids := False.elim
  heights := False.elim
  addr _ _ := ⟨trivial, trivial⟩
  place _ _ := trivial
  vests _ _ _ := trivial
  fits := False.elim
  feeless := False.elim
  space := False.elim

/-! ### Events for sample runs -/

/-- Surroundings with simple formulas in the place of the floating point ones: a token costs one
coin, and 1000 developer tokens have vested. -/
def sampleEnv : Env where
  legacyCalculateDesiredBTC _ _ amountAvailable := amountAvailable
  legacyCalculateDExPurchase _ _ amountPaid := amountPaid
  devmscAvailable _ := 1000
  chainActive _ := none
  exodusAddress := "exodus".toList
  mscDebugFees := false
  checkActivationAuthorization _ := false
  checkDeactivationAuthorization _ := false
  checkAlertAuthorization _ := false
  decodeAgreement _ := .decoded

/-- The transaction at the given place of the chain, with its place as identifier. -/
def samplePacket (block idx : Nat) (sender receiver : Address) (payload : List UInt8) : Event :=
  .packet {
    txid := 1000 * block + idx
    block := block
    blockTime := 1500000000
    txIdx := idx
    txFeePaid := 0
    blockHash := block
    payload := payload
    sender := sender
    receiver := receiver }

/-- What a call returns in a given state, and what `f` says of the state after it. -/
def okResult {ε σ α β : Type} (m : EStateM ε σ α) (f : σ → β) (s : σ) : Option (α × β) :=
  match m s with
  | .ok a s' => some (a, f s')
  | .error _ _ => none

theorem exists_of_okResult {ε σ α β : Type} {m : EStateM ε σ α} {f : σ → β} {s : σ} {a : α} {b : β}
    (h : okResult m f s = some (a, b)) : ∃ s', m s = .ok a s' ∧ f s' = b := by
  unfold okResult at h
  cases hm : m s with
  | ok a' s' =>
    rw [hm] at h
    cases h
    exact ⟨s', rfl, rfl⟩
  | error e s' =>
    rw [hm] at h
    cases h

end HcOmni
