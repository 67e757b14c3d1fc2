import HcOmni.Conformance.Rejection
import HcOmni.Runs.Invariant

/-!
# Rejections along a run

In the states that a run reaches, a rejected transaction changes nothing.  The one exception is a
refused update of an offer of the classic exchange, whose old offer is gone by then.
-/

namespace HcOmni

open Std MapSum Program CMPTally State

variable {c : Ctx} {env : Env} {s s' s₀ : State} {events : List Event} {tx tx' : CMPTransaction}

/-! ### Rejected transactions -/

theorem Atomic.unchanged {m : Op Int} {rc : Int} (h : Atomic m s) (hcall : callRc m s = .ok rc s')
    (hne : rc ≠ 0) : Unchanged s s' := by
  unfold callRc at hcall
  cases hm : m s with
  | ok rc' t =>
    rw [hm] at hcall
    cases hcall
    exact (wp_ok hm).mp h hne
  | error e t =>
    rw [hm] at hcall
    cases e with
    | ret rc' =>
      cases hcall
      exact (wp_error hm).mp h ⟨rc, rfl⟩
    | thrown | abort | crash | hang => cases hcall

theorem Atomic.of_wp {m : Op Int} (h : wp m (fun rc _ => rc = 0) (fun e _ => ¬e.Returns) s) :
    Atomic m s :=
  wp_mono h (fun _ _ hrc hne => absurd hrc hne) fun _ _ he hret => absurd hret he

/-- Orders come from the given events. -/
def Ctx.placedBy (events : List Event) : Ctx :=
  { Ctx.any with Place := fun block idx => (block, idx) ∈ events.filterMap Event.place? }

theorem runSuits_placedBy : RunSuits (.placedBy events) env s events where
  txids := False.elim
  heights := False.elim
  addr _ _ := ⟨trivial, trivial⟩
  place tx hmem := List.mem_filterMap.mpr ⟨.packet tx, hmem, rfl⟩
  vests _ _ _ := trivial
  fits := False.elim
  feeless := False.elim
  space := False.elim

theorem Genesis.bookFrom {place : Int → Nat → Prop} (h : Genesis s) : s.BookFrom place := by
  simp [BookFrom, mdSet, h.book]

theorem State.BookFrom.outcome (hs : Sound c s) (hbook : s.BookFrom c.Place)
    (h : Outcome c s s') : s'.BookFrom c.Place := by
  refine h.induction hs (fun aux => ?_) (fun t t' ht hbook hstep => ?_) fun enabled frozen => ?_
  · exact hbook.congr rfl
  · exact hbook.step hstep
  · exact hbook.congr rfl

/-- Whatever a run has placed in the book of the token exchange, there is room for an order of a
transaction from elsewhere. -/
theorem roomFor_of_run (hstart : Genesis s₀) (hrun : run env s₀ events = some s)
    (hfresh : (tx.block, tx.txIdx) ∉ events.filterMap Event.place?) :
    RoomFor ((Ctx.placedBy events).at tx.block tx.txid) tx s := by
  have hsuits : RunSuits (.placedBy events) env s₀ events := runSuits_placedBy
  constructor
  · exact (hsuits.sound hstart (List.append_nil events).symm hrun).sound tx.block False.elim tx.txid
  · exact hsuits.induction (I := fun t => t.BookFrom (Ctx.placedBy events).Place) hstart
      hstart.bookFrom (fun block txid _ _ hu hbook houtcome =>
        State.BookFrom.outcome (c := (Ctx.placedBy events).at block txid) hu hbook houtcome) hrun
  · rfl
  · exact id
  · exact hfresh

/-- **Rejected transactions have no effect.**  A transaction of any type but that of an offer of
the classic exchange, from a place of the chain that the run has not seen, leaves tallies, offers,
accepts, orders, crowdsales, properties and their counters, freezing and activations as they were,
if it returns a negative value.  Only the list of what went to the databases may grow. -/
theorem run_rejected_unchanged (hstart : Genesis s₀) (hrun : run env s₀ events = some s)
    (hfresh : (tx.block, tx.txIdx) ∉ events.filterMap Event.place?)
    (htype : ∀ tx', tx.interpretTransaction = some tx' → tx'.type ≠ MSC_TYPE_TRADE_OFFER)
    {rc : Int} (hcall : callRc (interpretPacket env tx) s = .ok rc s') (hrc : rc < 0) :
    ∃ records, s' = { s with aux.records := records } := by
  have hroom := roomFor_of_run hstart hrun hfresh
  have hatomic : Atomic (interpretPacket env tx) s := by
    refine atomic_interpretPacket fun parsed hparse hfrozen => ?_
    exact atomic_logicMath (hroom.parsed hparse) hfrozen (htype parsed hparse)
  exact hatomic.unchanged hcall (Int.ne_of_lt hrc)

/-- A hundred tokens are issued. -/
def overdrawnEvents : List Event := [samplePacket 50000 0 "issuer".toList []
  (createPayloadIssuanceFixed 1 1 0 [] [] "token".toList [] [] 100)]

/-- A send of more than that. -/
def overdraft : CMPTransaction where
  txid := 50001000
  block := 50001
  blockTime := 1500000000
  txIdx := 0
  txFeePaid := 0
  blockHash := 50001
  payload := createPayloadSimpleSend 3 101
  sender := "issuer".toList
  receiver := "buyer".toList

theorem run_rejected_unchanged_overdraft :
    ∃ s s', run sampleEnv (State.empty sampleEnv mainConsensusParams) overdrawnEvents = some s ∧
      callRc (interpretPacket sampleEnv overdraft) s = .ok (PKT_ERROR_SEND - 25) s' ∧
      ∃ records, s' = { s with aux.records := records } := by
  obtain ⟨s, hrun⟩ := Option.isSome_iff_exists.mp (by decide +kernel :
    (run sampleEnv (State.empty sampleEnv mainConsensusParams) overdrawnEvents).isSome = true)
  have hresult : (run sampleEnv (State.empty sampleEnv mainConsensusParams) overdrawnEvents).bind
      (okResult (callRc (interpretPacket sampleEnv overdraft)) fun _ => ()) =
        some (PKT_ERROR_SEND - 25, ()) := by decide +kernel
  rw [hrun, Option.bind_some] at hresult
  obtain ⟨s', hcall, -⟩ := exists_of_okResult hresult
  have htype : ∀ tx', overdraft.interpretTransaction = some tx' →
      tx'.type ≠ MSC_TYPE_TRADE_OFFER := by
    intro tx' hparse
    have hsend : overdraft.interpretTransaction.map (·.type) = some MSC_TYPE_SIMPLE_SEND := by
      decide +kernel
    rw [hparse, Option.map_some, Option.some.injEq] at hsend
    rw [hsend]
    decide
  exact ⟨s, s', hrun, hcall, run_rejected_unchanged (genesis_empty _ _) hrun (by decide +kernel)
    htype hcall (by decide)⟩

/-! ### Refused offers -/

/-- The transaction replaces an offer that its sender has. -/
def CMPTransaction.updatesOffer (tx : CMPTransaction) (s : State) : Bool :=
  (s.dexGetOffer tx.sender tx.property).isSome &&
    (tx.version == MP_TX_PKT_V0 && tx.nValue != 0 ||
      tx.version == MP_TX_PKT_V1 && tx.subaction == UPDATE)

/-- What the sender can offer once the reserve of the old offer is back. -/
def CMPTransaction.offerable (tx : CMPTransaction) (s : State) : Int :=
  s.money tx.sender tx.property .BALANCE + max (s.money tx.sender tx.property .SELLOFFER_RESERVE) 0

/-- The terms of the new offer are none that `DEx_offerCreate` refuses. -/
structure CMPTransaction.TermsOk (tx : CMPTransaction) (s : State) : Prop where
  window : tx.blocktimelimit ≠ 0
  desired : toInt64 tx.amountDesired ≠ 0
  positive : 0 < tx.nValue ∧ 0 < tx.offerable s
  covered : s.aux.params.isFeatureActivated FEATURE_DEXMATH tx.block = true →
    tx.nValue ≤ tx.offerable s

theorem atomic_dexOfferDestroy {a : Address} {p : PropertyId} :
    Atomic (dexOfferDestroy a p) s := by
  unfold dexOfferDestroy
  refine Atomic.get (.reads reads_rejectIf fun _ _ => .of_avoids ?_)
  refine Avoids.ite (fun _ => ?_) fun _ => ?_
  · exact straight_assertUpdateTallyMap.bind fun _ _ => straight_assertUpdateTallyMap.bind
      fun _ _ => (Straight.modify _).bind fun _ _ => Straight.done
  · exact (Straight.modify _).bind fun _ _ => Straight.done

theorem rejectIf_of_false {cond : Bool} {rc : Int} (h : cond = false) :
    rejectIf cond rc = pure () := by
  subst h
  rfl

theorem Fails.not_returns {e : Halt} (h : Fails c (fun _ => False) e s) : ¬e.Returns := by
  rintro ⟨rc, rfl⟩
  exact h.1 trivial

theorem wp_dexOfferDestroy {a : Address} {p : PropertyId} (hsome : (s.dexGetOffer a p).isSome) :
    wp (dexOfferDestroy a p) (fun rc s' => rc = 0 ∧ s'.aux = s.aux ∧ s'.dexGetOffer a p = none ∧
      s'.money a p .BALANCE = s.money a p .BALANCE + max (s.money a p .SELLOFFER_RESERVE) 0)
      (Fails .any fun _ => False) s := by
  have herased : ∀ u : State,
      ({ u with myOffers := u.myOffers.erase (sellofferKey a p) } : State).dexGetOffer a p = none := by
    intro u
    simp [dexGetOffer]
  have hmoney : s.getTokenBalance a p .SELLOFFER_RESERVE = s.money a p .SELLOFFER_RESERVE := rfl
  unfold dexOfferDestroy
  rw [wp_bind, wp_get, rejectIf_of_false (by simpa using hsome), hmoney]
  simp only [pure_bind, wp_bind, wp_ite, wp_modify, wp_pure]
  constructor
  · intro hpos
    refine wp_move (by decide) (by decide) (Int.le_of_lt hpos) (fun h => by cases h) False.elim fun _ => ?_
    refine ⟨trivial, rfl, herased _, ?_⟩
    change (s.move p _ a _ a _).money a p .BALANCE = _
    rw [money_move, max_eq_left (Int.le_of_lt hpos)]
    simp
  · intro hempty
    refine ⟨trivial, trivial, herased _, ?_⟩
    change s.money a p .BALANCE = _
    rw [max_eq_right (Int.not_lt.mp hempty), Int.add_zero]

theorem wp_dexOfferCreate (hterms : tx.TermsOk s)
    (hmoney : s'.money tx.sender tx.property .BALANCE = tx.offerable s) (haux : s'.aux = s.aux)
    (hnone : s'.dexGetOffer tx.sender tx.property = none) :
    wp (dexOfferCreate env tx.sender tx.property tx.nValue tx.block (toInt64 tx.amountDesired)
      (toInt64 tx.minFee) tx.blocktimelimit tx.txid) (fun result _ => result.1 = 0)
      (fun e _ => ¬e.Returns) s' := by
  have hbalance : s'.getTokenBalance tx.sender tx.property .BALANCE = tx.offerable s := hmoney
  have hoffered : (if (tx.nValue : Int) > tx.offerable s then tx.offerable s else tx.nValue) > 0 := by
    obtain ⟨hvalue, hsome⟩ := hterms.positive
    split <;> omega
  have hcovered : (s.aux.params.isFeatureActivated FEATURE_DEXMATH tx.block &&
      decide ((tx.nValue : Int) > tx.offerable s)) = false := by
    simpa using hterms.covered
  unfold dexOfferCreate
  rw [rejectIf_of_false (by simpa using hterms.window),
    rejectIf_of_false (by simpa using hterms.desired)]
  simp only [pure_bind]
  rw [wp_bind, wp_get, hbalance, haux, hnone, rejectIf_of_false Option.isSome_none,
    rejectIf_of_false hcovered, pure_bind, pure_bind, if_pos hoffered]
  refine Avoids.bind (P := fun _ => True) straight_assertUpdateTallyMap (fun _ _ => ?_) s'
  exact straight_assertUpdateTallyMap.bind fun _ _ => (Straight.modify _).bind
    fun _ _ => Avoids.pure rfl

theorem atomic_dexOfferCreate {a : Address} {p : PropertyId} {amountOffered block amountDesired
    minAcceptFee : Int} {paymentWindow : Nat} {txid : Hash} :
    Atomic (dexOfferCreate env a p amountOffered block amountDesired minAcceptFee paymentWindow txid
      >>= fun created => pure created.1) s := by
  unfold dexOfferCreate
  simp only [bind_assoc]
  refine .reads reads_rejectIf fun _ _ => .reads reads_rejectIf fun _ _ => .get ?_
  refine .reads reads_rejectIf fun _ _ => .reads reads_rejectIf fun _ _ => ?_
  rw [apply_ite (· >>= fun created : Int × Option Int => (pure created.1 : Op Int))]
  refine Atomic.ite (fun _ => .of_avoids ?_) fun _ => Atomic.pure
  simp only [bind_assoc, pure_bind]
  exact straight_assertUpdateTallyMap.bind fun _ _ => straight_assertUpdateTallyMap.bind
    fun _ _ => (Straight.modify _).bind fun _ _ => Straight.done

theorem atomic_dexOfferUpdate
    (hterms : (s.dexGetOffer tx.sender tx.property).isSome → tx.TermsOk s) :
    Atomic (dexOfferUpdate env tx.sender tx.property tx.nValue tx.block (toInt64 tx.amountDesired)
      (toInt64 tx.minFee) tx.blocktimelimit tx.txid >>= fun updated => pure updated.1) s := by
  unfold dexOfferUpdate
  simp only [bind_assoc]
  refine .get (.reads reads_rejectIf fun _ hnone => ?_)
  have hsome : (s.dexGetOffer tx.sender tx.property).isSome := by simpa using hnone
  refine Atomic.of_wp ?_
  rw [wp_bind]
  refine wp_mono (wp_callRc (wp_mono (wp_dexOfferDestroy hsome) (fun _ _ h => h)
    fun _ _ h => .inr h)) (fun rc s' hdestroyed => ?_) fun _ _ h => h.not_returns
  obtain ⟨rfl, haux, hgone, hmoney⟩ := hdestroyed
  rw [if_pos rfl, wp_bind]
  exact wp_dexOfferCreate (hterms hsome) hmoney haux hgone

/-- **An offer transaction that is rejected leaves nothing behind**, unless it is an update with
terms that are refused. -/
theorem atomic_logicMathTradeOffer (hterms : tx.updatesOffer s = true → tx.TermsOk s) :
    Atomic (logicMathTradeOffer env tx) s := by
  unfold logicMathTradeOffer
  refine .get (.reads reads_rejectIf fun _ _ => .reads reads_rejectIf fun _ _ =>
    .reads reads_rejectIf fun _ _ => ?_)
  refine .ite (fun hv0 => ?_) fun _ => .ite (fun hv1 => ?_) fun _ => Atomic.pure
  · refine .ite (fun hvalue => .ite (fun hexists => ?_) fun _ => atomic_dexOfferCreate) fun _ =>
      .ite (fun _ => atomic_dexOfferDestroy) fun _ => Atomic.pure
    refine atomic_dexOfferUpdate fun hsome => hterms ?_
    simp [CMPTransaction.updatesOffer, hsome, hv0, hvalue]
  · refine .reads reads_rejectIf fun _ _ => .reads reads_rejectIf fun _ _ => ?_
    refine .ite (fun _ => atomic_dexOfferCreate) fun _ => .ite (fun hupdate => ?_) fun _ =>
      .ite (fun _ => atomic_dexOfferDestroy) fun _ => Atomic.pure
    refine atomic_dexOfferUpdate fun hsome => hterms ?_
    simp [CMPTransaction.updatesOffer, hsome, hv1, hupdate]

/-- Developer tokens vest and a tenth of them is offered. -/
def offeredEvents : List Event := [
  .vestDevmsc 1500000000 50000,
  samplePacket 50000 0 "exodus".toList [] (createPayloadDExSell 1 100 100 10 0 1)]

/-- A second transaction about that offer. -/
def offerAgain (window subaction : UInt8) : CMPTransaction where
  txid := 50001000
  block := 50001
  blockTime := 1500000000
  txIdx := 0
  txFeePaid := 0
  blockHash := 50001
  payload := createPayloadDExSell 1 50 100 window 0 subaction
  sender := "exodus".toList
  receiver := []

end HcOmni
