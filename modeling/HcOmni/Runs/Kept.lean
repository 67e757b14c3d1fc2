import HcOmni.Conformance.Parts
import HcOmni.Runs.Invariant

/-!
# Invariants that are kept event by event

The steps of the ledger say enough for balances and supplies, but not which offer an accept belongs
to or who runs a crowdsale.  Here such an invariant is followed through the functions themselves: it
has to hold in every state that is left behind by a normal end or by a failure that the process
survives.  A failed assertion ends the process, so nothing has to hold in the middle of a movement.
-/

namespace HcOmni

open Std MapSum Program CMPTally State

variable {I : State → Prop} {s s' : State} {env : Env} {tx : CMPTransaction} {W : List Part}
  {α β : Type}

/-- If the process survives the failure, the invariant holds. -/
def Survives (I : State → Prop) (e : Halt) (s : State) : Prop := e.Live → I s

/-- Whatever `m` leaves behind satisfies the invariant. -/
abbrev Keeps (I : State → Prop) (m : Op α) (s : State) : Prop := wp m (fun _ => I) (Survives I) s

/-! ### Statements -/

section Statements

variable {Q : α → State → Prop}

theorem rejectIf_false (rc : Int) : rejectIf false rc = pure () := rfl

theorem survives_rejectIf {cond : Bool} {rc : Int} {f : Unit → Op α} (hI : I s)
    (h : cond = false → wp (f ()) Q (Survives I) s) :
    wp (rejectIf cond rc >>= f) Q (Survives I) s := by
  cases cond with
  | false => exact h rfl
  | true => exact fun _ => hI

theorem survives_get {f : State → Op α} (h : wp (f s) Q (Survives I) s) :
    wp (get >>= f) Q (Survives I) s := h

theorem survives_assertThat {Q : Unit → State → Prop} {what : Assertion} {cond : Bool}
    (h : cond = true → Q () s) : wp (assertThat what cond) Q (Survives I) s := by
  cases cond with
  | false => exact False.elim
  | true => exact h rfl

theorem survives_reads {P : α → Prop} {E : Halt → Prop} {Q : β → State → Prop} {m : Op α}
    {f : α → Op β} (hI : I s) (hm : Reads m P E s) (hf : ∀ a, P a → wp (f a) Q (Survives I) s) :
    wp (m >>= f) Q (Survives I) s :=
  hm.wp_bind hf fun _ _ _ => hI

/-- `assert(update_tally_map(...))`: the amount is admitted, and added. -/
theorem survives_update {Q : Unit → State → Prop} {a : Address} {p : PropertyId} {n : Int}
    {t : TallyType} (ht : t ≠ .PENDING)
    (h : Admits (s.money a p t) n → Q () (s.addTally a p n t)) :
    wp (assertUpdateTallyMap a p n t) Q (Survives I) s := by
  unfold assertUpdateTallyMap updateTallyMap
  by_cases hzero : n = 0
  · rw [if_pos hzero]
    exact False.elim
  rw [if_neg hzero]
  simp only [wp_bind, wp_get]
  refine survives_assertThat fun _ => ?_
  change wp (assertThat .tallyUpdated ((s.mpTallyMap.getD a {}).updateMoney p n t).1) Q (Survives I)
    { s with mpTallyMap := s.mpTallyMap.insert a ((s.mpTallyMap.getD a {}).updateMoney p n t).2 }
  refine survives_assertThat fun hok => ?_
  have hadmits := admits_of_updateMoney ht hok
  rw [updateMoney_of_admits hadmits]
  rw [getMoney_getD] at hadmits
  exact h hadmits

theorem survives_move {Q : Unit → State → Prop} {a b : Address} {p : PropertyId} {n : Int}
    {t u : TallyType} (ht : t ≠ .PENDING) (hu : u ≠ .PENDING) (hnonneg : 0 ≤ n)
    (h : s.CanMove p n a t b u → Q () (s.move p n a t b u)) :
    wp (assertUpdateTallyMap a p (-n) t)
      (fun _ s' => wp (assertUpdateTallyMap b p n u) Q (Survives I) s') (Survives I) s := by
  refine survives_update ht fun hdebit => survives_update hu fun hcredit => ?_
  have hne := hdebit.1
  have henough := hdebit.2.1
  exact h ⟨by omega, by omega, hcredit.2.2 (by omega)⟩

theorem survives_callRc {Q : Int → State → Prop} {m : Op Int}
    (h : wp m Q (Survives fun _ => False) s) : wp (callRc m) Q (Survives I) s := by
  refine wp_callRc_of (wp_mono h (fun _ _ hQ => hQ) fun e s' hdies => ?_)
  cases e with
  | ret rc => exact (hdies trivial).elim
  | thrown | abort | crash | hang => exact fun hlive => (hdies hlive).elim

theorem keeps_callRc {m : Op Int} (h : Keeps I m s) : Keeps I (callRc m) s := by
  refine wp_callRc_of (wp_mono h (fun _ _ hI => hI) fun e s' hI => ?_)
  cases e with
  | ret rc => exact hI trivial
  | thrown | abort | crash | hang => exact hI

theorem Keeps.bind {m : Op α} {f : α → Op β} (hm : Keeps I m s) (hf : ∀ a s', I s' → Keeps I (f a) s') :
    Keeps I (m >>= f) s := by
  unfold Keeps
  rw [wp_bind]
  exact wp_mono hm (fun a s' hI => hf a s' hI) fun _ _ h => h

theorem Keeps.forM {ι : Type} (body : ι → Op PUnit) :
    ∀ (items : List ι) (s : State), (∀ i ∈ items, ∀ s', I s' → Keeps I (body i) s') → I s →
      Keeps I (items.forM body) s
  | [], _, _, hI => hI
  | i :: rest, s, hbody, hI => by
    refine Keeps.bind (hbody i List.mem_cons_self s hI) fun _ s' hI' => ?_
    exact Keeps.forM body rest s' (fun j hj => hbody j (List.mem_cons_of_mem i hj)) hI'

/-- None of the given parts is among those that are written. -/
abbrev Apart (W given : List Part) : Prop := ∀ part ∈ given, part ∉ W

theorem apart_ite {cond : Prop} [Decidable cond] {A B given : List Part} (hA : Apart A given)
    (hB : Apart B given) : Apart (if cond then A else B) given := by
  by_cases h : cond
  · rw [if_pos h]
    exact hA
  · rw [if_neg h]
    exact hB

theorem keeps_of_touches {m : Op α} (hm : Touches W m s)
    (h : ∀ s', stateParts.Agree W s s' → I s') : Keeps I m s :=
  wp_mono hm (fun _ s' hagree => h s' hagree) fun _ s' hagree _ => h s' hagree

end Statements

/-! ### Calls that return -/

/-- The call comes back to its caller, with a result or with an error code. -/
def Returns (m : Op α) (s : State) : Prop :=
  wp m (fun _ _ => True) (fun e _ => ∃ rc, e = .ret rc) s

theorem wp_credit_of_canCredit {Q : Unit → State → Prop} {E : Halt → State → Prop} {a : Address}
    {p : PropertyId} {n : Int} (hrange : s.InRange) (hroom : s.CanCredit a p n)
    (h : Q () (s.credit a p n)) : wp (assertCredit a p n) Q E s := by
  unfold assertCredit
  by_cases hpos : n > 0
  · have hnonneg := (hrange a p .BALANCE (by decide)).1
    have hadmits : Admits (s.money a p .BALANCE) n := ⟨by omega, by omega, hroom⟩
    have hupdate : assertUpdateTallyMap a p n .BALANCE s = .ok () (s.addTally a p n .BALANCE) :=
      bind_of_ok (updateTallyMap_of_admits (fun _ hneg => by omega) hadmits)
    rw [if_pos hpos, wp_ok hupdate, ← credit_of_pos hpos]
    exact h
  · rw [if_neg hpos]
    rwa [credit_of_nonpos hpos] at h

theorem wp_move_of_canMove {Q : Unit → State → Prop} {E : Halt → State → Prop} {a b : Address}
    {p : PropertyId} {n : Int} {t u : TallyType}
    (hfree : t = .BALANCE → s.isAddressFrozen a p = false) (hrange : s.InRange)
    (hu : u ≠ .PENDING) (hmove : s.CanMove p n a t b u) (h : Q () (s.move p n a t b u)) :
    wp (assertUpdateTallyMap a p (-n) t)
      (fun _ s' => wp (assertUpdateTallyMap b p n u) Q E s') E s := by
  have hpos := hmove.pos
  have henough := hmove.enough
  have hdebit : Admits (s.money a p t) (-n) := ⟨by omega, by omega, fun _ => by omega⟩
  have hnonneg := ((hrange.debit (Int.le_of_lt hpos) henough) b p u hu).1
  have hcredit : Admits ((s.addTally a p (-n) t).money b p u) n :=
    ⟨by omega, by omega, fun _ => hmove.room⟩
  have hfirst : assertUpdateTallyMap a p (-n) t s = .ok () (s.addTally a p (-n) t) :=
    bind_of_ok (updateTallyMap_of_admits (fun hbalance _ => hfree hbalance) hdebit)
  have hsecond : assertUpdateTallyMap b p n u (s.addTally a p (-n) t) =
      .ok () (s.move p n a t b u) :=
    bind_of_ok (updateTallyMap_of_admits (fun _ hneg => by omega) hcredit)
  rw [wp_ok hfirst, wp_ok hsecond]
  exact h

/-! ### Events -/

theorem Keeps.step {event : Event} (h : Keeps I (event.exec env) s)
    (hstep : step env s event = some s') : I s' := by
  unfold HcOmni.step at hstep
  cases hm : event.exec env s with
  | ok a s'' =>
    rw [hm] at hstep
    cases hstep
    exact (wp_ok hm).mp h
  | error halt s'' =>
    rw [hm] at hstep
    obtain ⟨hlive, hsame⟩ := Option.ite_none_right_eq_some.mp hstep
    cases hsame
    exact (wp_error hm).mp h hlive

theorem keeps_interpretPacket (hI : I s) (hlogic : ∀ parsed, tx.interpretTransaction = some parsed →
      s.isAddressFrozen parsed.sender parsed.property = false → Keeps I (logicMath env parsed) s) :
    Keeps I (interpretPacket env tx) s := by
  unfold interpretPacket
  refine survives_rejectIf hI fun _ => ?_
  cases hparse : tx.interpretTransaction with
  | none => exact fun _ => hI
  | some parsed =>
    refine survives_reads hI reads_decodeAgreement fun _ _ => ?_
    rw [wp_bind, wp_get]
    exact survives_rejectIf hI fun hfree => hlogic parsed hparse hfree

theorem keeps_packet (hI : I s) (hlogic : ∀ parsed, tx.interpretTransaction = some parsed →
      s.isAddressFrozen parsed.sender parsed.property = false → Keeps I (logicMath env parsed) s) :
    Keeps I ((Event.packet tx).exec env) s :=
  Keeps.bind (keeps_interpretPacket hI hlogic) fun _ _ h => h

theorem wp_reads_or_same {α β : Type} {P : α → Prop} {Q : β → State → Prop} {m : Op α} {f : α → Op β}
    (hm : Reads m P (fun _ => True) s) (hf : ∀ a, P a → wp (f a) Q (fun _ s' => s' = s) s) :
    wp (m >>= f) Q (fun _ s' => s' = s) s :=
  hm.wp_bind hf fun _ _ => rfl

theorem wp_rejectIf_or_same {β : Type} {Q : β → State → Prop} {cond : Bool} {rc : Int}
    {f : Unit → Op β} (h : cond = false → wp (f ()) Q (fun _ s' => s' = s) s) :
    wp (rejectIf cond rc >>= f) Q (fun _ s' => s' = s) s := by
  cases cond with
  | false => exact h rfl
  | true => exact rfl

/-- A transaction that is parsed: it fails before anything has changed, or passes the checks and ends
as the logic of its type does. -/
theorem wp_interpretPacket_of {parsed : CMPTransaction} {Q : Int → State → Prop}
    {E : Halt → State → Prop} (hparse : tx.interpretTransaction = some parsed) (hE : ∀ e, E e s)
    (hlogic : tx.rpcOnly = false → s.isAddressFrozen parsed.sender parsed.property = false →
      wp (logicMath env parsed) Q E s) : wp (interpretPacket env tx) Q E s := by
  unfold interpretPacket
  refine Reads.wp_bind reads_rejectIf (fun _ hrpc => ?_) fun e _ => hE e
  rw [hparse]
  refine Reads.wp_bind reads_decodeAgreement (fun _ _ => ?_) fun e _ => hE e
  rw [wp_bind, wp_get]
  exact Reads.wp_bind reads_rejectIf (fun _ hfree => hlogic hrpc hfree) fun e _ => hE e

theorem step_packet (hstep : step env s (.packet tx) = some s') :
    (∃ rc, interpretPacket env tx s = .ok rc s') ∨ ∃ e, interpretPacket env tx s = .error e s' := by
  unfold step Event.exec at hstep
  cases hm : interpretPacket env tx s with
  | ok rc t =>
    simp only [bind_of_ok hm] at hstep
    cases hstep
    exact .inl ⟨rc, rfl⟩
  | error e t =>
    simp only [bind_of_error hm] at hstep
    obtain ⟨-, hsame⟩ := Option.ite_none_right_eq_some.mp hstep
    cases hsame
    exact .inr ⟨e, rfl⟩

/-- What the event touches: for a transaction the parts of its type, for the rest those of the
function. -/
def Event.parts : Event → List Part
  | .packet tx => (tx.interpretTransaction.map fun parsed => partsOfType parsed.type).getD []
  | .payment .. =>
      [.tally .BALANCE, .tally .SELLOFFER_RESERVE, .tally .ACCEPT_RESERVE, .offers, .accepts]
  | .expireAccepts _ =>
      [.tally .BALANCE, .tally .SELLOFFER_RESERVE, .tally .ACCEPT_RESERVE, .accepts]
  | .expireCrowdsales .. => [.tally .BALANCE, .crowds, .properties]
  | .vestDevmsc .. => [.tally .BALANCE, .cache, .thresholds]
  | .pending .. => [.tally .PENDING]

/-- **An event touches only its parts.** -/
theorem touches_exec (event : Event) : Touches event.parts (event.exec env) s := by
  cases event with
  | packet tx =>
    refine .bind (touches_interpretPacket fun parsed hparse => ?_) fun _ _ => .pure
    simp [Event.parts, hparse]
  | payment => exact .bind touches_dexPayment fun _ _ => .pure
  | expireAccepts => exact touches_eraseExpiredAccepts
  | expireCrowdsales => exact touches_eraseExpiredCrowdsale
  | vestDevmsc => exact .bind touches_calculateAndUpdateDevmsc fun _ _ => .pure
  | pending => exact .bind touches_updateTallyMap fun _ _ => .pure

theorem run_agree {events : List Event} (hW : ∀ event ∈ events, event.parts ⊆ W)
    (hrun : run env s events = some s') : stateParts.Agree W s s' := by
  refine foldlM_invariant (I := fun _ u => stateParts.Agree W s u) (.refl s) ?_ hrun
  intro before event after u u' hsplit _ hagree hnext
  have hevent := (keeps_of_touches (touches_exec event) fun _ h => h).step hnext
  exact hagree.trans (hevent.mono (hW event (by simp [hsplit])))

/-- A check of every event of a run against the state it meets. -/
def runAll (env : Env) (check : State → Event → Bool) : State → List Event → Bool
  | _, [] => true
  | s, event :: rest =>
      check s event && match step env s event with
        | none => true
        | some s' => runAll env check s' rest

theorem of_runAll {check : State → Event → Bool} {event : Event} {after : List Event} :
    ∀ {before : List Event} {s t : State}, runAll env check s (before ++ event :: after) = true →
      run env s before = some t → check t event = true
  | [], s, t, hall, hrun => by
    cases hrun
    exact (Bool.and_eq_true_iff.mp hall).1
  | first :: rest, s, t, hall, hrun => by
    obtain ⟨u, hstep, hrest⟩ := Option.bind_eq_some_iff.mp hrun
    have htail := (Bool.and_eq_true_iff.mp hall).2
    rw [hstep] at htail
    exact of_runAll htail hrest

/-- The failure in which a call ends. -/
def haltOf (m : Op α) (s : State) : Option Halt :=
  match m s with
  | .ok _ _ => none
  | .error e _ => some e

/-- The failure in which a call ends, and what `f` says of the state it leaves behind. -/
def haltResult {β : Type} (m : Op α) (f : State → β) (s : State) : Option (Halt × β) :=
  match m s with
  | .ok _ _ => none
  | .error e s' => some (e, f s')

theorem exists_of_haltResult {β : Type} {m : Op α} {f : State → β} {e : Halt} {b : β}
    (h : haltResult m f s = some (e, b)) : ∃ s', m s = .error e s' ∧ f s' = b := by
  unfold haltResult at h
  cases hm : m s with
  | ok a s' => rw [hm] at h; cases h
  | error e' s' =>
    rw [hm] at h
    cases h
    exact ⟨s', rfl, rfl⟩

theorem exists_of_haltOf {m : Op α} {e : Halt} (h : haltOf m s = some e) :
    ∃ s', m s = .error e s' := by
  unfold haltOf at h
  cases hm : m s with
  | ok a s' => rw [hm] at h; cases h
  | error e' s' =>
    rw [hm] at h
    cases h
    exact ⟨s', rfl⟩

/-! ### Along a run -/

section Along

variable {event : Event} {events : List Event} {t : State}

/-- Every event of the run meets the state it is executed in as `P` says. -/
def AtEvents (env : Env) (s : State) (events : List Event) (P : State → Event → Prop) : Prop :=
  ∀ before event after, events = before ++ event :: after →
    ∀ t, run env s before = some t → P t event

/-- Every state of the run, the first and the last included, satisfies `P`. -/
def AtStates (env : Env) (s : State) (events : List Event) (P : State → Prop) : Prop :=
  ∀ before after, events = before ++ after → ∀ t, run env s before = some t → P t

/-- **The run lemma.**  What holds at the start and is kept by every event holds throughout. -/
theorem AtEvents.atStates {P : State → Event → Prop} {I : State → Prop} (h : AtEvents env s events P)
    (hstart : I s) (hstep : ∀ t event t', I t → P t event → step env t event = some t' → I t') :
    AtStates env s events I := by
  intro before after hsplit t hrun
  refine foldlM_invariant (I := fun _ u => I u) hstart ?_ hrun
  intro first event rest u u' hfirst hu hI hnext
  refine hstep u event u' hI (h first event (rest ++ after) ?_ u hu) hnext
  simp [hsplit, hfirst]

theorem AtStates.last {I : State → Prop} (h : AtStates env s events I)
    (hrun : run env s events = some t) : I t :=
  h events [] (List.append_nil events).symm t hrun

theorem AtEvents.of_runAll {check : State → Event → Bool} (h : runAll env check s events = true) :
    AtEvents env s events fun t event => check t event = true := by
  rintro before event after rfl t hrun
  exact HcOmni.of_runAll h hrun

/-- The event is a transaction as `P` says, and it succeeds. -/
def Succeeds (env : Env) (P : CMPTransaction → Prop) (s : State) (event : Event) : Prop :=
  ∃ tx parsed s', event = .packet tx ∧ tx.interpretTransaction = some parsed ∧ P parsed ∧
    interpretPacket env tx s = .ok 0 s'

end Along

end HcOmni
