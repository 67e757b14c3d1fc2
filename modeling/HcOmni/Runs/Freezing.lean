import Mathlib
import HcOmni.Runs.Kept

/-!
# How long freezing is enabled

The enabled properties are stored with the block from which freezing is live.  `EnableFreezing` asks
whether freezing is live already, not whether a block is stored, and `DisableFreezing` erases one
block.  So a second notice, sent while the first one is pending, stays behind.  Every event is
described by what it does to the two sets; that no property has two blocks, and that a property
stays thawed, then follow for whole runs.
-/

namespace HcOmni

open Program State

variable {s s' t : State} {env : Env} {tx parsed : CMPTransaction} {event : Event}
  {events : List Event} {p : PropertyId}

/-! ### The two sets -/

/-- No property is stored with two blocks: at most one enabling is pending or live. -/
def State.OneNotice (s : State) : Prop :=
  ∀ p live live', (p, live) ∈ s.setFreezingEnabledProperties →
    (p, live') ∈ s.setFreezingEnabledProperties → live = live'

/-- Freezing is enabled at no block, and no address is frozen. -/
def State.Thawed (s : State) (p : PropertyId) : Prop :=
  (∀ block, s.isFreezingEnabled p block = false) ∧ ∀ a, s.isAddressFrozen a p = false

/-- The block `EnableFreezing` stores. -/
def State.noticeBlock (s : State) (block : Int) : Int :=
  if s.aux.params.isFeatureActivated FEATURE_FREEZENOTICE block then
    s.aux.params.omniFreezeWaitPeriod + block
  else
    block

theorem thawed_iff : s.Thawed p ↔ (∀ live, (p, live) ∉ s.setFreezingEnabledProperties) ∧
    ∀ a, (a, p) ∉ s.setFrozenAddresses := by
  constructor
  · rintro ⟨hblocks, haddresses⟩
    refine ⟨fun live hlive => ?_, fun a ha => ?_⟩
    · have hoff := hblocks live
      simp only [isFreezingEnabled, decide_eq_false_iff_not] at hoff
      exact hoff ⟨(p, live), hlive, rfl, le_rfl⟩
    · exact of_decide_eq_false (haddresses a) ha
  · rintro ⟨hblocks, haddresses⟩
    refine ⟨fun block => decide_eq_false ?_, fun a => decide_eq_false (haddresses a)⟩
    rintro ⟨⟨q, live⟩, hlive, rfl, -⟩
    exact hblocks live hlive

theorem State.Thawed.not_enabled (h : s.Thawed p) {block : Int}
    (hon : s.isFreezingEnabled p block = true) : False := by
  rw [h.1 block] at hon
  cases hon

/-- The block `disableFreezing` finds is at least every block that is stored. -/
theorem le_freezingLiveBlock {live : Int} (h : (p, live) ∈ s.setFreezingEnabledProperties) :
    live ≤ s.freezingLiveBlock p :=
  (Finset.le_fold_max _).mpr (.inr ⟨(p, live), Finset.mem_filter.mpr ⟨h, rfl⟩, le_rfl⟩)

theorem freezingLiveBlock_mem (h : 0 < s.freezingLiveBlock p) :
    (p, s.freezingLiveBlock p) ∈ s.setFreezingEnabledProperties := by
  rcases (Finset.le_fold_max _).mp (le_refl (s.freezingLiveBlock p)) with hzero | ⟨⟨q, live⟩, hmem, hle⟩
  · exact absurd h (not_lt_of_ge hzero)
  · obtain ⟨hstored, hq⟩ := Finset.mem_filter.mp hmem
    obtain rfl : q = p := hq
    have hlive : s.freezingLiveBlock q = live := le_antisymm hle (le_freezingLiveBlock hstored)
    rwa [hlive]

/-- A successful `EnableFreezing` for the property. -/
abbrev Enabled (env : Env) (p : PropertyId) (s : State) (event : Event) : Prop :=
  Succeeds env (fun parsed => parsed.type = MSC_TYPE_ENABLE_FREEZING ∧ parsed.property = p) s event

/-! ### What an event does to them -/

/-- What the transactions about freezing check first: the property is managed, and they come from its
issuer. -/
structure FromIssuer (s : State) (tx : CMPTransaction) : Prop where
  allowed : typeNotAllowed s tx tx.property = false
  valid : s.isPropertyIdValid tx.property = true
  managed : ∃ sp, s.mySps.getSP tx.property = some sp ∧ sp.manual = true ∧ tx.sender = sp.issuer

theorem reads_fromIssuer {E : Halt → Prop} (hE : ∀ e, E e) :
    Reads (checkManagedIssuer tx) (fun _ => FromIssuer s tx) E s := by
  have hreject : ∀ {cond : Bool} {rc : Int}, Reads (rejectIf cond rc) (fun _ => cond = false) E s :=
    reads_rejectIf.mono_error fun e _ => hE e
  refine .get (.bind hreject fun _ hallowed => .bind hreject fun _ hvalid =>
    .bind (reads_assertGetSP.mono_error fun e _ => hE e) fun sp hget =>
      .bind hreject fun _ hmanual => hreject.mono fun _ hissuer => ?_)
  exact ⟨hallowed, by simpa using hvalid, sp, hget, by simpa using hmanual, by simpa using hissuer⟩

theorem FromIssuer.wp_check {Q : Unit → State → Prop} {E : Halt → State → Prop} (h : FromIssuer s tx)
    (hQ : Q () s) : wp (checkManagedIssuer tx) Q E s := by
  obtain ⟨sp, hget, hmanual, hissuer⟩ := h.managed
  unfold checkManagedIssuer assertGetSP
  simp only [wp_bind, wp_get, h.allowed, h.valid, hget, hmanual, hissuer, rejectIf, Bool.not_true,
    bne_self_eq_false, Bool.false_eq_true, if_false, wp_pure]
  exact hQ

/-- The changes of the two sets, each with the checks that were passed before it. -/
inductive Refreezes (s : State) (tx : CMPTransaction) : State → Prop
  | enable (htype : tx.type = MSC_TYPE_ENABLE_FREEZING) (hissuer : FromIssuer s tx)
      (hoff : s.isFreezingEnabled tx.property tx.block = false) :
      Refreezes s tx { s with
        setFreezingEnabledProperties :=
          insert (tx.property, s.noticeBlock tx.block) s.setFreezingEnabledProperties }
  | disable (htype : tx.type = MSC_TYPE_DISABLE_FREEZING)
      (hlive : 0 < s.freezingLiveBlock tx.property) :
      Refreezes s tx { s with
        setFreezingEnabledProperties :=
          s.setFreezingEnabledProperties.erase (tx.property, s.freezingLiveBlock tx.property)
        setFrozenAddresses := s.setFrozenAddresses.filter (fun item => item.2 ≠ tx.property) }
  | freeze (htype : tx.type = MSC_TYPE_FREEZE_PROPERTY_TOKENS)
      (hon : s.isFreezingEnabled tx.property tx.block = true) :
      Refreezes s tx { s with
        setFrozenAddresses := insert (tx.receiver, tx.property) s.setFrozenAddresses }
  | unfreeze (htype : tx.type = MSC_TYPE_UNFREEZE_PROPERTY_TOKENS)
      (hon : s.isFreezingEnabled tx.property tx.block = true) :
      Refreezes s tx { s with
        setFrozenAddresses := s.setFrozenAddresses.erase (tx.receiver, tx.property) }

/-- The outcome of a transaction about freezing. -/
abbrev RefreezesOrFails (tx : CMPTransaction) (m : Op Int) (s : State) : Prop :=
  wp m (fun rc s' => rc = 0 ∧ Refreezes s tx s') (fun _ s' => s' = s) s

theorem refreezes_enable (htype : tx.type = MSC_TYPE_ENABLE_FREEZING) :
    RefreezesOrFails tx (logicMathEnableFreezing tx) s := by
  refine wp_reads_or_same (reads_fromIssuer fun _ => trivial) fun _ hissuer => ?_
  rw [wp_bind, wp_get]
  exact wp_rejectIf_or_same fun hoff => ⟨rfl, .enable htype hissuer hoff⟩

theorem refreezes_disable (htype : tx.type = MSC_TYPE_DISABLE_FREEZING) :
    RefreezesOrFails tx (logicMathDisableFreezing tx) s := by
  refine wp_reads_or_same (reads_fromIssuer fun _ => trivial) fun _ _ => ?_
  rw [wp_bind, wp_get]
  refine wp_rejectIf_or_same fun _ => ?_
  rw [wp_bind]
  by_cases hlive : 0 < s.freezingLiveBlock tx.property
  · rw [decide_eq_true hlive]
    exact ⟨rfl, .disable htype hlive⟩
  · rw [decide_eq_false hlive]
    exact rfl

theorem refreezes_freeze (htype : tx.type = MSC_TYPE_FREEZE_PROPERTY_TOKENS) :
    RefreezesOrFails tx (logicMathFreezeTokens tx) s := by
  refine wp_reads_or_same (reads_fromIssuer fun _ => trivial) fun _ _ => ?_
  rw [wp_bind, wp_get]
  refine wp_rejectIf_or_same fun hon => wp_rejectIf_or_same fun _ => ⟨rfl, .freeze htype ?_⟩
  simpa using hon

theorem refreezes_unfreeze (htype : tx.type = MSC_TYPE_UNFREEZE_PROPERTY_TOKENS) :
    RefreezesOrFails tx (logicMathUnfreezeTokens tx) s := by
  refine wp_reads_or_same (reads_fromIssuer fun _ => trivial) fun _ _ => ?_
  rw [wp_bind, wp_get]
  refine wp_rejectIf_or_same fun hon => wp_rejectIf_or_same fun _ => ⟨rfl, .unfreeze htype ?_⟩
  simpa using hon

theorem logicMath_of_enable (htype : tx.type = MSC_TYPE_ENABLE_FREEZING) :
    logicMath env tx = logicMathEnableFreezing tx := by
  unfold logicMath
  simp only [htype]
  rfl

/-- The types whose transactions change the two sets. -/
def freezingTypes : List Nat := [MSC_TYPE_ENABLE_FREEZING, MSC_TYPE_DISABLE_FREEZING,
  MSC_TYPE_FREEZE_PROPERTY_TOKENS, MSC_TYPE_UNFREEZE_PROPERTY_TOKENS]

theorem refreezes_logicMath (htype : tx.type ∈ freezingTypes) :
    RefreezesOrFails tx (logicMath env tx) s := by
  simp only [freezingTypes, List.mem_cons, List.not_mem_nil, or_false] at htype
  rcases htype with htype | htype | htype | htype
  · rw [logicMath_of_enable htype]
    exact refreezes_enable htype
  · have hlogic : logicMath env tx = logicMathDisableFreezing tx := by
      unfold logicMath
      simp only [htype]
      rfl
    rw [hlogic]
    exact refreezes_disable htype
  · have hlogic : logicMath env tx = logicMathFreezeTokens tx := by
      unfold logicMath
      simp only [htype]
      rfl
    rw [hlogic]
    exact refreezes_freeze htype
  · have hlogic : logicMath env tx = logicMathUnfreezeTokens tx := by
      unfold logicMath
      simp only [htype]
      rfl
    rw [hlogic]
    exact refreezes_unfreeze htype

theorem refreezes_interpretPacket (hparse : tx.interpretTransaction = some parsed)
    (htype : parsed.type ∈ freezingTypes) :
    RefreezesOrFails parsed (interpretPacket env tx) s :=
  wp_interpretPacket_of hparse (fun _ => rfl) fun _ _ => refreezes_logicMath htype

theorem apart_freezing {type : Nat} (h : type ∉ freezingTypes) :
    Apart (partsOfType type) [.freezing] := by
  simp only [freezingTypes, List.mem_cons, List.not_mem_nil, or_false] at h
  unfold partsOfType
  rw [if_neg h]
  repeat refine apart_ite (by decide) ?_
  decide

/-- **One event.**  It leaves both sets alone, or it is a successful transaction about freezing. -/
theorem refreezes_of_step (hstep : step env s event = some s') :
    (s'.setFreezingEnabledProperties = s.setFreezingEnabledProperties ∧
      s'.setFrozenAddresses = s.setFrozenAddresses) ∨
    ∃ tx parsed, event = .packet tx ∧ tx.interpretTransaction = some parsed ∧
      interpretPacket env tx s = .ok 0 s' ∧ Refreezes s parsed s' := by
  by_cases hparts : Part.freezing ∈ event.parts
  · cases event with
    | packet tx =>
      cases hparse : tx.interpretTransaction with
      | none => simp [Event.parts, hparse] at hparts
      | some parsed =>
        have htype : parsed.type ∈ freezingTypes := by
          by_contra hother
          simp only [Event.parts, hparse, Option.map_some, Option.getD_some] at hparts
          exact apart_freezing hother _ List.mem_cons_self hparts
        have hpacket : RefreezesOrFails parsed (interpretPacket env tx) s :=
          refreezes_interpretPacket hparse htype
        rcases step_packet hstep with ⟨rc, hok⟩ | ⟨e, herror⟩
        · obtain ⟨rfl, hchange⟩ := (wp_ok hok).mp hpacket
          exact .inr ⟨tx, parsed, rfl, hparse, hok, hchange⟩
        · have hsame := (wp_error herror).mp hpacket
          exact .inl ⟨by rw [hsame], by rw [hsame]⟩
    | payment | expireAccepts | expireCrowdsales | vestDevmsc | pending =>
      simp [Event.parts] at hparts
  · have hagree := (keeps_of_touches (touches_exec event) fun _ h => h).step hstep
    have hsets := hagree .freezing hparts
    exact .inl ⟨congrArg Prod.fst hsets, congrArg Prod.snd hsets⟩

/-! ### Thawed properties -/

/-- **Until the next enabling.**  Only a successful `EnableFreezing` ends it that a property is
thawed: addresses cannot be frozen while nothing is stored for the property. -/
theorem State.Thawed.step (h : s.Thawed p) (hnot : ¬Enabled env p s event)
    (hstep : step env s event = some s') : s'.Thawed p := by
  obtain ⟨hblocks, haddresses⟩ := thawed_iff.mp h
  rcases refreezes_of_step hstep with ⟨henabled, hfrozen⟩ | ⟨tx, parsed, rfl, hparse, hok, hchange⟩
  · rw [thawed_iff, henabled, hfrozen]
    exact ⟨hblocks, haddresses⟩
  · rw [thawed_iff]
    cases hchange with
    | enable htype hissuer hoff =>
      have hother : parsed.property ≠ p := fun hp =>
        hnot ⟨tx, parsed, _, rfl, hparse, ⟨htype, hp⟩, hok⟩
      refine ⟨fun live hlive => ?_, haddresses⟩
      rcases Finset.mem_insert.mp hlive with hnew | hold
      · exact hother (congrArg Prod.fst hnew).symm
      · exact hblocks live hold
    | disable htype hlive =>
      exact ⟨fun live hlive => hblocks live (Finset.mem_of_mem_erase hlive),
        fun a ha => haddresses a (Finset.mem_of_mem_filter _ ha)⟩
    | freeze htype hon =>
      refine ⟨hblocks, fun a ha => ?_⟩
      rcases Finset.mem_insert.mp ha with hnew | hold
      · -- the property of the transaction is thawed, so its check would have failed
        obtain rfl : p = parsed.property := congrArg Prod.snd hnew
        exact h.not_enabled hon
      · exact haddresses a hold
    | unfreeze htype hon =>
      exact ⟨hblocks, fun a ha => haddresses a (Finset.mem_of_mem_erase ha)⟩

/-- **What `DisableFreezing` leaves.**  It thaws the property exactly if only one block was stored. -/
theorem thawed_disable_iff :
    ({ s with
        setFreezingEnabledProperties :=
          s.setFreezingEnabledProperties.erase (p, s.freezingLiveBlock p)
        setFrozenAddresses := s.setFrozenAddresses.filter (fun item => item.2 ≠ p) } : State).Thawed p ↔
      ∀ live, (p, live) ∈ s.setFreezingEnabledProperties → live = s.freezingLiveBlock p := by
  rw [thawed_iff]
  constructor
  · rintro ⟨hblocks, -⟩ live hstored
    by_contra hne
    exact hblocks live (Finset.mem_erase.mpr ⟨fun heq => hne (congrArg Prod.snd heq), hstored⟩)
  · intro hone
    refine ⟨fun live hleft => ?_, fun a ha => ?_⟩
    · obtain ⟨hne, hstored⟩ := Finset.mem_erase.mp hleft
      exact hne (by rw [hone live hstored])
    · exact (Finset.mem_filter.mp ha).2 rfl

/-! ### One notice at a time -/

/-- The event is an `EnableFreezing` by the issuer that comes while freezing is not live, and another
block is stored already. -/
def Overlaps (s : State) (event : Event) : Prop :=
  ∃ tx parsed, event = .packet tx ∧ tx.rpcOnly = false ∧ tx.interpretTransaction = some parsed ∧
    parsed.type = MSC_TYPE_ENABLE_FREEZING ∧
    s.isAddressFrozen parsed.sender parsed.property = false ∧ FromIssuer s parsed ∧
    s.isFreezingEnabled parsed.property parsed.block = false ∧
    ∃ live, (parsed.property, live) ∈ s.setFreezingEnabledProperties ∧
      live ≠ s.noticeBlock parsed.block

theorem wp_enable {Q : Int → State → Prop} {E : Halt → State → Prop} (hissuer : FromIssuer s tx)
    (hoff : s.isFreezingEnabled tx.property tx.block = false)
    (hQ : Q 0 { s with
      setFreezingEnabledProperties :=
        insert (tx.property, s.noticeBlock tx.block) s.setFreezingEnabledProperties }) :
    wp (logicMathEnableFreezing tx) Q E s := by
  unfold logicMathEnableFreezing
  rw [wp_bind]
  refine hissuer.wp_check ?_
  rw [wp_bind, wp_get, hoff]
  exact hQ

/-- **The two notices.**  Such an event succeeds, and the property then has two blocks. -/
theorem Overlaps.step (h : Overlaps s event) :
    ∃ s', HcOmni.step env s event = some s' ∧ ¬s'.OneNotice := by
  obtain ⟨tx, parsed, rfl, hrpc, hparse, htype, hfree, hissuer, hoff, live, hstored, hne⟩ := h
  have hpacket : wp ((Event.packet tx).exec env) (fun _ s' => ¬s'.OneNotice)
      (fun e s' => e.Live ∧ ¬s'.OneNotice) s := by
    unfold Event.exec
    rw [wp_bind]
    refine wp_interpretPacket hrpc hparse (by rw [htype]; decide) hfree ?_
    rw [logicMath_of_enable htype]
    refine wp_enable hissuer hoff fun hone => hne ?_
    exact hone _ _ _ (Finset.mem_insert_of_mem hstored) (Finset.mem_insert_self _ _)
  exact exists_step_of_live hpacket

theorem passed_of_ok {rc : Int} (hparse : tx.interpretTransaction = some parsed)
    (hok : interpretPacket env tx s = .ok rc s') :
    tx.rpcOnly = false ∧ s.isAddressFrozen parsed.sender parsed.property = false := by
  have hpassed : wp (interpretPacket env tx) (fun _ _ => tx.rpcOnly = false ∧
      s.isAddressFrozen parsed.sender parsed.property = false) (fun _ _ => True) s :=
    wp_interpretPacket_of hparse (fun _ => trivial) fun hrpc hfree =>
      wp_of_forall (fun _ _ => ⟨hrpc, hfree⟩) fun _ _ => trivial
  exact (wp_ok hok).mp hpassed

/-- **One event.**  Without overlap there is no second block. -/
theorem State.OneNotice.step (h : s.OneNotice) (hnot : ¬Overlaps s event)
    (hstep : step env s event = some s') : s'.OneNotice := by
  rcases refreezes_of_step hstep with ⟨henabled, -⟩ | ⟨tx, parsed, rfl, hparse, hok, hchange⟩
  · unfold OneNotice
    rw [henabled]
    exact h
  · cases hchange with
    | enable htype hissuer hoff =>
      obtain ⟨hrpc, hfree⟩ := passed_of_ok hparse hok
      have hnew : ∀ live, (parsed.property, live) ∈ s.setFreezingEnabledProperties →
          live = s.noticeBlock parsed.block := fun live hstored => by
        by_contra hne
        exact hnot ⟨tx, parsed, rfl, hrpc, hparse, htype, hfree, hissuer, hoff, live, hstored, hne⟩
      intro p live live' hlive hlive'
      rcases Finset.mem_insert.mp hlive with heq | hold <;>
        rcases Finset.mem_insert.mp hlive' with heq' | hold'
      · exact (congrArg Prod.snd heq).trans (congrArg Prod.snd heq').symm
      · cases heq
        exact (hnew live' hold').symm
      · cases heq'
        exact hnew live hold
      · exact h p live live' hold hold'
    | disable htype hlive =>
      exact fun p live live' hlive hlive' =>
        h p live live' (Finset.mem_of_mem_erase hlive) (Finset.mem_of_mem_erase hlive')
    | freeze htype hon => exact h
    | unfreeze htype hon => exact h

/-- With one block a successful `DisableFreezing` thaws the property. -/
theorem State.OneNotice.thawed (h : s.OneNotice) (hparse : tx.interpretTransaction = some parsed)
    (htype : parsed.type = MSC_TYPE_DISABLE_FREEZING)
    (hok : interpretPacket env tx s = .ok 0 s') : s'.Thawed parsed.property := by
  have hmem : parsed.type ∈ freezingTypes := by
    rw [htype]
    decide
  obtain ⟨-, hchange⟩ := (wp_ok hok).mp (refreezes_interpretPacket hparse hmem)
  cases hchange with
  | disable _ hlive =>
    exact thawed_disable_iff.mpr fun live hstored =>
      h _ _ _ hstored (freezingLiveBlock_mem hlive)
  | enable hother | freeze hother | unfreeze hother =>
    rw [htype] at hother
    cases hother

/-! ### Whole runs -/

/-- After every successful `DisableFreezing` of the run the property is thawed, until the next
successful `EnableFreezing`. -/
def DisablingComplete (env : Env) (s : State) (events : List Event) : Prop :=
  ∀ before tx middle after, events = before ++ .packet tx :: (middle ++ after) →
    ∀ parsed t t' u, run env s before = some t → tx.interpretTransaction = some parsed →
      parsed.type = MSC_TYPE_DISABLE_FREEZING → interpretPacket env tx t = .ok 0 t' →
      run env t' middle = some u →
      AtEvents env t' middle (fun w event => ¬Enabled env parsed.property w event) →
      u.Thawed parsed.property

/-- **Disabling is complete if notices do not overlap.**  For all parameters and every run that starts
without enabled properties: no property is ever stored with two blocks, and every successful
`DisableFreezing` thaws its property until the next successful `EnableFreezing`, exactly if no
issuer enables freezing again while another block is stored that is not live. -/
theorem disablingComplete_iff (hnone : s.setFreezingEnabledProperties = ∅) :
    AtStates env s events OneNotice ∧ DisablingComplete env s events ↔
      AtEvents env s events fun t event => ¬Overlaps t event := by
  constructor
  · rintro ⟨hone, -⟩ before event after hsplit t hrun hoverlaps
    obtain ⟨t', hstep, htwo⟩ := hoverlaps.step
    refine htwo (hone (before ++ [event]) after (by simp [hsplit]) t' ?_)
    rw [run_concat, hrun]
    exact hstep
  · intro hapart
    have hstart : s.OneNotice := fun p live live' hlive _ => by
      rw [hnone] at hlive
      exact absurd hlive (Finset.notMem_empty _)
    have hone : AtStates env s events OneNotice :=
      hapart.atStates hstart fun t event t' ht hnot hstep => ht.step hnot hstep
    refine ⟨hone, ?_⟩
    intro before tx middle after hsplit parsed t t' u hrun hparse htype hok hmiddle hnot
    have ht : t.OneNotice := hone before _ hsplit t hrun
    have hthawed := ht.thawed hparse htype hok
    have hkept : AtStates env t' middle fun w => w.Thawed parsed.property :=
      hnot.atStates hthawed fun w event w' hw hother hstep => hw.step hother hstep
    exact hkept.last hmiddle

/-- The parameters of the test chain, with the notice from block 100 on: freezing is live ten blocks
after it was enabled. -/
def noticeParams : ConsensusParams :=
  { regTestConsensusParams with freezenoticeFeatureBlock := 100 }

/-- The issuer of a managed property enables freezing, freezes an address and disables freezing. -/
def noticeEvents : List Event := [
  samplePacket 100 0 "issuer".toList []
    (createPayloadIssuanceManaged 1 1 0 [] [] "managed".toList [] []),
  samplePacket 101 0 "issuer".toList [] (createPayloadEnableFreezing 3),
  samplePacket 112 0 "issuer".toList [] (createPayloadFreezeTokens 3 0 "holder".toList),
  samplePacket 113 0 "issuer".toList [] (createPayloadDisableFreezing 3)]

/-- Freezing is enabled only while nothing is stored. -/
def enablesAlone (s : State) : Event → Bool
  | .packet tx =>
      decide (s.setFreezingEnabledProperties = ∅) ||
        (tx.interpretTransaction.map fun parsed => parsed.type != MSC_TYPE_ENABLE_FREEZING).getD true
  | _ => true

theorem not_overlaps_of_alone (h : enablesAlone s event = true) : ¬Overlaps s event := by
  rintro ⟨tx, parsed, rfl, -, hparse, htype, -, -, -, live, hstored, -⟩
  simp only [enablesAlone, hparse, htype, Option.map_some, Option.getD_some, bne_self_eq_false,
    Bool.or_false, decide_eq_true_eq] at h
  rw [h] at hstored
  exact absurd hstored (Finset.notMem_empty _)

theorem disablingComplete_iff_once :
    (run sampleEnv (State.empty sampleEnv noticeParams) noticeEvents).map
        (fun s => (s.isFreezingEnabled 3 1000, s.setFrozenAddresses)) = some (false, ∅) ∧
      AtStates sampleEnv (State.empty sampleEnv noticeParams) noticeEvents OneNotice ∧
      DisablingComplete sampleEnv (State.empty sampleEnv noticeParams) noticeEvents := by
  have hcheck : runAll sampleEnv enablesAlone (State.empty sampleEnv noticeParams) noticeEvents =
      true := by decide +kernel
  have hapart : AtEvents sampleEnv (State.empty sampleEnv noticeParams) noticeEvents
      fun t event => ¬Overlaps t event := fun before event after hsplit t hrun =>
    not_overlaps_of_alone (AtEvents.of_runAll hcheck before event after hsplit t hrun)
  exact ⟨by decide +kernel, (disablingComplete_iff rfl).mpr hapart⟩

/-- The issuer enables freezing twice, the second time while the first notice is pending. -/
def twoNoticesEvents : List Event := [
  samplePacket 100 0 "issuer".toList []
    (createPayloadIssuanceManaged 1 1 0 [] [] "managed".toList [] []),
  samplePacket 101 0 "issuer".toList [] (createPayloadEnableFreezing 3),
  samplePacket 102 0 "issuer".toList [] (createPayloadEnableFreezing 3)]

/-- The issuer disables freezing once both notices are live. -/
def disableTx : CMPTransaction where
  txid := 113000
  block := 113
  blockTime := 1500000000
  txIdx := 0
  txFeePaid := 0
  blockHash := 113
  payload := createPayloadDisableFreezing 3
  sender := "issuer".toList
  receiver := []

/-- **A notice stays behind.**  Two enablings are pending at once, and after a successful
`DisableFreezing` freezing is still enabled. -/
theorem exists_notice_left :
    ∃ s s', run sampleEnv (State.empty sampleEnv noticeParams) twoNoticesEvents = some s ∧
      s.setFreezingEnabledProperties = {(3, 111), (3, 112)} ∧
      s.isFreezingEnabled 3 102 = false ∧
      interpretPacket sampleEnv disableTx s = .ok 0 s' ∧ s'.isFreezingEnabled 3 113 = true := by
  have hvalues : (run sampleEnv (State.empty sampleEnv noticeParams) twoNoticesEvents).map
      (fun s => (s.setFreezingEnabledProperties, s.isFreezingEnabled 3 102,
        okResult (interpretPacket sampleEnv disableTx) (fun s' => s'.isFreezingEnabled 3 113) s)) =
      some ({(3, 111), (3, 112)}, false, some (0, true)) := by decide +kernel
  obtain ⟨s, hrun, hs⟩ := Option.map_eq_some_iff.mp hvalues
  simp only [Prod.mk.injEq] at hs
  obtain ⟨hpairs, hpending, hdisabled⟩ := hs
  obtain ⟨s', hok, hleft⟩ := exists_of_okResult hdisabled
  exact ⟨s, s', hrun, hpairs, hpending, hok, hleft⟩

end HcOmni
