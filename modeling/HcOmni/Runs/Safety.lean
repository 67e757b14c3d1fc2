import HcOmni.Runs.Exhaustion

/-!
# Assertions that do not fail

The assertions about token movements, along whole runs: a frozen balance is never debited, and
under the conditions of a strict run every update of a tally goes through.
-/

namespace HcOmni

open Std MapSum Program CMPTally State

variable {env : Env} {s s₀ : State} {event : Event} {events before after : List Event}

/-! ### Frozen balances -/

/-- **Frozen balances do not decrease.**  Whatever a run has led to and whatever comes next, the
assertion of `update_tally_map` that a debited address is not frozen does not fail, and a balance
that is frozen beforehand is at least as high afterwards. -/
theorem run_frozen_safe (hstart : Genesis s₀) (hrun : run env s₀ events = some s) (event : Event) :
    (∀ halt t, event.exec env s = .error halt t → halt ≠ .abort .notFrozen) ∧
      ∀ t, step env s event = some t → ∀ a p, s.isAddressFrozen a p = true →
        s.money a p .BALANCE ≤ t.money a p .BALANCE := by
  have hsuits : RunSuits .any env s₀ (events ++ [event]) := runSuits_any
  obtain ⟨block, txid, hsound, hnext⟩ := hsuits.next hstart rfl hrun
  constructor
  · rintro halt t hexec rfl
    exact not_bad_of_exec hsound hnext hexec trivial
  · exact fun t hstep a p => (step_outcome hsound hnext hstep).frozen_balance_le

/-- A holder of granted tokens is frozen. -/
def frozenEvents : List Event := [
  samplePacket 50000 0 "issuer".toList []
    (createPayloadIssuanceManaged 1 1 0 [] [] "managed".toList [] []),
  samplePacket 50000 1 "issuer".toList "HolderAddressWithThirtyFiveLetters1".toList
    (createPayloadGrant 3 50 []),
  samplePacket 50001 0 "issuer".toList [] (createPayloadEnableFreezing 3),
  samplePacket 50002 0 "issuer".toList []
    (createPayloadFreezeTokens 3 0 "HolderAddressWithThirtyFiveLetters1".toList)]

/-- The frozen holder tries to send the tokens on. -/
def frozenSend : Event :=
  samplePacket 50003 0 "HolderAddressWithThirtyFiveLetters1".toList "other".toList
    (createPayloadSimpleSend 3 20)

theorem run_frozen_safe_send :
    ∃ s t, run sampleEnv (State.empty sampleEnv mainConsensusParams) frozenEvents = some s ∧
      s.isAddressFrozen "HolderAddressWithThirtyFiveLetters1".toList 3 = true ∧
      s.money "HolderAddressWithThirtyFiveLetters1".toList 3 .BALANCE = 50 ∧
      step sampleEnv s frozenSend = some t ∧
      50 ≤ t.money "HolderAddressWithThirtyFiveLetters1".toList 3 .BALANCE := by
  obtain ⟨s, hrun⟩ := Option.isSome_iff_exists.mp (by decide +kernel :
    (run sampleEnv (State.empty sampleEnv mainConsensusParams) frozenEvents).isSome = true)
  have hvalues : (run sampleEnv (State.empty sampleEnv mainConsensusParams) frozenEvents).map
      (fun s => (s.isAddressFrozen "HolderAddressWithThirtyFiveLetters1".toList 3,
        s.money "HolderAddressWithThirtyFiveLetters1".toList 3 .BALANCE,
        (step sampleEnv s frozenSend).isSome)) = some (true, 50, true) := by decide +kernel
  simp only [hrun, Option.map_some, Option.some.injEq, Prod.mk.injEq] at hvalues
  obtain ⟨hfrozen, hmoney, hsome⟩ := hvalues
  obtain ⟨t, hstep⟩ := Option.isSome_iff_exists.mp hsome
  have hsafe := run_frozen_safe (genesis_empty _ _) hrun frozenSend
  have hle := hsafe.2 t hstep _ 3 hfrozen
  rw [hmoney] at hle
  exact ⟨s, t, hrun, hfrozen, hmoney, hstep, hle⟩

/-! ### Strict runs -/

/-- Everything is promised. -/
def Ctx.strict : Ctx where
  block := 0
  txid := 0
  Addr := CleanAddress
  Place _ _ := True
  Tracked := True
  Fits := True
  Vests := True
  Strict := True
  tracked_of_strict := id
  fits_of_strict := id
  clean_of_strict _ _ := id

/-- What a run keeps to at each of its events: no trading fees and no send to owners but of
version 0, payments that buy what `int64_t` holds, and an identifier of the main ecosystem that
is still free. -/
structure StrictRun (env : Env) (s : State) (events : List Event) : Prop where
  txids : (events.filterMap Event.txid?).Nodup
  clean : ∀ tx, Event.packet tx ∈ events → CleanAddress tx.sender ∧ CleanAddress tx.receiver
  feeless : ∀ before event after t, events = before ++ event :: after →
    run env s before = some t → event.Feeless t
  fits : ∀ before event after t, events = before ++ event :: after →
    run env s before = some t → event.PurchaseFits env t
  space : ∀ before event after t, events = before ++ event :: after →
    run env s before = some t → t.mySps.nextSpid < TEST_ECO_PROPERTY_1

theorem StrictRun.suits (h : StrictRun env s events) : RunSuits .strict env s events where
  txids _ := h.txids
  heights _ hloose := absurd trivial hloose
  addr := h.clean
  place _ _ := trivial
  vests _ _ _ := trivial
  fits _ := h.fits
  feeless _ := h.feeless
  space _ := h.space

/-- A fixed property, and a send of some of its tokens. -/
def sentEvents : List Event := [
  samplePacket 50000 0 "issuer".toList []
    (createPayloadIssuanceFixed 1 1 0 [] [] "token".toList [] [] 100),
  samplePacket 50000 1 "issuer".toList "holder".toList (createPayloadSimpleSend 3 30)]

theorem eq_of_prefix_issuances {n : Nat} (h : issuances n = before ++ event :: after) :
    before = [] ∨ ∃ k, k < n ∧ before = issuances k := by
  cases before with
  | nil => exact .inl rfl
  | cons first before =>
    rw [issuances, List.cons_append] at h
    obtain ⟨rfl, hrest⟩ := List.cons.inj h
    have hlength := congrArg List.length hrest
    rw [List.length_map, List.length_range, List.length_append, List.length_cons] at hlength
    refine .inr ⟨before.length, by omega, ?_⟩
    have htake := congrArg (List.take before.length) hrest
    rw [List.take_left, ← List.map_take, List.take_range, Nat.min_eq_left (by omega)] at htake
    rw [issuances, htake]

theorem mem_issuances {n : Nat} (h : event ∈ issuances n) :
    ∃ ecosystem idx, (ecosystem = 1 ∨ ecosystem = 2) ∧
      event = issuance ecosystem "issuer".toList idx := by
  rcases List.mem_cons.mp h with rfl | hmem
  · exact ⟨2, 0, .inr rfl, rfl⟩
  · obtain ⟨i, -, rfl⟩ := List.mem_map.mp hmem
    exact ⟨1, i + 1, .inl rfl, rfl⟩

end HcOmni
