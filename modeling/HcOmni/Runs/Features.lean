import Mathlib
import HcOmni.Lib.Numeral
import HcOmni.Runs.Kept

/-!
# How long a feature stays deactivated

`DeactivateFeature` moves the height of the feature to 999999, a height like any other.  No event but
a successful activation of the feature moves it away from there, so what `IsFeatureActivated` and
`ActivateFeature` answer later depends on the block they are asked about alone.
-/

namespace HcOmni

open Program State Text

variable {s s' u : State} {env : Env} {tx parsed : CMPTransaction} {event : Event}
  {events : List Event} {aux aux' : Aux} {params : ConsensusParams} {featureId other : Nat}
  {block : Int}

/-! ### The heights -/

/-- The features the switches of `rules.cpp` know. -/
def knownFeatures : List Nat := [FEATURE_CLASS_C, FEATURE_METADEX, FEATURE_BETTING,
  FEATURE_GRANTEFFECTS, FEATURE_DEXMATH, FEATURE_SENDALL, FEATURE_SPCROWDCROSSOVER,
  FEATURE_TRADEALLPAIRS, FEATURE_FEES, FEATURE_STOV1, FEATURE_FREEZENOTICE]

namespace ConsensusParams

theorem isSome_featureBlock_iff : (params.featureBlock featureId).isSome ↔ featureId ∈ knownFeatures := by
  unfold featureBlock
  split_ifs with h₁ h₂ h₃ h₄ h₅ h₆ h₇ h₈ h₉ h₁₀ h₁₁ <;> simp [knownFeatures, *]

theorem setFeatureBlock_of_unknown (h : featureId ∉ knownFeatures) :
    params.setFeatureBlock featureId block = params := by
  simp only [knownFeatures, List.mem_cons, List.not_mem_nil, or_false, not_or] at h
  obtain ⟨h₁, h₂, h₃, h₄, h₅, h₆, h₇, h₈, h₉, h₁₀, h₁₁⟩ := h
  unfold setFeatureBlock
  rw [if_neg h₁, if_neg h₂, if_neg h₃, if_neg h₄, if_neg h₅, if_neg h₆, if_neg h₇, if_neg h₈,
    if_neg h₉, if_neg h₁₀, if_neg h₁₁]

theorem featureBlock_setFeatureBlock_of_ne (hne : featureId ≠ other) :
    (params.setFeatureBlock other block).featureBlock featureId = params.featureBlock featureId := by
  by_cases hknown : other ∈ knownFeatures
  · unfold featureBlock
    simp only [knownFeatures, List.mem_cons, List.not_mem_nil, or_false] at hknown
    rcases hknown with rfl | rfl | rfl | rfl | rfl | rfl | rfl | rfl | rfl | rfl | rfl <;>
      (rw [if_neg hne, if_neg hne]; rfl)
  · rw [setFeatureBlock_of_unknown hknown]

theorem featureBlock_setFeatureBlock_self (hknown : featureId ∈ knownFeatures) :
    (params.setFeatureBlock featureId block).featureBlock featureId = some block := by
  simp only [knownFeatures, List.mem_cons, List.not_mem_nil, or_false] at hknown
  rcases hknown with rfl | rfl | rfl | rfl | rfl | rfl | rfl | rfl | rfl | rfl | rfl <;> rfl

theorem window_setFeatureBlock :
    (params.setFeatureBlock featureId block).minActivationBlocks = params.minActivationBlocks ∧
      (params.setFeatureBlock featureId block).maxActivationBlocks = params.maxActivationBlocks := by
  by_cases hknown : featureId ∈ knownFeatures
  · simp only [knownFeatures, List.mem_cons, List.not_mem_nil, or_false] at hknown
    rcases hknown with rfl | rfl | rfl | rfl | rfl | rfl | rfl | rfl | rfl | rfl | rfl <;>
      exact ⟨rfl, rfl⟩
  · rw [setFeatureBlock_of_unknown hknown]
    exact ⟨rfl, rfl⟩

end ConsensusParams

/-! ### Between the activations -/

/-- The feature has the height of deactivated features, and the window of notice is the given one. -/
structure Deactivated (params : ConsensusParams) (featureId : Nat) (s : State) : Prop where
  height : s.aux.params.featureBlock featureId = some 999999
  window : s.aux.params.minActivationBlocks = params.minActivationBlocks ∧
    s.aux.params.maxActivationBlocks = params.maxActivationBlocks

theorem known_of_deactivateFeature {t : Int} (h : aux.deactivateFeature featureId t = some aux') :
    featureId ∈ knownFeatures ∧ aux'.params = aux.params.setFeatureBlock featureId 999999 := by
  obtain ⟨hlive, haux⟩ := Option.ite_none_right_eq_some.mp h
  cases haux
  have hsome : (aux.params.featureBlock featureId).isSome := by
    unfold ConsensusParams.isFeatureActivated at hlive
    cases hheight : aux.params.featureBlock featureId with
    | none => rw [hheight] at hlive; cases hlive
    | some height => rfl
  exact ⟨ConsensusParams.isSome_featureBlock_iff.mp hsome, rfl⟩

/-- After `DeactivateFeature`. -/
theorem Deactivated.of_deactivateFeature {t : Int}
    (h : aux.deactivateFeature featureId t = some aux') (hparams : s.aux.params = aux'.params) :
    Deactivated aux.params featureId s := by
  obtain ⟨hknown, hset⟩ := known_of_deactivateFeature h
  rw [hset] at hparams
  refine ⟨?_, ?_⟩
  · rw [hparams]
    exact ConsensusParams.featureBlock_setFeatureBlock_self hknown
  · rw [hparams]
    exact ConsensusParams.window_setFeatureBlock

namespace Deactivated

theorem congr (h : Deactivated params featureId s) (hparams : s'.aux.params = s.aux.params) :
    Deactivated params featureId s' :=
  ⟨by rw [hparams]; exact h.height, by rw [hparams]; exact h.window⟩

theorem of_agree {W : List Part} (h : Deactivated params featureId s)
    (hagree : stateParts.Agree W s s') (hW : Part.params ∉ W) : Deactivated params featureId s' :=
  h.congr (hagree .params hW)

theorem set_other (h : Deactivated params featureId s) (hne : featureId ≠ other)
    (hset : s'.aux.params = s.aux.params.setFeatureBlock other block) :
    Deactivated params featureId s' := by
  refine ⟨?_, ?_⟩
  · rw [hset, ConsensusParams.featureBlock_setFeatureBlock_of_ne hne]
    exact h.height
  · rw [hset, ConsensusParams.window_setFeatureBlock.1, ConsensusParams.window_setFeatureBlock.2]
    exact h.window

theorem deactivate {t : Int} (h : Deactivated params featureId s)
    (hoff : s.aux.deactivateFeature other t = some aux') :
    Deactivated params featureId { s with aux := aux' } := by
  obtain ⟨hknown, hset⟩ := known_of_deactivateFeature hoff
  by_cases hsame : featureId = other
  · refine ⟨?_, ?_⟩
    · rw [hset, hsame]
      exact ConsensusParams.featureBlock_setFeatureBlock_self hknown
    · rw [hset, ConsensusParams.window_setFeatureBlock.1, ConsensusParams.window_setFeatureBlock.2]
      exact h.window
  · exact h.set_other hsame hset

theorem keeps_logicMathDeactivation (h : Deactivated params featureId s) :
    Keeps (Deactivated params featureId) (logicMathDeactivation env tx) s := by
  unfold logicMathDeactivation
  refine survives_get (survives_rejectIf h fun _ => survives_rejectIf h fun _ => ?_)
  cases hoff : s.aux.deactivateFeature tx.featureId tx.block with
  | none => exact fun _ => h
  | some aux =>
    -- what is left is the shutdown of the exchange, which does not touch the parameters
    have hset : Deactivated params featureId { s with aux := aux } := h.deactivate hoff
    rw [wp_bind, wp_set]
    exact keeps_of_touches touches_shutdown fun s' hagree => hset.of_agree hagree (by decide)

end Deactivated

theorem logicMath_of_deactivation (htype : tx.type = OMNICORE_MESSAGE_TYPE_DEACTIVATION) :
    logicMath env tx = logicMathDeactivation env tx := by
  unfold logicMath
  simp only [htype]
  rfl

theorem params_activateFeature {version : Nat} {t : Int}
    (h : aux.activateFeature featureId block version t = some aux') :
    aux'.params = aux.params.setFeatureBlock featureId block := by
  unfold Aux.activateFeature at h
  rw [Option.ite_none_left_eq_some, Option.ite_none_left_eq_some] at h
  obtain ⟨-, -, haux⟩ := h
  cases haux
  split_ifs
  · rfl
  · exact params_addAlert _ _

theorem wp_logicMathActivation :
    wp (logicMathActivation env tx)
      (fun rc s' => rc = 0 ∧ s'.aux.params =
        s.aux.params.setFeatureBlock tx.featureId (toInt32 tx.activationBlock))
      (fun _ s' => s' = s) s := by
  unfold logicMathActivation
  rw [wp_bind, wp_get]
  refine wp_rejectIf_or_same fun _ => wp_rejectIf_or_same fun _ => ?_
  cases hon : s.aux.activateFeature tx.featureId (toInt32 tx.activationBlock) tx.minClientVersion
      tx.block with
  | none => exact rfl
  | some aux => exact ⟨rfl, params_activateFeature hon⟩

theorem wp_interpretPacket_activation (hparse : tx.interpretTransaction = some parsed)
    (htype : parsed.type = OMNICORE_MESSAGE_TYPE_ACTIVATION) :
    wp (interpretPacket env tx)
      (fun rc s' => rc = 0 ∧ s'.aux.params =
        s.aux.params.setFeatureBlock parsed.featureId (toInt32 parsed.activationBlock))
      (fun _ s' => s' = s) s := by
  have hlogic : logicMath env parsed = logicMathActivation env parsed := by
    unfold logicMath
    simp only [htype]
    rfl
  refine wp_interpretPacket_of hparse (fun _ => rfl) fun _ _ => ?_
  rw [hlogic]
  exact wp_logicMathActivation

/-- A successful activation of the feature. -/
abbrev Reactivates (env : Env) (featureId : Nat) (s : State) (event : Event) : Prop :=
  Succeeds env
    (fun parsed => parsed.type = OMNICORE_MESSAGE_TYPE_ACTIVATION ∧ parsed.featureId = featureId) s event

theorem apart_params {type : Nat} (hoff : type ≠ OMNICORE_MESSAGE_TYPE_DEACTIVATION)
    (hon : type ≠ OMNICORE_MESSAGE_TYPE_ACTIVATION) : Apart (partsOfType type) [.params] := by
  unfold partsOfType
  rw [if_neg hoff, if_neg hon]
  repeat refine apart_ite (by decide) ?_
  decide

/-- **One event.**  Only a successful activation of the feature moves its height. -/
theorem Deactivated.step (h : Deactivated params featureId s)
    (hnot : ¬Reactivates env featureId s event) (hstep : step env s event = some s') :
    Deactivated params featureId s' := by
  by_cases hparts : Part.params ∈ event.parts
  · cases event with
    | packet tx =>
      cases hparse : tx.interpretTransaction with
      | none => simp [Event.parts, hparse] at hparts
      | some parsed =>
        by_cases hoff : parsed.type = OMNICORE_MESSAGE_TYPE_DEACTIVATION
        · refine (keeps_packet h fun parsed' hparse' _ => ?_).step hstep
          rw [hparse] at hparse'
          cases hparse'
          rw [logicMath_of_deactivation hoff]
          exact h.keeps_logicMathDeactivation
        · by_cases hon : parsed.type = OMNICORE_MESSAGE_TYPE_ACTIVATION
          · rcases step_packet hstep with ⟨rc, hok⟩ | ⟨e, herror⟩
            · obtain ⟨rfl, hset⟩ := (wp_ok hok).mp (wp_interpretPacket_activation hparse hon)
              have hne : featureId ≠ parsed.featureId := fun hsame =>
                hnot ⟨tx, parsed, s', rfl, hparse, ⟨hon, hsame.symm⟩, hok⟩
              exact h.set_other hne hset
            · have hsame := (wp_error herror).mp (wp_interpretPacket_activation hparse hon)
              rw [hsame]
              exact h
          · simp only [Event.parts, hparse, Option.map_some, Option.getD_some] at hparts
            exact absurd hparts (apart_params hoff hon _ List.mem_cons_self)
    | payment | expireAccepts | expireCrowdsales | vestDevmsc | pending =>
      simp [Event.parts] at hparts
  · have hagree := (keeps_of_touches (touches_exec event) fun _ h => h).step hstep
    exact h.of_agree hagree hparts

/-! ### What the height decides -/

/-- The feature could be activated again by a transaction of the given block: some activation block
and some client version are accepted. -/
def CanReactivate (aux : Aux) (featureId : Nat) (b : Int) : Prop :=
  ∃ activationBlock version, FitsInt 32 activationBlock ∧
    (aux.activateFeature featureId activationBlock version b).isSome

theorem Deactivated.isFeatureActivated_iff (h : Deactivated params featureId s) (b : Int) :
    s.aux.params.isFeatureActivated featureId b = false ↔ b < 999999 := by
  unfold ConsensusParams.isFeatureActivated
  rw [h.height, decide_eq_false_iff_not, not_le]

theorem Deactivated.canReactivate_iff (h : Deactivated params featureId s) (b : Int) :
    CanReactivate s.aux featureId b ↔ b < 999999 ∧
      params.minActivationBlocks ≤ params.maxActivationBlocks ∧
      b + params.minActivationBlocks < 2 ^ 31 ∧ -2 ^ 31 ≤ b + params.maxActivationBlocks := by
  have hlive := h.isFeatureActivated_iff b
  obtain ⟨hmin, hmax⟩ := h.window
  constructor
  · rintro ⟨activationBlock, version, hfits, hsome⟩
    obtain ⟨aux', haux⟩ := Option.isSome_iff_exists.mp hsome
    unfold Aux.activateFeature at haux
    rw [Option.ite_none_left_eq_some, Option.ite_none_left_eq_some] at haux
    obtain ⟨hwindow, hoff, -⟩ := haux
    rw [Bool.not_eq_true] at hoff
    rw [hmin, hmax] at hwindow
    obtain ⟨hlow, hhigh⟩ := hfits
    exact ⟨hlive.mp hoff, by omega, by omega, by omega⟩
  · rintro ⟨hb, hle, hlow, hhigh⟩
    -- the first block of the window that an int holds
    refine ⟨max (b + params.minActivationBlocks) (-2 ^ 31), 0, ⟨by omega, by omega⟩, ?_⟩
    unfold Aux.activateFeature
    rw [if_neg (by rw [hmin, hmax]; omega), if_neg (by rw [hlive.mpr hb]; decide)]
    rfl

/-- **Deactivation lasts until block 999999.**  The feature was deactivated by a transaction of some
block, and no activation of it has succeeded since.  Then it is not activated at block `b`, and
could be activated again by a transaction of block `b`, exactly if `b` is below the height of
deactivated features and the window of notice is not empty. -/
theorem deactivation_lasts_iff {t b : Int} (hoff : aux.deactivateFeature featureId t = some aux')
    (hparams : s.aux.params = aux'.params)
    (hnot : AtEvents env s events fun w event => ¬Reactivates env featureId w event)
    (hrun : run env s events = some u) :
    u.aux.params.isFeatureActivated featureId b = false ∧ CanReactivate u.aux featureId b ↔
      b < 999999 ∧ aux.params.minActivationBlocks ≤ aux.params.maxActivationBlocks ∧
        b + aux.params.minActivationBlocks < 2 ^ 31 ∧
        -2 ^ 31 ≤ b + aux.params.maxActivationBlocks := by
  have hstart : Deactivated aux.params featureId s := .of_deactivateFeature hoff hparams
  have hkept : AtStates env s events (Deactivated aux.params featureId) :=
    hnot.atStates hstart fun w event w' hw hother hstep => hw.step hother hstep
  have hu : Deactivated aux.params featureId u := hkept.last hrun
  rw [hu.isFeatureActivated_iff, hu.canReactivate_iff]
  constructor
  · exact fun h => h.2
  · exact fun h => ⟨h.1, h⟩

/-- Both kinds of announcements are accepted from everyone. -/
def openEnv : Env :=
  { sampleEnv with
    checkActivationAuthorization := fun _ => true
    checkDeactivationAuthorization := fun _ => true }

/-- The parameters after class C was deactivated in block 400000. -/
def classCOff : State :=
  let s := State.empty openEnv mainConsensusParams
  { s with aux := (s.aux.deactivateFeature FEATURE_CLASS_C 400000).getD s.aux }

/-- Another feature is activated afterwards. -/
def feesActivated : List Event := [
  samplePacket 400001 0 "authority".toList [] (createPayloadActivateFeature 9 403000 0)]

/-- The event names another feature, if any. -/
def namesOther (featureId : Nat) (_ : State) : Event → Bool
  | .packet tx => (tx.interpretTransaction.map fun parsed => parsed.featureId != featureId).getD true
  | _ => true

theorem deactivation_lasts_iff_fees :
    (run openEnv classCOff feesActivated).map (fun u => u.aux.params.feesFeatureBlock) =
        some 403000 ∧
      ∃ u, run openEnv classCOff feesActivated = some u ∧
        u.aux.params.isFeatureActivated FEATURE_CLASS_C 500000 = false ∧
        CanReactivate u.aux FEATURE_CLASS_C 500000 := by
  have hfees : (run openEnv classCOff feesActivated).map (fun u => u.aux.params.feesFeatureBlock) =
      some 403000 := by decide +kernel
  obtain ⟨u, hrun, -⟩ := Option.map_eq_some_iff.mp hfees
  have hother : runAll openEnv (namesOther FEATURE_CLASS_C) classCOff feesActivated = true := by
    decide +kernel
  have hnot : AtEvents openEnv classCOff feesActivated
      fun w event => ¬Reactivates openEnv FEATURE_CLASS_C w event := by
    rintro before event after hsplit w hw ⟨tx, parsed, s', rfl, hparse, ⟨-, hfeature⟩, -⟩
    have hcheck := AtEvents.of_runAll hother before _ after hsplit w hw
    simp [namesOther, hparse, hfeature] at hcheck
  have hoff : (State.empty openEnv mainConsensusParams).aux.deactivateFeature FEATURE_CLASS_C 400000 =
      some classCOff.aux := rfl
  exact ⟨hfees, u, hrun, (deactivation_lasts_iff hoff rfl hnot hrun).mpr (by decide)⟩

/-- **A deactivated feature comes back.**  Class C is deactivated in block 400000.  At block 999999 it
is activated again, without an activation, and no activation is accepted there. -/
theorem exists_feature_back :
    ∃ aux', (State.empty openEnv mainConsensusParams).aux.deactivateFeature FEATURE_CLASS_C 400000 =
        some aux' ∧
      aux'.params.isFeatureActivated FEATURE_CLASS_C 999998 = false ∧
      aux'.params.isFeatureActivated FEATURE_CLASS_C 999999 = true ∧
      ∀ activationBlock version,
        aux'.activateFeature FEATURE_CLASS_C activationBlock version 999999 = none := by
  refine ⟨_, rfl, by decide, by decide, fun activationBlock version => ?_⟩
  unfold Aux.activateFeature
  rw [if_pos (by decide : ConsensusParams.isFeatureActivated _ FEATURE_CLASS_C 999999 = true), ite_self]

end HcOmni
