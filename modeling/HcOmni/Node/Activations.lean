import HcOmni.Node.Deadlines

/-!
# Activations that come due

A feature is activated for a block in the future, and is pending until then.  `CheckLiveActivations`
moves what is due to the completed activations, and stops a client that is too old for a feature.  It is
called by the handler of the block index, which the delivered messages never reach: connecting a block
leaves the activations as they are.
-/

namespace HcOmni

open CMPTransaction Program State

/-! ### Going live -/

/-- What is expected when a block has been connected: nothing that is due is pending, what was pending
and is due is completed, and a client too old for it has been stopped. -/
structure GoesLive (overrideForcedShutdown : Bool) (height : Int) (u v : Aux) : Prop where
  pending : ∀ a ∈ v.vecPendingActivations, height < a.activationBlock
  completed : ∀ a ∈ u.vecPendingActivations, a.activationBlock ≤ height →
    a ∈ v.vecCompletedActivations
  aborted : overrideForcedShutdown = false → ∀ a ∈ u.vecPendingActivations,
    a.activationBlock ≤ height → OMNICORE_VERSION < a.minClientVersion → v.activationAborted = true

/-- One activation of the loop. -/
def Aux.checkLive (overrideForcedShutdown : Bool) (height : Int) (aux : Aux)
    (live : FeatureActivation) : Aux :=
  if live.activationBlock > height then aux
  else
    { aux.pendingActivationCompleted live with
      activationAborted := aux.activationAborted ||
        (decide (OMNICORE_VERSION < live.minClientVersion) && !overrideForcedShutdown) }

/-! ### Connecting a block -/

section Order

variable {nenv : NodeEnv} {n n' u v : Node} {height : Int}

theorem activations_deliver_block {b : BlockMessage} (htxs : ∀ h, n.localTxInfo.getTxInfo h = [])
    (hdeliver : deliver nenv n (.block b) = some n') :
    n'.core.aux.vecPendingActivations = n.core.aux.vecPendingActivations ∧
      n'.core.aux.vecCompletedActivations = n.core.aux.vecCompletedActivations := by
  let same (s : State) : Prop :=
    s.aux.vecPendingActivations = n.core.aux.vecPendingActivations ∧
      s.aux.vecCompletedActivations = n.core.aux.vecCompletedActivations
  have hrespects : Respects nenv same (fun _ => False) := by
    refine .of_parts [.activations] (by decide) (fun s s' hagree hI => ?_)
      fun _ _ _ hnever => hnever.elim
    obtain ⟨hpending, hcompleted⟩ := Prod.mk.inj (hagree .activations (by decide))
    exact ⟨hpending.trans hI.1, hcompleted.trans hI.2⟩
  have hstart : NodeKept same (fun _ => False) n := by
    refine ⟨⟨rfl, rfl⟩, fun h m hm => ?_⟩
    rw [htxs] at hm
    cases hm
  exact (hstart.deliver hrespects (fun m hm => by cases hm) hdeliver).core

/-- **When activations go live.**  Messages arrive in the order of the blocks.  What is expected of a
block is so exactly if nothing that was pending before is due. -/
theorem activations_live_iff {messages before after : List Message} {b : BlockMessage}
    {overrideForcedShutdown : Bool} (hdue : n.Due height) (horder : InHeightOrder height messages)
    (hsplit : messages = before ++ .block b :: after)
    (hbefore : deliverAll nenv n before = some u) (hconnect : deliver nenv u (.block b) = some v) :
    GoesLive overrideForcedShutdown b.height u.core.aux v.core.aux ↔
      ∀ a ∈ u.core.aux.vecPendingActivations, b.height < a.activationBlock := by
  subst hsplit
  obtain ⟨height', hu, -⟩ := hdue.deliverAll horder hbefore
  obtain ⟨hpending, -⟩ := activations_deliver_block hu.txs hconnect
  constructor
  · intro hlive a ha
    rw [← hpending] at ha
    exact hlive.pending a ha
  · intro hlater
    constructor
    · rw [hpending]
      exact hlater
    · intro a ha hle
      exact absurd (hlater a ha) (Int.not_lt.mpr hle)
    · intro _ a ha hle
      exact absurd (hlater a ha) (Int.not_lt.mpr hle)

end Order

/-! ### An activation that never goes live -/

/-- Everyone may activate features, on the test network. -/
def activatingNodeEnv : NodeEnv :=
  ⟨{ fundedEnv with checkActivationAuthorization := fun _ => true }, sampleFileEnv,
    testNetConsensusParams⟩

def testNode : Node := { core := State.empty activatingNodeEnv.env testNetConsensusParams }

/-- A feature is activated from the given block on, for a client version that is far ahead. -/
def activationScheduled (activationBlock : UInt32) : List Message := [
  .block (timedBlock 50000),
  .tx (packetMessage 50001 0 1500000600 "authority".toList []
    (createPayloadActivateFeature 3 activationBlock 4000000000)),
  .block (timedBlock 50001)]

theorem due_testNode : testNode.Due 50000 := by
  refine ⟨by decide, .inr (by decide), fun h => ?_, fun h => ?_⟩
  · simp [testNode, CLocalBlockInfo.getBlockInfo]
  · simp [testNode, CLocalTxInfo.getTxInfo]

/-- The activation is for a later block. -/
theorem activations_live_iff_later : ∃ u v,
    deliverAll activatingNodeEnv testNode (activationScheduled 50003) = some u ∧
    deliver activatingNodeEnv u (.block (timedBlock 50002)) = some v ∧
    u.core.aux.vecPendingActivations = [⟨3, 50003, 4000000000⟩] ∧
    GoesLive false 50002 u.core.aux v.core.aux := by
  have hvalues : (deliverAll activatingNodeEnv testNode (activationScheduled 50003)).map (fun u =>
      (u.core.aux.vecPendingActivations,
        (deliver activatingNodeEnv u (.block (timedBlock 50002))).isSome)) =
      some ([⟨3, 50003, 4000000000⟩], true) := by decide +kernel
  obtain ⟨u, hbefore, hu⟩ := Option.map_eq_some_iff.mp hvalues
  obtain ⟨hpending, hsome⟩ := Prod.mk.inj hu
  obtain ⟨v, hconnect⟩ := Option.isSome_iff_exists.mp hsome
  refine ⟨u, v, hbefore, hconnect, hpending, ?_⟩
  have horder : InHeightOrder 50000 (activationScheduled 50003 ++ [.block (timedBlock 50002)]) := by
    decide
  refine (activations_live_iff due_testNode horder rfl hbefore hconnect).mpr ?_
  rw [hpending]
  decide

/-- **An activation does not go live.**  The feature is activated from the third block on, for clients
of a later version.  When that block has been connected the activation is still pending, it is not
completed, the client has not been stopped, and a transaction of the next block is processed. -/
theorem exists_activation_pending :
    InHeightOrder 50000 (activationScheduled 50002 ++ [.block (timedBlock 50002),
      .tx latePurchase]) ∧ OMNICORE_VERSION < 4000000000 ∧
    ∃ u v w, deliverAll activatingNodeEnv testNode (activationScheduled 50002) = some u ∧
      deliver activatingNodeEnv u (.block (timedBlock 50002)) = some v ∧
      v.core.aux.vecPendingActivations = [⟨3, 50002, 4000000000⟩] ∧
      v.core.aux.vecCompletedActivations = [] ∧ v.core.aux.activationAborted = false ∧
      deliver activatingNodeEnv v (.tx latePurchase) = some w ∧
      v.core.money "issuer".toList 1 .BALANCE = 0 ∧
      w.core.money "issuer".toList 1 .BALANCE = 100000000 := by
  refine ⟨by decide, by decide, ?_⟩
  have hvalues : (deliverAll activatingNodeEnv testNode (activationScheduled 50002)).map (fun u =>
      (deliver activatingNodeEnv u (.block (timedBlock 50002))).map fun v =>
        ((v.core.aux.vecPendingActivations, v.core.aux.vecCompletedActivations,
          v.core.aux.activationAborted), v.core.money "issuer".toList 1 .BALANCE,
          (deliver activatingNodeEnv v (.tx latePurchase)).map fun w =>
            w.core.money "issuer".toList 1 .BALANCE)) =
      some (some (([⟨3, 50002, 4000000000⟩], [], false), 0, some 100000000)) := by decide +kernel
  obtain ⟨u, hbefore, hu⟩ := Option.map_eq_some_iff.mp hvalues
  obtain ⟨v, hconnect, hv⟩ := Option.map_eq_some_iff.mp hu
  simp only [Prod.mk.injEq, Option.map_eq_some_iff] at hv
  obtain ⟨⟨hpending, hcompleted, haborted⟩, hmoney, w, hdeliver, hpaid⟩ := hv
  exact ⟨u, v, w, hbefore, hconnect, hpending, hcompleted, haborted, hdeliver, hmoney, hpaid⟩

end HcOmni
