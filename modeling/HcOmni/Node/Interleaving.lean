import HcOmni.Node.Snapshots

/-!
# The writing thread is not seen

The calls and the writing thread work on the same node.  No call reads the directory or the queue, and
the thread changes nothing else; so whenever the thread takes its turns, the calls end as they would
without it.
-/

namespace HcOmni

open Std Program

variable {nenv : NodeEnv} {α : Type}

/-- The node as the calls see it, without the directory and the queue. -/
def Node.view (n : Node) : Node := { n with files := ∅, notifications := [] }

/-! ### What the calls see -/

theorem ignores_view_of_part {m : NodeOp α} {part : Node → Node → Node}
    (h : ∀ n₁, Ignores (part n₁) m) (hself : ∀ n, part n n = n)
    (hview : ∀ n n', (part n n').view = part n.view n') : Ignores Node.view m := by
  intro n
  have hstart : m n.view = mapState (part n.view) (m n) := by
    rw [← h n.view n, ← hview, hself]
  have hframe := (h n).frame (hself n)
  unfold wp at hframe
  rw [hstart]
  cases hm : m n with
  | ok a n' =>
    rw [hm] at hframe
    exact congrArg (EStateM.Result.ok a) (by rw [← hview, hframe])
  | error e n' =>
    rw [hm] at hframe
    exact congrArg (EStateM.Result.error e) (by rw [← hview, hframe])

theorem ignores_view_answered {m : NodeOp Unit} (h : Ignores Node.view m) :
    Ignores Node.view (answered m) := by
  intro n
  unfold answered
  rw [h n]
  cases m n with
  | ok _ n' => rfl
  | error halt n' =>
    by_cases hlive : halt.Live
    · simp [mapState, hlive]
    · simp [mapState, hlive]

theorem ignores_view_connectBlock (message : BlockMessage) :
    Ignores Node.view (connectBlock nenv message) := by
  unfold connectBlock
  refine Ignores.bind (Ignores.modify fun _ => rfl) fun _ => ?_
  refine Ignores.bind (ignores_engine (fun _ => rfl) fun _ _ => rfl) fun _ => ?_
  refine Ignores.bind (ignores_engine (fun _ => rfl) fun _ _ => rfl) fun _ => ?_
  exact Ignores.modify fun _ => rfl

/-- The turns there are: the parts of the calls, and those of the writing thread. -/
inductive Action.OfCode (nenv : NodeEnv) : Action → Prop where
  | tx (message : TxMessage) : OfCode nenv (.rpc (.tx nenv message))
  | payment (message : PaymentMessage) : OfCode nenv (.rpc (.payment nenv message))
  | setWatermark (hash : Hash) : OfCode nenv (.rpc (.setWatermark hash))
  | connect (message : BlockMessage) : OfCode nenv (.connect message)
  | put (message : BlockMessage) : OfCode nenv (.put message)
  | work : OfCode nenv .work

theorem ignores_view_part {part : RpcPart} (h : (Action.rpc part).OfCode nenv) :
    Ignores Node.view part.run := by
  cases h with
  | tx message =>
    refine ignores_view_answered (Ignores.bind ?_ fun _ => Ignores.pure ())
    exact ignores_view_of_part (fun _ => ignores_processTransaction message) (fun _ => rfl)
      fun _ _ => rfl
  | payment message =>
    exact ignores_view_answered (ignores_view_of_part (fun _ => ignores_omniProcesspayment message)
      (fun _ => rfl) fun _ _ => rfl)
  | setWatermark => exact Ignores.modify fun _ => rfl

/-- A turn that is not the writing thread's. -/
def Action.isCall : Action → Bool
  | .work => false
  | _ => true

/-! ### Turns -/

namespace System

variable {sys u : System}

/-- What the calls see of the system, and what was noted about the blocks they connected. -/
def seen (sys : System) : Node × List (CDataNotify × State) := (sys.node.view, sys.snapshots)

theorem seen_work (fenv : FileEnv) (sys : System) : (sys.work fenv).seen = sys.seen := by
  unfold work
  split
  · split <;> rfl
  · split <;> rfl
  · rfl
  · rfl
  · unfold Node.pruneHash
    split
    · rfl
    · split <;> rfl
  · rfl

theorem seen_call {m : NodeOp Unit} (hm : Ignores Node.view m) (h : sys.seen = u.seen) :
    (sys.call m).map seen = (u.call m).map seen := by
  obtain ⟨hview, hnoted⟩ := Prod.mk.inj h
  have hsame : mapState Node.view (m sys.node) = mapState Node.view (m u.node) := by
    rw [← hm, ← hm, hview]
  unfold call
  cases hsys : m sys.node with
  | ok _ n =>
    cases hu : m u.node with
    | ok _ n' =>
      rw [hsys, hu] at hsame
      exact congrArg some (Prod.ext (EStateM.Result.ok.inj hsame).2 hnoted)
    | error e n' => rw [hsys, hu] at hsame; cases hsame
  | error e n =>
    cases hu : m u.node with
    | ok _ n' => rw [hsys, hu] at hsame; cases hsame
    | error e' n' => rfl

theorem seen_act {action : Action} (hcode : action.OfCode nenv) (hcall : action.isCall = true)
    (h : sys.seen = u.seen) : (sys.act nenv action).map seen = (u.act nenv action).map seen := by
  cases action with
  | rpc part => exact seen_call (ignores_view_part hcode) h
  | connect message => exact seen_call (ignores_view_connectBlock message) h
  | put message =>
    obtain ⟨hview, hnoted⟩ := Prod.mk.inj h
    have hcore : sys.node.view.core = u.node.view.core := by rw [hview]
    refine congrArg some (Prod.ext hview ?_)
    change sys.snapshots ++ [(_, sys.node.view.core)] = u.snapshots ++ [(_, u.node.view.core)]
    rw [hnoted, hcore]
  | work => cases hcall

theorem seen_actAll {actions : List Action} (hcode : ∀ action ∈ actions, action.OfCode nenv)
    (h : sys.seen = u.seen) :
    (sys.actAll nenv actions).map seen =
      (u.actAll nenv (actions.filter Action.isCall)).map seen := by
  induction actions generalizing sys u with
  | nil => exact congrArg some h
  | cons action actions ih =>
    obtain ⟨hfirst, hrest⟩ := List.forall_mem_cons.mp hcode
    unfold actAll at ih ⊢
    cases hcall : action.isCall with
    | false =>
      -- the thread's turn: nothing is seen of it, and the other run does not have it
      cases action with
      | work =>
        rw [List.filter_cons_of_neg (by simp [Action.isCall])]
        exact ih hrest ((seen_work nenv.fenv sys).trans h)
      | rpc | connect | put => cases hcall
    | true =>
      have hact := seen_act hfirst hcall h
      rw [List.filter_cons_of_pos hcall, List.foldlM_cons, List.foldlM_cons]
      generalize sys.act nenv action = next, u.act nenv action = next' at hact ⊢
      cases next with
      | none => cases next' with
        | none => rfl
        | some => cases hact
      | some => cases next' with
        | none => cases hact
        | some => exact ih hrest (Option.some.inj hact)

end System

end HcOmni
