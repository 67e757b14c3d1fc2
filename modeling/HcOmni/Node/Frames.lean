import HcOmni.Node.Rpc

/-!
# What the calls of the node touch

Interpreting a transaction, applying a payment and connecting a block each work on a part of the
node.  For each of them the part is named by a function that puts it into other surroundings; that
the call works on nothing else is that it does not matter when this is done.
-/

namespace HcOmni

open Std Program

variable {n n' n₁ : Node} {nenv : NodeEnv}

/-! ### The parts -/

namespace Node

/-- The part of `n` that the interpretation of a transaction works on, inside `n₁`. -/
def txPart (n₁ n : Node) : Node :=
  { n₁ with
    core := n.core
    myPending := n.myPending
    txHistory := n.txHistory
    txList := n.txList
    calls := n.calls }

/-- The part of `n` that the pending ledger works on, inside `n₁`. -/
def pendingPart (n₁ n : Node) : Node := { n₁ with core := n.core, myPending := n.myPending }

/-- The part of `n` that a payment works on, inside `n₁`. -/
def paymentPart (n₁ n : Node) : Node :=
  { n₁ with
    core := n.core
    paymentTxHistory := n.paymentTxHistory
    txList := n.txList
    calls := n.calls }

/-- The part of `n` that connecting a block works on, inside `n₁`. -/
def blockPart (n₁ n : Node) : Node :=
  { n₁ with
    core := n.core
    blockHistory := n.blockHistory
    notifications := n.notifications
    latestBlock := n.latestBlock
    latestBlockHash := n.latestBlockHash
    latestBlockTime := n.latestBlockTime
    waterlineBlock := n.waterlineBlock }

/-- The node with other parked messages. -/
def withParked (n : Node) (blocks : CLocalBlockInfo) (txs : CLocalTxInfo) : Node :=
  { n with localBlockInfo := blocks, localTxInfo := txs }

end Node

/-! ### Running the calls -/

theorem wp_engine {α : Type} {m : Op α} {Q : α → Node → Prop} {E : Halt → Node → Prop} :
    wp (engine m) Q E n ↔
      wp m (fun a s => Q a { n with core := s }) (fun e s => E e { n with core := s }) n.core := by
  unfold wp engine
  cases m n.core <;> rfl

theorem of_survive {P : Node → Prop} {m : NodeOp Unit} (hsurvive : survive m n = some n')
    (h : wp m (fun _ => P) (fun _ => P) n) : P n' := by
  unfold survive at hsurvive
  cases hcall : m n with
  | ok _ u =>
    rw [hcall] at hsurvive
    cases hsurvive
    exact (wp_ok hcall).mp h
  | error halt u =>
    simp only [hcall] at hsurvive
    split at hsurvive
    · cases hsurvive
      exact (wp_error hcall).mp h
    · cases hsurvive

/-! ### Functions of the engine and the pending ledger -/

theorem ignores_engine {α : Type} {g : Node → Node} {m : Op α} (hread : ∀ n, (g n).core = n.core)
    (hwrite : ∀ n s, ({ g n with core := s } : Node) = g { n with core := s }) :
    Ignores g (engine m) := by
  intro n
  unfold engine
  rw [hread]
  cases m n.core with
  | ok a s => exact congrArg (EStateM.Result.ok a) (hwrite n s)
  | error halt s => exact congrArg (EStateM.Result.error halt) (hwrite n s)

/-- The pending ledger is on the inside. -/
structure AroundPending (g : Node → Node) : Prop where
  core : ∀ n, (g n).core = n.core
  myPending : ∀ n, (g n).myPending = n.myPending
  write : ∀ n s pending, ({ g n with core := s, myPending := pending } : Node) =
    g { n with core := s, myPending := pending }

theorem aroundPending_txPart : AroundPending (Node.txPart n₁) :=
  ⟨fun _ => rfl, fun _ => rfl, fun _ _ _ => rfl⟩

theorem aroundPending_pendingPart : AroundPending (Node.pendingPart n₁) :=
  ⟨fun _ => rfl, fun _ => rfl, fun _ _ _ => rfl⟩

namespace AroundPending

variable {g : Node → Node}

theorem write_core (hg : AroundPending g) (n : Node) (s : State) :
    ({ g n with core := s } : Node) = g { n with core := s } := by
  rw [← hg.write n s n.myPending, ← hg.myPending n]

theorem write_myPending (hg : AroundPending g) (n : Node)
    (pending : ExtTreeMap Hash CMPPending compare) :
    ({ g n with myPending := pending } : Node) = g { n with myPending := pending } := by
  rw [← hg.write n n.core pending, ← hg.core n]

theorem ignores_updatePendingIf (hg : AroundPending g) (wanted : Bool) (a : Address)
    (p : PropertyId) (amount : Int) : Ignores g (updatePendingIf wanted a p amount) :=
  Ignores.ite (ignores_engine hg.core hg.write_core) (Ignores.pure true)

theorem ignores_pendingDelete (hg : AroundPending g) (txid : Hash) :
    Ignores g (pendingDelete txid) := by
  unfold pendingDelete
  refine Ignores.get (fun n => ?_) fun n => ?_
  · simp only [hg.core, hg.myPending]
  cases n.myPending[txid]? with
  | none => exact Ignores.pure ()
  | some pending =>
    refine (hg.ignores_updatePendingIf _ _ _ _).bind fun _ => ?_
    refine (hg.ignores_updatePendingIf _ _ _ _).bind fun _ => ?_
    exact Ignores.modify fun n => by rw [hg.myPending]; exact hg.write_myPending _ _

theorem ignores_pendingAdd (hg : AroundPending g) (txid : Hash) (src dst : Address) (type : Nat)
    (p : PropertyId) (amount : Int) (fSubtract : Bool) :
    Ignores g (pendingAdd txid src dst type p amount fSubtract) := by
  unfold pendingAdd
  refine (hg.ignores_updatePendingIf _ _ _ _).bind fun _ => Ignores.ite ?_ (Ignores.pure ())
  refine (hg.ignores_updatePendingIf _ _ _ _).bind fun _ => Ignores.ite ?_ (Ignores.pure ())
  exact Ignores.modify fun n => by rw [hg.myPending]; exact hg.write_myPending _ _

theorem ignores_handleUnconfirmed (hg : AroundPending g) (message : TxMessage) :
    Ignores g (handleUnconfirmed message) := by
  unfold handleUnconfirmed
  refine Ignores.ite (Ignores.pure false) (Ignores.ite (Ignores.pure true) ?_)
  exact Ignores.bind (hg.ignores_pendingAdd _ _ _ _ _ _ _) fun _ => Ignores.pure true

end AroundPending

/-! ### The calls -/

theorem ignores_processTransaction (message : TxMessage) :
    Ignores (Node.txPart n₁) (processTransaction nenv message) := by
  unfold processTransaction
  refine Ignores.get (fun _ => rfl) fun n => Ignores.ite (Ignores.pure true) ?_
  refine Ignores.bind (aroundPending_txPart.ignores_pendingDelete _) fun _ => ?_
  refine Ignores.bind ?_ fun _ => ?_
  · exact Ignores.modify fun _ => rfl
  refine Ignores.bind ?_ fun _ => ?_
  · exact ignores_engine (fun _ => rfl) fun _ _ => rfl
  refine Ignores.ite (Ignores.pure false) ?_
  refine Ignores.ite (Ignores.bind ?_ fun _ => Ignores.pure _) (Ignores.pure _)
  exact Ignores.modify fun _ => rfl

theorem ignores_omniProcesspayment (message : PaymentMessage) :
    Ignores (Node.paymentPart n₁) (omniProcesspayment nenv message) := by
  unfold omniProcesspayment
  refine Ignores.get (fun _ => rfl) fun n => Ignores.ite (Ignores.pure ()) ?_
  refine Ignores.bind ?_ fun _ => ?_
  · exact Ignores.modify fun _ => rfl
  refine Ignores.bind ?_ fun _ => ?_
  · exact ignores_engine (fun _ => rfl) fun _ _ => rfl
  exact Ignores.ite (Ignores.modify fun _ => rfl) (Ignores.pure ())

theorem ignores_connectBlock (message : BlockMessage) :
    Ignores (Node.blockPart n₁) (connectBlock nenv message) := by
  unfold connectBlock
  refine Ignores.bind ?_ fun _ => ?_
  · exact Ignores.modify fun _ => rfl
  refine Ignores.bind ?_ fun _ => ?_
  · exact ignores_engine (fun _ => rfl) fun _ _ => rfl
  refine Ignores.bind ?_ fun _ => ?_
  · exact ignores_engine (fun _ => rfl) fun _ _ => rfl
  exact Ignores.modify fun _ => rfl

theorem ignores_onblockconnectedP (message : BlockMessage) :
    Ignores (Node.blockPart n₁) (onblockconnectedP nenv message) := by
  unfold onblockconnectedP
  refine Ignores.bind (ignores_connectBlock message) fun _ => ?_
  refine Ignores.get (fun _ => rfl) fun n => Ignores.ite ?_ (Ignores.pure ())
  exact Ignores.modify fun _ => rfl

/-! ### What stays as it is -/

theorem frame_handleUnconfirmed (message : TxMessage) :
    wp (handleUnconfirmed message) (fun _ n' => n.pendingPart n' = n')
      (fun _ n' => n.pendingPart n' = n') n :=
  (aroundPending_pendingPart.ignores_handleUnconfirmed message).frame rfl

theorem frame_processTransaction (message : TxMessage) :
    wp (processTransaction nenv message) (fun _ n' => n.txPart n' = n')
      (fun _ n' => n.txPart n' = n') n :=
  (ignores_processTransaction message).frame rfl

theorem frame_pendingDelete (txid : Hash) :
    wp (pendingDelete txid) (fun _ n' => n.pendingPart n' = n')
      (fun _ n' => n.pendingPart n' = n') n :=
  (aroundPending_pendingPart.ignores_pendingDelete txid).frame rfl

theorem frame_omniProcesspayment (message : PaymentMessage) :
    wp (omniProcesspayment nenv message) (fun _ n' => n.paymentPart n' = n')
      (fun _ n' => n.paymentPart n' = n') n :=
  (ignores_omniProcesspayment message).frame rfl

theorem frame_onblockconnectedP (message : BlockMessage) :
    wp (onblockconnectedP nenv message) (fun _ n' => n.blockPart n' = n')
      (fun _ n' => n.blockPart n' = n') n :=
  (ignores_onblockconnectedP message).frame rfl

theorem latestBlock_onblockconnectedP (message : BlockMessage) :
    wp (onblockconnectedP nenv message)
      (fun _ n' => n'.latestBlock = message.height ∧ n'.waterlineBlock = message.height)
      (fun _ n' => n'.latestBlock = message.height ∧ n'.waterlineBlock = message.height) n := by
  unfold onblockconnectedP connectBlock
  simp only [wp_bind, wp_modify, wp_engine, wp_get, wp_ite, wp_pure]
  refine wp_of_forall (fun _ _ => ?_) fun _ _ => ⟨trivial, trivial⟩
  refine wp_of_forall (fun _ _ => ?_) fun _ _ => ⟨trivial, trivial⟩
  exact ⟨fun _ => ⟨rfl, rfl⟩, fun _ => ⟨trivial, trivial⟩⟩

/-! ### Connecting a block and replaying what is parked -/

/-- A property `J` of the node that handling a transaction with `P` and connecting a block keep, and under
which all parked transactions have `P`.  After an exception there is `E`. -/
structure Steady (nenv : NodeEnv) (P : TxMessage → Prop) (J : Node → Prop)
    (E : Halt → Node → Prop) : Prop where
  parked : ∀ n, J n → ∀ index, ∀ m ∈ n.localTxInfo.getTxInfo index, P m
  handler : ∀ n message, J n → P message →
    wp (mastercoreHandlerMptx nenv message) (fun _ => J) E n
  connect : ∀ n message, J n → wp (onblockconnectedP nenv message) (fun _ => J) E n
  discard : ∀ n blocks txs, J n →
    (∀ index, ∀ m ∈ txs.getTxInfo index, m ∈ n.localTxInfo.getTxInfo index) →
    J (n.withParked blocks txs)
  raise : ∀ n, J n → E .thrown n

namespace Steady

variable {P : TxMessage → Prop} {J : Node → Prop} {E : Halt → Node → Prop}
  (h : Steady nenv P J E)

include h

theorem replayBlock {index : Int} {blockInfo : BlockMessage} (hn : J n) :
    wp (HcOmni.replayBlock nenv index blockInfo) (fun _ => J) E n := by
  unfold HcOmni.replayBlock
  simp only [wp_bind, wp_get, wp_modify]
  refine wp_mono (wp_forM (I := fun rest u => J u ∧ ∀ m ∈ rest, P m) ⟨hn, h.parked n hn index⟩ ?_) ?_
    fun _ _ hu => hu
  · rintro message rest u ⟨hu, hrest⟩
    unfold replayTransaction
    simp only [wp_ite, wp_bind, wp_pure, wp_throw]
    refine ⟨fun _ => ?_, fun _ => h.raise u hu⟩
    refine wp_mono (h.handler u message hu (hrest message List.mem_cons_self)) (fun _ u' hu' => ?_)
      fun _ _ hu' => hu'
    exact ⟨hu', fun m hm => hrest m (List.mem_cons_of_mem _ hm)⟩
  · rintro _ u ⟨hu, -⟩
    refine h.connect _ blockInfo (h.discard u _ _ hu fun i m hm => ?_)
    rw [CLocalTxInfo.delete, CLocalTxInfo.getTxInfo_discard] at hm
    split at hm
    · cases hm
    · exact hm

theorem replayParked (rounds : Nat) (index : Int) (replayed : Bool) (hn : J n) :
    wp (HcOmni.replayParked nenv rounds index replayed) (fun _ => J) E n := by
  induction rounds generalizing n index replayed with
  | zero => exact hn
  | succ rounds ih =>
    unfold HcOmni.replayParked
    simp only [wp_bind, wp_get]
    cases n.localBlockInfo.getBlockInfo index with
    | none => exact hn
    | some blockInfo =>
      simp only [wp_bind]
      exact wp_mono (h.replayBlock hn) (fun _ u hu => ih _ _ hu) fun _ _ hu => hu

theorem omniOnblockconnected {message : BlockMessage} (hn : J n) :
    wp (HcOmni.omniOnblockconnected nenv message) (fun _ => J) E n := by
  unfold HcOmni.omniOnblockconnected
  simp only [wp_bind, wp_get, wp_ite, wp_modify, wp_pure]
  refine ⟨fun _ => h.discard n _ _ hn fun _ _ hm => hm, fun _ => ?_⟩
  refine wp_mono (h.connect n message hn) (fun _ u hu => ?_) fun _ _ hu => hu
  refine wp_mono (h.replayParked _ _ _ hu) (fun _ u' hu' => ⟨fun _ => ?_, fun _ => hu'⟩)
    fun _ _ hu' => hu'
  exact h.discard u' _ _ hu' fun i m hm => by simp [CLocalTxInfo.getTxInfo] at hm

end Steady

end HcOmni
