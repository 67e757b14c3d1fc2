import HcOmni.Node.Delivery
import HcOmni.Runs.Kept

/-!
# Invariants of the engine, kept by the node

What the functions of the engine keep is kept by the calls of the node that run them, whichever
messages are parked in between and replayed later.  Parked transactions are executed in their turn, so
what is asked of the delivered transactions is asked of the parked ones as well.
-/

namespace HcOmni

open Std Program Text

variable {n n' : Node} {nenv : NodeEnv} {I : State → Prop} {P : TxMessage → Prop}

/-- The functions that the node runs keep the invariant. -/
structure Respects (nenv : NodeEnv) (I : State → Prop) (P : TxMessage → Prop) : Prop where
  interpret : ∀ m s, m.block ≠ 0 → P m → I s → Keeps I (interpretPacket nenv.env m.transaction) s
  payment : ∀ txid vout sender reference amount block s, I s →
    Keeps I (dexPayment nenv.env txid vout sender reference amount block) s
  accepts : ∀ blockNow s, I s → Keeps I (eraseExpiredAccepts blockNow) s
  vest : ∀ nTime block s, I s → Keeps I (calculateAndUpdateDevmsc nenv.env nTime block) s
  pending : ∀ a p amount s, I s → Keeps I (updateTallyMap a p amount .PENDING) s
  watermark : ∀ hash s, I s → I { s with mySps := s.mySps.setWatermark hash }

theorem Respects.of_parts (given : List Part)
    (hgiven : ∀ part ∈ given, part = .crowds ∨ part = .properties ∨ part = .counters ∨
      part = .freezing ∨ part = .params ∨ part = .activations)
    (hcongr : ∀ s s' : State, (∀ part ∈ given, stateParts.value part s' = stateParts.value part s) →
      I s → I s')
    (hinterpret : ∀ m s, m.block ≠ 0 → P m → I s →
      Keeps I (interpretPacket nenv.env m.transaction) s) : Respects nenv I P := by
  have hother : ∀ {α : Type} {m : Op α} {W : List Part} (s : State), Touches W m s →
      (∀ part ∈ W, part ≠ .crowds ∧ part ≠ .properties ∧ part ≠ .counters ∧ part ≠ .freezing ∧
        part ≠ .params ∧ part ≠ .activations) → I s → Keeps I m s := by
    intro α m W s htouches hapart hI
    refine keeps_of_touches htouches fun s' hagree => hcongr s s' (fun part hpart => ?_) hI
    refine hagree part fun hmem => ?_
    obtain ⟨h₁, h₂, h₃, h₄, h₅, h₆⟩ := hapart part hmem
    rcases hgiven part hpart with h | h | h | h | h | h
    · exact h₁ h
    · exact h₂ h
    · exact h₃ h
    · exact h₄ h
    · exact h₅ h
    · exact h₆ h
  refine ⟨hinterpret, fun _ _ _ _ _ _ s => hother s touches_dexPayment (by decide),
    fun _ s => hother s touches_eraseExpiredAccepts (by decide),
    fun _ _ s => hother s touches_calculateAndUpdateDevmsc (by decide),
    fun _ _ _ s => hother s touches_updateTallyMap (by decide), fun hash s => hcongr _ _ ?_⟩
  intro part hpart
  rcases hgiven part hpart with rfl | rfl | rfl | rfl | rfl | rfl <;> rfl

/-- The invariant of the engine, and what is known of the parked transactions. -/
structure NodeKept (I : State → Prop) (P : TxMessage → Prop) (n : Node) : Prop where
  core : I n.core
  parked : ∀ index, ∀ m ∈ n.localTxInfo.getTxInfo index, P m

/-- If the process survives the failure, the invariant holds. -/
abbrev NodeSurvives (I : State → Prop) (P : TxMessage → Prop) (e : Halt) (n : Node) : Prop :=
  e.Live → NodeKept I P n

/-- Whatever the call leaves behind satisfies the invariant. -/
abbrev NodeKeeps (I : State → Prop) (P : TxMessage → Prop) {α : Type} (m : NodeOp α) (n : Node) :
    Prop :=
  wp m (fun _ => NodeKept I P) (NodeSurvives I P) n

theorem NodeKeeps.survive {m : NodeOp Unit} (h : NodeKeeps I P m n)
    (hsurvive : survive m n = some n') : NodeKept I P n' := by
  unfold HcOmni.survive at hsurvive
  cases hcall : m n with
  | ok _ u =>
    rw [hcall] at hsurvive
    cases hsurvive
    exact (wp_ok hcall).mp h
  | error halt u =>
    rw [hcall] at hsurvive
    obtain ⟨hlive, hsame⟩ := Option.ite_none_right_eq_some.mp hsurvive
    cases hsame
    exact (wp_error hcall).mp h hlive

namespace NodeKept

theorem congr (h : NodeKept I P n) (hcore : n'.core = n.core)
    (hparked : n'.localTxInfo = n.localTxInfo) : NodeKept I P n' :=
  ⟨by rw [hcore]; exact h.core, by rw [hparked]; exact h.parked⟩

theorem engine {α : Type} {m : Op α} (h : NodeKept I P n) (hm : Keeps I m n.core) :
    NodeKeeps I P (engine m) n := by
  unfold NodeKeeps
  rw [wp_engine]
  exact wp_mono hm (fun _ _ hI => ⟨hI, h.parked⟩) fun _ _ hI hlive => ⟨hI hlive, h.parked⟩

section Transactions

variable {J : State → Prop} {message : TxMessage}
  (hpending : ∀ a p amount s, I s → Keeps I (updateTallyMap a p amount .PENDING) s)

include hpending

theorem updatePendingIf {wanted : Bool} {a : Address} {p : PropertyId} {amount : Int}
    (h : NodeKept I P n) : NodeKeeps I P (updatePendingIf wanted a p amount) n := by
  unfold HcOmni.updatePendingIf NodeKeeps
  rw [wp_ite]
  exact ⟨fun _ => h.engine (hpending _ _ _ _ h.core), fun _ => h⟩

theorem pendingAdd {txid : Hash} {src dst : Address} {type : Nat} {p : PropertyId} {amount : Int}
    {subtract : Bool} (h : NodeKept I P n) :
    NodeKeeps I P (pendingAdd txid src dst type p amount subtract) n := by
  unfold HcOmni.pendingAdd NodeKeeps
  rw [wp_bind]
  refine wp_mono (h.updatePendingIf hpending) (fun subtracted u hu => ?_) fun _ _ hu => hu
  rw [wp_ite]
  refine ⟨fun _ => ?_, fun _ => hu⟩
  rw [wp_bind]
  refine wp_mono (hu.updatePendingIf hpending) (fun added v hv => ?_) fun _ _ hv => hv
  rw [wp_ite, wp_modify]
  exact ⟨fun _ => hv.congr rfl rfl, fun _ => hv⟩

theorem pendingDelete {txid : Hash} (h : NodeKept I P n) :
    NodeKeeps I P (pendingDelete txid) n := by
  unfold HcOmni.pendingDelete NodeKeeps
  rw [wp_bind, wp_get]
  cases n.myPending[txid]? with
  | none => exact h
  | some pending =>
    simp only [wp_bind]
    refine wp_mono (h.updatePendingIf hpending) (fun _ u hu => ?_) fun _ _ hu => hu
    refine wp_mono (hu.updatePendingIf hpending) (fun _ v hv => ?_) fun _ _ hv => hv
    exact hv.congr rfl rfl

variable (hsub : ∀ s, I s → J s)

include hsub

theorem processTransaction
    (hinterpret : ∀ s, I s → Keeps J (interpretPacket nenv.env message.transaction) s)
    (h : NodeKept I P n) : NodeKeeps J P (processTransaction nenv message) n := by
  have hweaken : ∀ {u : Node}, NodeKept I P u → NodeKept J P u := fun hu =>
    ⟨hsub _ hu.core, hu.parked⟩
  unfold HcOmni.processTransaction NodeKeeps
  simp only [wp_bind, wp_get, wp_ite, wp_pure, wp_modify]
  refine ⟨fun _ => hweaken h, fun _ => ?_⟩
  refine wp_mono (h.pendingDelete hpending) (fun _ u hu => ?_)
    fun _ _ hu hlive => hweaken (hu hlive)
  have hu' : NodeKept J P { u with
      txHistory := u.txHistory.putHistory (uint256ToString message.vecTxHash) (toInt32 message.block)
      calls := u.calls ++ [.interpretPacket message.vecTxHash] } := (hweaken hu).congr rfl rfl
  refine wp_mono (hu'.engine (keeps_callRc (hinterpret _ hu.core))) (fun rc v hv => ?_)
    fun _ _ hv => hv
  exact ⟨fun _ => hv, fun _ => ⟨fun _ => hv.congr rfl rfl, fun _ => hv⟩⟩

theorem mastercoreHandlerMptx (hinterpret : message.block ≠ 0 →
      ∀ s, I s → Keeps J (interpretPacket nenv.env message.transaction) s)
    (hmessage : P message) (h : NodeKept I P n) :
    NodeKeeps J P (mastercoreHandlerMptx nenv message) n := by
  unfold HcOmni.mastercoreHandlerMptx NodeKeeps
  simp only [wp_ite, wp_bind, wp_get, wp_modify, wp_pure]
  refine ⟨fun _ => ?_, fun hconfirmed => ⟨fun _ => ⟨hsub _ h.core, fun i m hm => ?_⟩, fun _ =>
    h.processTransaction hpending hsub (hinterpret hconfirmed)⟩⟩
  · unfold handleUnconfirmed
    simp only [wp_ite, wp_bind, wp_pure]
    refine ⟨fun _ => ⟨hsub _ h.core, h.parked⟩, fun _ => ⟨fun _ => ⟨hsub _ h.core, h.parked⟩,
      fun _ => ?_⟩⟩
    exact wp_mono (h.pendingAdd hpending) (fun _ _ hu => ⟨hsub _ hu.core, hu.parked⟩)
      fun _ _ hu hlive => ⟨hsub _ (hu hlive).core, (hu hlive).parked⟩
  · change m ∈ (n.localTxInfo.putData message).getTxInfo i at hm
    rw [CLocalTxInfo.getTxInfo_putData] at hm
    rcases List.mem_append.mp hm with hold | hnew
    · exact h.parked i m hold
    · split at hnew
      · rw [List.mem_singleton.mp hnew]
        exact hmessage
      · cases hnew

end Transactions

variable (hr : Respects nenv I P)

include hr

theorem transaction {message : TxMessage} (hmessage : P message) (h : NodeKept I P n) :
    NodeKeeps I P (HcOmni.mastercoreHandlerMptx nenv message) n :=
  h.mastercoreHandlerMptx hr.pending (fun _ => id)
    (fun hconfirmed s => hr.interpret message s hconfirmed hmessage) hmessage

theorem omniProcesspayment {message : PaymentMessage} (h : NodeKept I P n) :
    NodeKeeps I P (omniProcesspayment nenv message) n := by
  unfold HcOmni.omniProcesspayment NodeKeeps
  simp only [wp_bind, wp_get, wp_ite, wp_pure, wp_modify]
  refine ⟨fun _ => h, fun _ => ?_⟩
  have h' : NodeKept I P { n with
      paymentTxHistory := n.paymentTxHistory.putHistory
        (uint256ToString (uint256S message.txHash)) (toInt32 message.block)
      calls := n.calls ++ [.dexPayment (uint256S message.txHash) message.idx] } := h.congr rfl rfl
  refine wp_mono (h'.engine (keeps_callRc (Keeps.bind (hr.payment _ _ _ _ _ _ _ h.core)
    fun _ _ hI => hI))) (fun rc u hu => ?_) fun _ _ hu => hu
  exact ⟨fun _ => hu.congr rfl rfl, fun _ => hu⟩

theorem connectBlock {message : BlockMessage} (h : NodeKept I P n) :
    NodeKeeps I P (connectBlock nenv message) n := by
  unfold HcOmni.connectBlock NodeKeeps
  simp only [wp_bind, wp_modify]
  have h' : NodeKept I P { n with
      latestBlock := message.height
      latestBlockHash := uint256S message.hash
      latestBlockTime := message.time
      core.mySps := n.core.mySps.setWatermark (uint256S message.hash)
      waterlineBlock := message.height } := ⟨hr.watermark _ _ h.core, h.parked⟩
  refine wp_mono (h'.engine (hr.accepts _ _ h'.core)) (fun _ u hu => ?_) fun _ _ hu => hu
  refine wp_mono (hu.engine (keeps_callRc (hr.vest _ _ _ hu.core))) (fun _ v hv => ?_)
    fun _ _ hv => hv
  exact hv.congr rfl rfl

theorem onblockconnectedP {message : BlockMessage} (h : NodeKept I P n) :
    NodeKeeps I P (onblockconnectedP nenv message) n := by
  unfold HcOmni.onblockconnectedP persistInMemoryStateEx NodeKeeps
  simp only [wp_bind, wp_get, wp_ite, wp_modify, wp_pure]
  refine wp_mono (h.connectBlock hr) (fun _ u hu => ?_) fun _ _ hu => hu
  exact ⟨fun _ => ⟨hr.watermark _ _ hu.core, hu.parked⟩, fun _ => hu⟩

theorem steady : Steady nenv P (NodeKept I P) (NodeSurvives I P) where
  parked _ h := h.parked
  handler _ _ h hmessage := h.transaction hr hmessage
  connect _ _ h := h.onblockconnectedP hr
  discard _ _ _ h hfewer := ⟨h.core, fun i m hm => h.parked i m (hfewer i m hm)⟩
  raise _ h _ := h

/-- **A call keeps what the engine keeps.** -/
theorem deliver {message : Message} (h : NodeKept I P n)
    (hmessage : ∀ m, message = .tx m → P m) (hdeliver : deliver nenv n message = some n') :
    NodeKept I P n' := by
  refine NodeKeeps.survive ?_ hdeliver
  cases message with
  | tx m =>
    change wp (HcOmni.mastercoreHandlerMptx nenv m >>= fun _ => pure ()) _ _ n
    rw [wp_bind]
    exact h.transaction hr (hmessage m rfl)
  | payment m => exact h.omniProcesspayment hr
  | block m => exact (steady hr).omniOnblockconnected h

/-- **So does a list of calls.** -/
theorem deliverAll {messages : List Message} (h : NodeKept I P n)
    (hmessages : ∀ m, Message.tx m ∈ messages → P m)
    (hrun : deliverAll nenv n messages = some n') : NodeKept I P n' := by
  induction messages generalizing n with
  | nil =>
    cases hrun
    exact h
  | cons message rest ih =>
    rw [deliverAll_cons] at hrun
    obtain ⟨u, hdeliver, hrest⟩ := Option.bind_eq_some_iff.mp hrun
    have hu := h.deliver hr (fun m hm => hmessages m (by simp [hm])) hdeliver
    exact ih hu (fun m hm => hmessages m (List.mem_cons_of_mem _ hm)) hrest

end NodeKept

end HcOmni
