import HcOmni.Node.Frames
import HcOmni.Node.Pending
import HcOmni.Persist.RoundTrip
import HcOmni.Runs.Files

/-!
# Delivered once, in any number of calls

What the node guarantees about messages that arrive again, and about those it has parked.

A transaction and a payment are known again under the text of their hash, and stored under the one
text the node itself writes for it, so whether a second message is recognized depends on how the
sender writes the hash.  Connecting a block replays what is parked for the blocks behind it, and
forgets everything else that is parked.
-/

namespace HcOmni

open Std Program Text

variable {n n' u u' : Node} {nenv : NodeEnv}

/-- The text is the one that the node writes for the hash. -/
def IsCanonical (text : Str) : Prop := text = uint256ToString (uint256S text)

instance (text : Str) : Decidable (IsCanonical text) := inferInstanceAs (Decidable (_ = _))

theorem IsCanonical.inj {text text' : Str} (h : IsCanonical text) (h' : IsCanonical text')
    (heq : uint256S text = uint256S text') : text = text' := by
  rw [h, h', heq]

theorem getHistory_putHistory (history : COmniTxHistory) (key key' : Str) (block : Int) :
    (history.putHistory key block).getHistory key' =
      if key = key' then some (block, history.getTop + 1) else history.getHistory key' := by
  unfold COmniTxHistory.getHistory COmniTxHistory.putHistory
  rw [ExtTreeMap.getElem?_insert]
  simp only [Std.compare_eq_iff_eq]

theorem deliverAll_cons (n : Node) (message : Message) (messages : List Message) :
    deliverAll nenv n (message :: messages) =
      (deliver nenv n message).bind fun u => deliverAll nenv u messages :=
  List.foldlM_cons

theorem deliverAll_concat (messages : List Message) (message : Message) :
    deliverAll nenv n (messages ++ [message]) =
      (deliverAll nenv n messages).bind fun u => deliver nenv u message := by
  simp only [deliverAll, List.foldlM_append, List.foldlM_cons, List.foldlM_nil,
    Option.bind_eq_bind, Option.pure_def, Option.bind_fun_some]

/-! ### Payments -/

/-- What a payment message does to the history and the calls. -/
def PaymentMessage.Leads (message : PaymentMessage) (n n' : Node) : Prop :=
  if (n.paymentTxHistory.getHistory message.txHash).isSome then
    n'.paymentTxHistory = n.paymentTxHistory ∧ n'.calls = n.calls
  else
    n'.paymentTxHistory = n.paymentTxHistory.putHistory
      (uint256ToString (uint256S message.txHash)) (toInt32 message.block) ∧
    n'.calls = n.calls ++ [.dexPayment (uint256S message.txHash) message.idx]

theorem leads_omniProcesspayment (message : PaymentMessage) :
    wp (omniProcesspayment nenv message) (fun _ => message.Leads n) (fun _ => message.Leads n) n := by
  unfold omniProcesspayment PaymentMessage.Leads
  simp only [wp_bind, wp_get, wp_ite, wp_pure, wp_modify, wp_engine]
  constructor
  · intro hknown
    simp [hknown]
  · intro hnew
    simp only [hnew]
    exact wp_of_forall (fun _ _ => by simp) fun _ _ => by simp

/-- The calls for the payments so far, and which hashes are recorded. -/
structure PaidFor (messages before : List PaymentMessage) (n : Node) : Prop where
  count : ∀ t i, n.calls.count (.dexPayment t i) =
    if ∃ m ∈ before, uint256S m.txHash = t ∧ m.idx = i then 1 else 0
  known : ∀ m ∈ messages, (n.paymentTxHistory.getHistory m.txHash).isSome = true ↔
    ∃ m' ∈ before, m'.txHash = m.txHash

theorem PaidFor.step {messages before : List PaymentMessage} {message : PaymentMessage}
    (h : PaidFor messages before u) (hmem : message ∈ messages)
    (hbefore : ∀ m ∈ before, m ∈ messages)
    (hcanonical : ∀ m ∈ messages, IsCanonical m.txHash)
    (hsingle : ∀ m ∈ messages, ∀ m' ∈ messages,
      uint256S m.txHash = uint256S m'.txHash → m.idx = m'.idx)
    (hleads : message.Leads u u') : PaidFor messages (before ++ [message]) u' := by
  have hiff := h.known message hmem
  have hconcat : ∀ P : PaymentMessage → Prop,
      (∃ m ∈ before ++ [message], P m) ↔ (∃ m ∈ before, P m) ∨ P message := fun P => by
    simp [or_and_right, exists_or]
  unfold PaymentMessage.Leads at hleads
  by_cases hknown : (u.paymentTxHistory.getHistory message.txHash).isSome = true
  · -- the same transaction was paid before, and then through the same output
    rw [if_pos hknown] at hleads
    obtain ⟨m, hm, htext⟩ := hiff.mp hknown
    have hidx : m.idx = message.idx := hsingle m (hbefore m hm) message hmem (by rw [htext])
    constructor
    · intro t i
      rw [hleads.2, h.count]
      refine if_congr ?_ rfl rfl
      rw [hconcat, iff_self_or]
      rintro ⟨ht, hi⟩
      exact ⟨m, hm, by rw [htext, ht], by rw [hidx, hi]⟩
    · intro m' hm'
      rw [hleads.1, h.known m' hm', hconcat, iff_self_or]
      intro heq
      exact ⟨m, hm, htext.trans heq⟩
  · -- a new transaction
    rw [if_neg hknown] at hleads
    constructor
    · intro t i
      rw [hleads.2, List.count_append, h.count, List.count_singleton]
      by_cases hpair : uint256S message.txHash = t ∧ message.idx = i
      · obtain ⟨rfl, rfl⟩ := hpair
        have hnone : ¬∃ m ∈ before, uint256S m.txHash = uint256S message.txHash ∧
            m.idx = message.idx := by
          rintro ⟨m, hm, heq, -⟩
          have htext := (hcanonical m (hbefore m hm)).inj (hcanonical message hmem) heq
          exact hknown (hiff.mpr ⟨m, hm, htext⟩)
        rw [if_neg hnone, if_pos ((hconcat _).mpr (.inr ⟨rfl, rfl⟩))]
        simp
      · have hne : (Call.dexPayment (uint256S message.txHash) message.idx == .dexPayment t i) =
            false := by
          simp only [beq_eq_false_iff_ne, ne_eq, Call.dexPayment.injEq]
          exact hpair
        rw [hne, if_neg Bool.false_ne_true, Nat.add_zero]
        exact if_congr (by rw [hconcat, or_iff_left hpair]) rfl rfl
    · intro m hm
      rw [hleads.1, getHistory_putHistory, ← hcanonical message hmem, hconcat]
      by_cases heq : message.txHash = m.txHash
      · simp [heq]
      · rw [if_neg heq, h.known m hm, or_iff_left heq]

/-- **Every payment is applied once**, if the hashes are written as the node writes them and no
transaction pays through more than one output: each pair of a transaction and an output that occurs
leads to one call, and no other call is made. -/
theorem payments_applied_once (messages : List PaymentMessage) (hcalls : n.calls = [])
    (hfresh : ∀ m ∈ messages, n.paymentTxHistory.getHistory m.txHash = none)
    (hcanonical : ∀ m ∈ messages, IsCanonical m.txHash)
    (hsingle : ∀ m ∈ messages, ∀ m' ∈ messages,
      uint256S m.txHash = uint256S m'.txHash → m.idx = m'.idx)
    (hrun : deliverAll nenv n (messages.map .payment) = some n') (t : Hash) (i : Int) :
    n'.calls.count (.dexPayment t i) =
      if ∃ m ∈ messages, uint256S m.txHash = t ∧ m.idx = i then 1 else 0 := by
  suffices h : ∀ before after u, messages = before ++ after →
      deliverAll nenv n (before.map .payment) = some u → PaidFor messages before u from
    (h messages [] n' (by simp) hrun).count t i
  intro before
  induction before using List.reverseRecOn with
  | nil =>
      intro after u _ hu
      cases hu
      constructor
      · simp [hcalls]
      · intro m hm
        simp [hfresh m hm]
  | append_singleton before message ih =>
      intro after u' hsplit hu
      rw [List.append_assoc] at hsplit
      rw [List.map_append, List.map_singleton, deliverAll_concat, Option.bind_eq_some_iff] at hu
      obtain ⟨u, hbefore, hdeliver⟩ := hu
      have hleads : message.Leads u u' := of_survive hdeliver (leads_omniProcesspayment message)
      refine (ih _ u hsplit hbefore).step ?_ ?_ hcanonical hsingle hleads
      · rw [hsplit]; simp
      · intro m hm
        rw [hsplit]
        exact List.mem_append_left _ hm

/-- A payment of 10 to a seller, through the given output of the transaction with the hash 7. -/
def samplePayment (seller : String) (idx : Int) : PaymentMessage where
  sender := seller.toList
  reference := "buyer".toList
  txHash := uint256ToString 7
  amount := 10
  block := 50000
  idx := idx

def sampleNodeEnv : NodeEnv := ⟨sampleEnv, sampleFileEnv, mainConsensusParams⟩

/-- A payment that is delivered twice is applied once. -/
theorem payments_applied_once_again :
    ∃ n', deliverAll sampleNodeEnv sampleNode
        [.payment (samplePayment "seller" 0), .payment (samplePayment "seller" 0)] = some n' ∧
      n'.calls.count (.dexPayment 7 0) = 1 := by
  obtain ⟨n', hrun⟩ := Option.isSome_iff_exists.mp (by decide +kernel :
    (deliverAll sampleNodeEnv sampleNode
      [.payment (samplePayment "seller" 0), .payment (samplePayment "seller" 0)]).isSome = true)
  have hcount := payments_applied_once [samplePayment "seller" 0, samplePayment "seller" 0] rfl
    (by decide +kernel) (by decide +kernel) (by decide) hrun 7 0
  rw [if_pos (by decide +kernel)] at hcount
  exact ⟨n', hrun, hcount⟩

/-- A transaction that pays two sellers: the second output is taken for a repetition. -/
theorem exists_payment_ignored :
    ∃ n', deliverAll sampleNodeEnv sampleNode
        [.payment (samplePayment "seller" 0), .payment (samplePayment "other" 1)] = some n' ∧
      n'.calls = [.dexPayment 7 0] := by
  obtain ⟨n', hrun⟩ := Option.isSome_iff_exists.mp (by decide +kernel :
    (deliverAll sampleNodeEnv sampleNode
      [.payment (samplePayment "seller" 0), .payment (samplePayment "other" 1)]).isSome = true)
  have hcalls : (deliverAll sampleNodeEnv sampleNode
      [.payment (samplePayment "seller" 0), .payment (samplePayment "other" 1)]).map Node.calls =
        some [.dexPayment 7 0] := by decide +kernel
  rw [hrun] at hcalls
  exact ⟨n', hrun, Option.some.inj hcalls⟩

/-! ### Transactions -/

/-- What the last part of the handler does to the history and the calls: nothing, or the
transaction is new to it, and is recorded and interpreted. -/
def TxMessage.Leads (message : TxMessage) (n n' : Node) : Prop :=
  n'.txHistory = n.txHistory ∧ n'.calls = n.calls ∨
    (n.txHistory.getHistory message.txHash).isSome = false ∧
      n'.txHistory = n.txHistory.putHistory (uint256ToString message.vecTxHash)
        (toInt32 message.block) ∧
      n'.calls = n.calls ++ [.interpretPacket message.vecTxHash]

theorem leads_processTransaction (message : TxMessage) :
    wp (processTransaction nenv message) (fun _ => message.Leads n) (fun _ => message.Leads n)
      n := by
  unfold processTransaction
  simp only [wp_bind, wp_get, wp_ite, wp_pure, wp_modify, wp_engine]
  constructor
  · intro _
    exact .inl ⟨rfl, rfl⟩
  · intro hnew
    refine wp_mono (frame_pendingDelete message.vecTxHash) ?_ ?_
    · intro _ n' hframe
      have hhistory : n'.txHistory = n.txHistory := by rw [← hframe]; rfl
      have hcalls : n'.calls = n.calls := by rw [← hframe]; rfl
      have hleads : ∀ s txList, message.Leads n
          { n' with
            core := s
            txList := txList
            txHistory := n'.txHistory.putHistory (uint256ToString message.vecTxHash)
              (toInt32 message.block)
            calls := n'.calls ++ [.interpretPacket message.vecTxHash] } := fun _ _ =>
        .inr ⟨by simpa using hnew, by rw [← hhistory], by rw [← hcalls]⟩
      refine wp_of_forall (fun _ _ => ⟨fun _ => hleads _ _, fun _ => ⟨fun _ => ?_, fun _ => ?_⟩⟩)
        fun _ _ => hleads _ _
      · exact hleads _ _
      · exact hleads _ _
    · intro _ n' hframe
      rw [← hframe]
      exact .inl ⟨rfl, rfl⟩

/-- Every transaction was interpreted at most once, those interpreted are recorded, and the parked
ones are written as the node writes them. -/
structure InterpretedOnce (n : Node) : Prop where
  once : ∀ t, n.calls.count (.interpretPacket t) ≤ 1
  recorded : ∀ t, .interpretPacket t ∈ n.calls →
    (n.txHistory.getHistory (uint256ToString t)).isSome = true
  parked : ∀ h, ∀ m ∈ n.localTxInfo.getTxInfo h, IsCanonical m.txHash

namespace InterpretedOnce

theorem congr (h : InterpretedOnce n) (hcalls : n'.calls = n.calls)
    (hhistory : n'.txHistory = n.txHistory)
    (hparked : ∀ i, ∀ m ∈ n'.localTxInfo.getTxInfo i, m ∈ n.localTxInfo.getTxInfo i) :
    InterpretedOnce n' where
  once := by rw [hcalls]; exact h.once
  recorded := by rw [hcalls, hhistory]; exact h.recorded
  parked i m hm := h.parked i m (hparked i m hm)

theorem leads {message : TxMessage} (h : InterpretedOnce n) (hcanonical : IsCanonical message.txHash)
    (hparked : n'.localTxInfo = n.localTxInfo) (hleads : message.Leads n n') :
    InterpretedOnce n' := by
  rcases hleads with ⟨hhistory, hcalls⟩ | ⟨hnew, hhistory, hcalls⟩
  · exact h.congr hcalls hhistory fun i m hm => by rwa [hparked] at hm
  · have hfresh : Call.interpretPacket message.vecTxHash ∉ n.calls := by
      intro hmem
      have hknown := h.recorded _ hmem
      unfold TxMessage.vecTxHash at hknown
      rw [← hcanonical, hnew] at hknown
      cases hknown
    constructor
    · intro t
      rw [hcalls, List.count_append, List.count_singleton]
      by_cases heq : message.vecTxHash = t
      · subst heq
        simp [List.count_eq_zero_of_not_mem hfresh]
      · have hne : (Call.interpretPacket message.vecTxHash == .interpretPacket t) = false := by
          simpa using heq
        rw [hne]
        exact h.once t
    · intro t hmem
      rw [hhistory, getHistory_putHistory]
      split
      · rfl
      · next hne =>
          rw [hcalls] at hmem
          rcases List.mem_append.mp hmem with hold | hadded
          · exact h.recorded t hold
          · cases List.mem_singleton.mp hadded
            exact absurd rfl hne
    · rw [hparked]
      exact h.parked

/-- The node after `message` was parked. -/
theorem park {message : TxMessage} (h : InterpretedOnce n)
    (hcanonical : IsCanonical message.txHash) :
    InterpretedOnce { n with localTxInfo := n.localTxInfo.putData message } where
  once := h.once
  recorded := h.recorded
  parked i m hm := by
    change m ∈ (n.localTxInfo.putData message).getTxInfo i at hm
    rw [CLocalTxInfo.getTxInfo_putData] at hm
    rcases List.mem_append.mp hm with hold | hnew
    · exact h.parked i m hold
    · split at hnew
      · rw [List.mem_singleton.mp hnew]
        exact hcanonical
      · cases hnew

theorem handler {message : TxMessage} (h : InterpretedOnce n)
    (hcanonical : IsCanonical message.txHash) :
    wp (mastercoreHandlerMptx nenv message) (fun _ => InterpretedOnce) (fun _ => InterpretedOnce)
      n := by
  unfold mastercoreHandlerMptx
  simp only [wp_ite, wp_bind, wp_get, wp_modify, wp_pure]
  refine ⟨fun _ => ?_, fun _ => ⟨fun _ => h.park hcanonical, fun _ => ?_⟩⟩
  · have hframe : ∀ n' : Node, n.pendingPart n' = n' → InterpretedOnce n' := by
      intro n' heq
      rw [← heq]
      exact h.congr rfl rfl fun _ _ hm => hm
    exact wp_mono (frame_handleUnconfirmed message) (fun _ => hframe) fun _ => hframe
  · have hboth : ∀ n' : Node, message.Leads n n' ∧ n.txPart n' = n' → InterpretedOnce n' := by
      rintro n' ⟨hleads, heq⟩
      exact h.leads hcanonical (by rw [← heq]; rfl) hleads
    exact wp_mono (wp_and (leads_processTransaction message) (frame_processTransaction message))
      (fun _ => hboth) fun _ => hboth

theorem connect (message : BlockMessage) (h : InterpretedOnce n) :
    wp (onblockconnectedP nenv message) (fun _ => InterpretedOnce) (fun _ => InterpretedOnce)
      n := by
  have hframe : ∀ n' : Node, n.blockPart n' = n' → InterpretedOnce n' := by
    intro n' heq
    rw [← heq]
    exact h.congr rfl rfl fun _ _ hm => hm
  exact wp_mono (frame_onblockconnectedP message) (fun _ => hframe) fun _ => hframe

theorem steady : Steady nenv (fun m => IsCanonical m.txHash) InterpretedOnce fun _ => InterpretedOnce where
  parked _ h := h.parked
  handler _ _ h hcanonical := h.handler hcanonical
  connect _ message h := h.connect message
  discard _ _ _ h hfewer := h.congr rfl rfl hfewer
  raise _ h := h

theorem payment (message : PaymentMessage) (h : InterpretedOnce n) :
    wp (omniProcesspayment nenv message) (fun _ => InterpretedOnce) (fun _ => InterpretedOnce)
      n := by
  have hboth : ∀ n' : Node, message.Leads n n' ∧ n.paymentPart n' = n' → InterpretedOnce n' := by
    rintro n' ⟨hleads, heq⟩
    have hcalls : n'.calls = n.calls ∨
        n'.calls = n.calls ++ [.dexPayment (uint256S message.txHash) message.idx] := by
      unfold PaymentMessage.Leads at hleads
      split at hleads
      · exact .inl hleads.2
      · exact .inr hleads.2
    have hhistory : n'.txHistory = n.txHistory := by rw [← heq]; rfl
    have hparked : n'.localTxInfo = n.localTxInfo := by rw [← heq]; rfl
    rcases hcalls with hcalls | hcalls
    · exact h.congr hcalls hhistory fun _ _ hm => by rwa [hparked] at hm
    · constructor
      · intro t
        rw [hcalls, List.count_append]
        simpa using h.once t
      · intro t hmem
        rw [hcalls, List.mem_append, List.mem_singleton] at hmem
        rw [hhistory]
        exact h.recorded t (hmem.resolve_right (by simp))
      · rw [hparked]
        exact h.parked
  exact wp_mono (wp_and (leads_omniProcesspayment message) (frame_omniProcesspayment message))
    (fun _ => hboth) fun _ => hboth

theorem deliver {message : Message} (h : InterpretedOnce n)
    (hcanonical : ∀ m, message = .tx m → IsCanonical m.txHash)
    (hdeliver : deliver nenv n message = some n') : InterpretedOnce n' := by
  refine of_survive hdeliver ?_
  cases message with
  | tx m =>
    change wp (mastercoreHandlerMptx nenv m >>= fun _ => pure ()) _ _ n
    rw [wp_bind]
    exact wp_mono (h.handler (hcanonical m rfl)) (fun _ _ hu => hu) fun _ _ hu => hu
  | payment m => exact h.payment m
  | block m => exact steady.omniOnblockconnected h

end InterpretedOnce

/-- **At most one interpretation.**  If all transactions are delivered under the text that the node
writes for their hashes, none is interpreted twice, however often it is delivered, parked and
replayed. -/
theorem interpreted_at_most_once {messages : List Message} (hcalls : n.calls = [])
    (hparked : ∀ h, ∀ m ∈ n.localTxInfo.getTxInfo h, IsCanonical m.txHash)
    (hcanonical : ∀ m, .tx m ∈ messages → IsCanonical m.txHash)
    (hrun : deliverAll nenv n messages = some n') (t : Hash) :
    n'.calls.count (.interpretPacket t) ≤ 1 := by
  have hstart : InterpretedOnce n := ⟨by simp [hcalls], by simp [hcalls], hparked⟩
  have hend : InterpretedOnce n' := by
    refine foldlM_invariant (I := fun _ => InterpretedOnce) hstart ?_ hrun
    intro before message after u u' hsplit _ hu hdeliver
    refine hu.deliver (fun m heq => hcanonical m ?_) hdeliver
    rw [hsplit, ← heq]
    simp
  exact hend.once t

/-- A simple send in the block after the genesis block, with the hash written as given. -/
def sampleMessage (txHash : Str) (block : Int) : TxMessage where
  sender := "alice".toList
  reference := "bob".toList
  txHash := txHash
  blockHash := uint256ToString 1
  block := block
  idx := 0
  scriptEncode := "00000000000000010000000000000005".toList
  fee := 0
  time := 1500000000

/-- A transaction that is delivered twice is interpreted once. -/
theorem interpreted_at_most_once_again :
    ∃ n', deliverAll sampleNodeEnv sampleNode
        [.tx (sampleMessage (uint256ToString 10) 50000),
          .tx (sampleMessage (uint256ToString 10) 50000)] = some n' ∧
      n'.calls.count (.interpretPacket 10) ≤ 1 := by
  obtain ⟨n', hrun⟩ := Option.isSome_iff_exists.mp (by decide +kernel :
    (deliverAll sampleNodeEnv sampleNode
      [.tx (sampleMessage (uint256ToString 10) 50000),
        .tx (sampleMessage (uint256ToString 10) 50000)]).isSome = true)
  refine ⟨n', hrun, interpreted_at_most_once rfl ?_ ?_ hrun 10⟩
  · intro h m hm
    simp [sampleNode, CLocalTxInfo.getTxInfo] at hm
  · intro m hm
    simp only [List.mem_cons, Message.tx.injEq, List.not_mem_nil, or_false, or_self] at hm
    rw [hm]
    decide +kernel

/-- The hash of a transaction as the node writes it, and with the usual prefix: the second message
is not recognized. -/
def spelledTwice : List Message :=
  [.tx (sampleMessage (uint256ToString 10) 50000),
    .tx (sampleMessage ("0x".toList ++ uint256ToString 10) 50000)]

theorem exists_interpreted_twice :
    ∃ n', deliverAll sampleNodeEnv sampleNode spelledTwice = some n' ∧
      (∀ m, .tx m ∈ spelledTwice → m.vecTxHash = 10) ∧
      n'.calls.count (.interpretPacket 10) = 2 := by
  obtain ⟨n', hrun⟩ := Option.isSome_iff_exists.mp (by decide +kernel :
    (deliverAll sampleNodeEnv sampleNode spelledTwice).isSome = true)
  have hcalls : (deliverAll sampleNodeEnv sampleNode spelledTwice).map Node.calls =
      some [.interpretPacket 10, .interpretPacket 10] := by decide +kernel
  rw [hrun] at hcalls
  refine ⟨n', hrun, ?_, ?_⟩
  · intro m hm
    simp only [spelledTwice, List.mem_cons, Message.tx.injEq, List.not_mem_nil, or_false] at hm
    rcases hm with rfl | rfl
    · decide +kernel
    · decide +kernel
  · rw [Option.some.inj hcalls]
    decide

end HcOmni
