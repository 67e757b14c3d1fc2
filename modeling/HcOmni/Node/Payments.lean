import HcOmni.Node.Delivery
import HcOmni.Node.Waterline
import HcOmni.Persist.TxHistory

/-!
# Rolling back payments

`omni_processpayment` records a payment before it is applied, and refuses one that is recorded.  The
record is taken back by `RewindDBs`, so that the payments of the blocks that are left can be delivered
again.  The rollback goes backwards through the log and stops at the first payment of an earlier block;
but payments are accepted in any order of their blocks.
-/

namespace HcOmni

open Std Program Text MapSum

variable {n n' n₁ n₂ : Node} {nenv : NodeEnv}

/-! ### The log of a history -/

namespace COmniTxHistory

variable {history : COmniTxHistory} {log : List (Str × Int)}

/-- The records are those of a list of keys and blocks. -/
structure Lists (history : COmniTxHistory) (log : List (Str × Int)) : Prop where
  byIndex : ∀ i : Nat, history.byIndex[(i : Int)]? = log[i]?
  byKey : ∀ key : Str, (history.byKey[key]?).isSome = true ↔ key ∈ log.map Prod.fst
  distinct : (log.map Prod.fst).Nodup

theorem Lists.size_eq (h : history.Lists log) : history.byIndex.size = log.length := by
  have hiff : ∀ i : Nat, i < history.byIndex.size ↔ i < log.length := by
    intro i
    have hdense := history.dense i
    rw [ExtTreeMap.mem_iff_isSome_getElem?, h.byIndex, Option.isSome_iff_ne_none, ne_eq,
      List.getElem?_eq_none_iff] at hdense
    omega
  rcases Nat.lt_trichotomy history.byIndex.size log.length with hlt | heq | hlt
  · exact absurd ((hiff _).mpr hlt) (lt_irrefl _)
  · exact heq
  · exact absurd ((hiff _).mp hlt) (lt_irrefl _)

theorem lists_empty : ({} : COmniTxHistory).Lists [] := ⟨by simp, by simp, by simp⟩

theorem Lists.putHistory (h : history.Lists log) {key : Str} (hnew : key ∉ log.map Prod.fst)
    (nBlock : Int) : (history.putHistory key nBlock).Lists (log ++ [(key, nBlock)]) := by
  have htop : history.getTop + 1 = (log.length : Int) := by
    rw [history.getTop_eq, h.size_eq]
    omega
  refine ⟨fun i => ?_, fun key' => ?_, ?_⟩
  · unfold COmniTxHistory.putHistory
    simp only [htop, ExtTreeMap.getElem?_insert, LawfulEqCmp.compare_eq_iff_eq, Nat.cast_inj,
      List.getElem?_append, h.byIndex]
    rcases Nat.lt_trichotomy i log.length with hlt | rfl | hlt
    · rw [if_neg (by omega), if_pos hlt]
    · simp
    · rw [if_neg (by omega), if_neg (by omega), List.getElem?_eq_none (by omega),
        List.getElem?_eq_none (by simp; omega)]
  · unfold COmniTxHistory.putHistory
    simp only [ExtTreeMap.getElem?_insert, LawfulEqCmp.compare_eq_iff_eq, List.map_append,
      List.mem_append, ← h.byKey]
    by_cases heq : key = key'
    · simp [heq]
    · rw [if_neg heq]
      exact ⟨.inl, fun hor => hor.resolve_right fun hmem => heq (by simpa [eq_comm] using hmem)⟩
  · rw [List.map_append]
    refine List.nodup_append.mpr ⟨h.distinct, List.nodup_singleton _, fun k hk k' hk' heq => ?_⟩
    rw [heq, List.mem_singleton.mp hk'] at hk
    exact hnew hk

theorem Lists.dropTop {key : Str} {nBlock : Int} (h : history.Lists (log ++ [(key, nBlock)])) :
    (history.dropTop key).Lists log := by
  have hsize : (history.byIndex.size - 1 : Int) = (log.length : Int) := by
    rw [h.size_eq, List.length_append, List.length_singleton]
    omega
  have hnodup := h.distinct
  rw [List.map_append, List.nodup_append] at hnodup
  refine ⟨fun i => ?_, fun key' => ?_, hnodup.1⟩
  · simp only [getElem?_dropTop, hsize, h.byIndex, Nat.cast_inj, List.getElem?_append]
    rcases Nat.lt_trichotomy i log.length with hlt | rfl | hlt
    · rw [if_neg (by omega), if_pos hlt]
    · simp
    · rw [if_neg (by omega), if_neg (by omega), List.getElem?_eq_none (by simp; omega),
        List.getElem?_eq_none (by omega)]
  · have hkey := h.byKey key'
    unfold COmniTxHistory.dropTop
    simp only [ExtTreeMap.getElem?_erase, LawfulEqCmp.compare_eq_iff_eq]
    by_cases heq : key = key'
    · subst heq
      rw [if_pos rfl]
      exact iff_of_false (by simp) fun hmem => hnodup.2.2 key hmem key (by simp) rfl
    · rw [if_neg heq, hkey, List.map_append, List.mem_append]
      exact ⟨fun hor => hor.resolve_right fun hmem => heq (by simpa [eq_comm] using hmem), .inl⟩

/-- **The rollback drops the newest records**, up to the first one of an earlier block. -/
theorem Lists.rollBackLoop {b : Int} {rounds : Nat} (h : history.Lists log)
    (hrounds : log.length ≤ rounds) :
    (COmniTxHistory.rollBackLoop b rounds history).Lists
      (log.rdropWhile fun p => decide (toUInt32 b ≤ toUInt32 p.2)) := by
  induction log using List.reverseRecOn generalizing history rounds with
  | nil =>
    have hnone : history.byIndex[history.getTop]? = none := by
      cases hget : history.byIndex[history.getTop]? with
      | none => rfl
      | some p =>
        have hsize := lt_size_of_getElem? hget
        rw [h.size_eq, List.length_nil] at hsize
        omega
    cases rounds with
    | zero => exact h
    | succ rounds =>
      unfold COmniTxHistory.rollBackLoop
      rw [hnone]
      exact h
  | append_singleton log p ih =>
    obtain ⟨key, historyBlock⟩ := p
    rw [List.length_append, List.length_singleton] at hrounds
    obtain ⟨rounds, rfl⟩ := Nat.exists_eq_add_one_of_ne_zero (by omega : rounds ≠ 0)
    have htop : history.getTop = (log.length : Int) := by
      rw [history.getTop_eq, h.size_eq, List.length_append, List.length_singleton]
      omega
    unfold COmniTxHistory.rollBackLoop
    rw [htop, h.byIndex]
    simp only [List.getElem?_concat_length]
    by_cases hlater : toUInt32 historyBlock ≥ toUInt32 b
    · rw [if_pos hlater, List.rdropWhile_concat_pos _ _ _ (by simpa using hlater)]
      exact ih h.dropTop (by omega)
    · rw [if_neg hlater, List.rdropWhile_concat_neg _ _ _ (by simpa using hlater)]
      exact h

theorem Lists.rollBackHistory (h : history.Lists log) (b : Int) :
    (history.rollBackHistory b).Lists
      (log.rdropWhile fun p => decide (toUInt32 b ≤ toUInt32 p.2)) :=
  h.rollBackLoop h.size_eq.ge

end COmniTxHistory

/-! ### Delivering payments -/

/-- The payment that a message brings. -/
def Message.payment? : Message → Option PaymentMessage
  | .payment message => some message
  | _ => none

/-- The key under which a payment is recorded. -/
def PaymentMessage.key (message : PaymentMessage) : Str := uint256ToString (uint256S message.txHash)

theorem uint256S_lt (text : Str) : uint256S text < 2 ^ 256 := Nat.mod_lt _ (by decide)

theorem PaymentMessage.uint256S_key (message : PaymentMessage) :
    uint256S message.key = uint256S message.txHash :=
  uint256S_uint256ToString (uint256S_lt _)

theorem PaymentMessage.key_eq_of_text {message message' : PaymentMessage}
    (h : message.txHash = message'.key) : message.key = message'.key := by
  rw [key, h, message'.uint256S_key, key]

theorem steady_payments (history : COmniTxHistory) :
    Steady nenv (fun _ => True) (fun n => n.paymentTxHistory = history)
      (fun _ n => n.paymentTxHistory = history) where
  parked _ _ _ _ _ := trivial
  handler n message hn _ := by
    have hpending : ∀ n' : Node, n.pendingPart n' = n' → n'.paymentTxHistory = history := by
      intro n' hframe
      rw [← hframe]
      exact hn
    have htx : ∀ n' : Node, n.txPart n' = n' → n'.paymentTxHistory = history := by
      intro n' hframe
      rw [← hframe]
      exact hn
    unfold mastercoreHandlerMptx
    simp only [wp_ite, wp_bind, wp_get, wp_modify, wp_pure]
    refine ⟨fun _ => ?_, fun _ => ⟨fun _ => hn, fun _ => ?_⟩⟩
    · exact wp_mono (frame_handleUnconfirmed message) (fun _ => hpending) fun _ => hpending
    · exact wp_mono (frame_processTransaction message) (fun _ => htx) fun _ => htx
  connect n message hn := by
    have hblock : ∀ n' : Node, n.blockPart n' = n' → n'.paymentTxHistory = history := by
      intro n' hframe
      rw [← hframe]
      exact hn
    exact wp_mono (frame_onblockconnectedP message) (fun _ => hblock) fun _ => hblock
  discard _ _ _ hn _ := hn
  raise _ hn := hn

theorem payments_of_deliver {message : Message} (hother : message.payment? = none)
    (hdeliver : deliver nenv n message = some n') : n'.paymentTxHistory = n.paymentTxHistory := by
  refine of_survive (P := fun u => u.paymentTxHistory = n.paymentTxHistory) hdeliver ?_
  cases message with
  | tx m =>
    change wp (mastercoreHandlerMptx nenv m >>= fun _ => pure ()) _ _ n
    rw [wp_bind]
    exact (steady_payments _).handler n m rfl trivial
  | payment m => cases hother
  | block m => exact (steady_payments _).omniOnblockconnected rfl

/-- **The log of the payments.**  Whatever the order of their blocks, payments of different transactions
are all recorded, in the order in which they are delivered. -/
theorem lists_of_deliverAll {messages : List Message} (hfresh : n.paymentTxHistory = {})
    (hdistinct : (messages.filterMap Message.payment?).Pairwise
      fun m m' => uint256S m.txHash ≠ uint256S m'.txHash)
    (hrun : deliverAll nenv n messages = some n') :
    n'.paymentTxHistory.Lists ((messages.filterMap Message.payment?).map fun m =>
      (m.key, toInt32 m.block)) := by
  refine foldlM_invariant (I := fun before u => u.paymentTxHistory.Lists
    ((before.filterMap Message.payment?).map fun m => (m.key, toInt32 m.block))) ?_ ?_ hrun
  · rw [hfresh]
    exact COmniTxHistory.lists_empty
  · intro before message after u u' hsplit _ hu hdeliver
    rw [List.filterMap_append, List.map_append]
    cases hpayment : message.payment? with
    | none =>
      rw [payments_of_deliver hpayment hdeliver]
      simpa [hpayment] using hu
    | some m =>
      obtain rfl : message = .payment m := by
        cases message with
        | payment m' => exact congrArg Message.payment (Option.some.inj hpayment)
        | tx _ => cases hpayment
        | block _ => cases hpayment
      have hother : ∀ m' ∈ before.filterMap Message.payment?, m'.key ≠ m.key := by
        intro m' hm' heq
        rw [hsplit, List.filterMap_append, List.pairwise_append] at hdistinct
        refine hdistinct.2.2 m' hm' m (by simp [Message.payment?]) ?_
        rw [← m'.uint256S_key, heq, m.uint256S_key]
      have hleads : m.Leads u u' := of_survive hdeliver (leads_omniProcesspayment m)
      have hkeys : ∀ key, key ∈ ((before.filterMap Message.payment?).map fun m =>
          (m.key, toInt32 m.block)).map Prod.fst →
            ∃ m' ∈ before.filterMap Message.payment?, m'.key = key := by
        intro key hkey
        rw [List.map_map] at hkey
        exact List.mem_map.mp hkey
      have hnew : ¬(u.paymentTxHistory.getHistory m.txHash).isSome = true := by
        intro hknown
        obtain ⟨m', hm', heq⟩ := hkeys _ ((hu.byKey _).mp hknown)
        exact hother m' hm' (PaymentMessage.key_eq_of_text heq.symm).symm
      unfold PaymentMessage.Leads at hleads
      rw [if_neg hnew] at hleads
      rw [hleads.1]
      simp only [List.filterMap_cons, Message.payment?, List.filterMap_nil, List.map_cons, List.map_nil]
      refine hu.putHistory (fun hmem => ?_) _
      obtain ⟨m', hm', heq⟩ := hkeys _ hmem
      exact hother m' hm' heq

/-! ### The rollback -/

/-- `RewindDBs` gives up the whole state: the height is not positive, a transaction about freezing is rolled
back, or there is no block whose files can be restored. -/
def Node.GivesUp (nenv : NodeEnv) (n : Node) (nHeight top : Int) : Prop :=
  nHeight ≤ 0 ∨ n.checkForFreezeTxs nHeight = true ∨
    ∃ best n', loadMostRelevantInMemoryStateEx nenv.fenv (n.rollBackDBs nHeight top) = .ok best n' ∧
      best < 0

/-- What `RewindDBs` leaves of the payments. -/
theorem payments_of_rewindDBs {nHeight top : Int} (hrun : rewindDBs nenv nHeight top n = .ok () n') :
    (n.GivesUp nenv nHeight top → n'.paymentTxHistory = {}) ∧
      (¬n.GivesUp nenv nHeight top →
        n'.paymentTxHistory = n.paymentTxHistory.rollBackHistory nHeight) := by
  suffices h : wp (rewindDBs nenv nHeight top) (fun _ n' =>
      (n.GivesUp nenv nHeight top → n'.paymentTxHistory = {}) ∧
        (¬n.GivesUp nenv nHeight top →
          n'.paymentTxHistory = n.paymentTxHistory.rollBackHistory nHeight)) (fun _ _ => True) n from
    (wp_ok hrun).mp h
  unfold rewindDBs
  simp only [wp_bind, wp_modify, wp_get, wp_ite, setWaterline]
  by_cases hpos : nHeight ≤ 0
  · have hgives : n.GivesUp nenv nHeight top := .inl hpos
    rw [if_pos hpos]
    refine ⟨fun _ => ⟨fun _ => rfl, fun hnot => absurd hgives hnot⟩, fun _ => ?_⟩
    refine wp_mono frame_loadMostRelevantInMemoryStateEx ?_ fun _ _ _ => trivial
    intro best u hframe
    refine ⟨fun _ => ⟨fun _ => rfl, fun hnot => absurd hgives hnot⟩, fun _ =>
      ⟨fun _ => ?_, fun hnot => absurd hgives hnot⟩⟩
    rw [hframe]
    rfl
  · rw [if_neg hpos]
    refine ⟨fun hfreeze => ⟨fun _ => rfl, fun hnot => absurd (.inr (.inl hfreeze)) hnot⟩, fun hfreeze => ?_⟩
    cases hload : loadMostRelevantInMemoryStateEx nenv.fenv (n.rollBackDBs nHeight top) with
    | error halt u => exact (wp_error hload).mpr trivial
    | ok best u =>
      have hframe := (wp_ok hload).mp frame_loadMostRelevantInMemoryStateEx
      have hgives : n.GivesUp nenv nHeight top ↔ best < 0 := by
        constructor
        · rintro (h | h | ⟨best', u', hload', hlt⟩)
          · exact absurd h hpos
          · exact absurd h hfreeze
          · rw [hload] at hload'
            cases hload'
            exact hlt
        · intro hlt
          exact .inr (.inr ⟨best, u, hload, hlt⟩)
      rw [hgives, wp_ok hload]
      refine ⟨fun hlt => ⟨fun _ => rfl, fun hnot => absurd hlt hnot⟩, fun hge =>
        ⟨fun hlt => absurd hlt hge, fun _ => ?_⟩⟩
      rw [hframe]
      rfl

/-- The payment is recorded. -/
def Node.HasPayment (n : Node) (message : PaymentMessage) : Prop :=
  (n.paymentTxHistory.getHistory message.key).isSome = true

/-- The payment is accepted when it is delivered. -/
def Node.AcceptsPayment (n : Node) (message : PaymentMessage) : Prop :=
  ¬(n.paymentTxHistory.getHistory message.txHash).isSome = true

/-- Rolling back to `h` treats the payments right: those from `h` on come after all others in the order of
delivery, and the hashes of the others are written as the node writes them.  If the state is given up,
there are no others. -/
def PaymentsFollow (nenv : NodeEnv) (n : Node) (h top : Int) (payments : List PaymentMessage) : Prop :=
  (n.GivesUp nenv h top → ∀ m ∈ payments, h ≤ m.block) ∧
    (¬n.GivesUp nenv h top →
      payments.Pairwise (fun m m' => h ≤ m.block → h ≤ m'.block) ∧
        ∀ m ∈ payments, m.block < h → IsCanonical m.txHash)

section Rollback

variable {payments : List PaymentMessage} {h : Int}

/-- The payments that a rollback to `h` leaves. -/
def paymentsLeft (h : Int) (payments : List PaymentMessage) : List PaymentMessage :=
  payments.rdropWhile fun m => decide (h ≤ m.block)

theorem rdropWhile_records (hpos : 0 ≤ h) (hh : h < 2 ^ 31)
    (hblocks : ∀ m ∈ payments, 0 ≤ m.block ∧ m.block < 2 ^ 31) :
    (payments.map fun m => (m.key, toInt32 m.block)).rdropWhile
        (fun p => decide (COmniTxHistory.toUInt32 h ≤ COmniTxHistory.toUInt32 p.2)) =
      (paymentsLeft h payments).map fun m => (m.key, toInt32 m.block) := by
  have hheight : COmniTxHistory.toUInt32 h = h := Int.emod_eq_of_lt hpos (by omega)
  induction payments using List.reverseRecOn with
  | nil => rfl
  | append_singleton payments m ih =>
    obtain ⟨hnonneg, hlt⟩ := hblocks m (List.mem_append_right _ (List.mem_singleton_self m))
    have hcast : COmniTxHistory.toUInt32 (toInt32 m.block) = m.block := by
      rw [toInt32_of_fits ⟨by omega, hlt⟩]
      exact Int.emod_eq_of_lt hnonneg (by omega)
    unfold paymentsLeft at ih ⊢
    rw [List.map_append, List.map_singleton]
    by_cases hlater : h ≤ m.block
    · rw [List.rdropWhile_concat_pos _ _ _ (by simpa [hheight, hcast] using hlater),
        List.rdropWhile_concat_pos _ _ _ (by simpa using hlater)]
      exact ih fun m' hm' => hblocks m' (List.mem_append_left _ hm')
    · rw [List.rdropWhile_concat_neg _ _ _ (by simpa [hheight, hcast] using hlater),
        List.rdropWhile_concat_neg _ _ _ (by simpa using hlater), List.map_append,
        List.map_singleton]

theorem paymentsLeft_append (h : Int) (payments : List PaymentMessage) :
    paymentsLeft h payments ++ payments.rtakeWhile (fun m => decide (h ≤ m.block)) = payments :=
  List.rdropWhile_append_rtakeWhile

theorem mem_of_mem_paymentsLeft {m : PaymentMessage} (hm : m ∈ paymentsLeft h payments) :
    m ∈ payments := by
  rw [← paymentsLeft_append h payments]
  exact List.mem_append_left _ hm

theorem mem_paymentsLeft_iff :
    (∀ m ∈ payments, m ∈ paymentsLeft h payments ↔ m.block < h) ↔
      payments.Pairwise fun m m' => h ≤ m.block → h ≤ m'.block := by
  constructor
  · intro hleft
    have hearly : ∀ m ∈ paymentsLeft h payments, ¬h ≤ m.block := fun m hm =>
      Int.not_le.mpr ((hleft m (mem_of_mem_paymentsLeft hm)).mp hm)
    have hlate : ∀ m ∈ payments.rtakeWhile fun m => decide (h ≤ m.block), h ≤ m.block := fun m hm => by
      simpa using List.mem_rtakeWhile_imp hm
    rw [← paymentsLeft_append h payments]
    refine List.pairwise_append.mpr ⟨?_, ?_, ?_⟩
    · exact List.pairwise_of_forall_mem_list fun m hm _ _ hle => absurd hle (hearly m hm)
    · exact List.pairwise_of_forall_mem_list fun _ _ m' hm' _ => hlate m' hm'
    · exact fun m hm _ _ hle => absurd hle (hearly m hm)
  · intro hfollow m hm
    have hfilter := COmniTxHistoryDB.rdropWhile_eq_filter_iff.mpr
      (hfollow.imp fun hle => by simpa using hle : payments.Pairwise fun m m' =>
        decide (h ≤ m.block) = true → decide (h ≤ m'.block) = true)
    rw [paymentsLeft, hfilter, List.mem_filter]
    simp [hm]

end Rollback

/-- **When exactly the payments from a block on can be delivered again.**  After any messages, with payments
of different transactions in any order of their blocks, and a rollback to `h`. -/
theorem payments_rolledBack_iff {messages : List Message} {h top : Int}
    (hfresh : n.paymentTxHistory = {})
    (hdistinct : (messages.filterMap Message.payment?).Pairwise
      fun m m' => uint256S m.txHash ≠ uint256S m'.txHash)
    (hblocks : ∀ m ∈ messages.filterMap Message.payment?, 0 ≤ m.block ∧ m.block < 2 ^ 31)
    (hrun : deliverAll nenv n messages = some n₁) (hh : h < 2 ^ 31)
    (hrewind : rewindDBs nenv h top n₁ = .ok () n₂) :
    (∀ m ∈ messages.filterMap Message.payment?,
        (n₂.HasPayment m ↔ m.block < h) ∧ (n₂.AcceptsPayment m ↔ h ≤ m.block)) ↔
      PaymentsFollow nenv n₁ h top (messages.filterMap Message.payment?) := by
  have hlists := lists_of_deliverAll hfresh hdistinct hrun
  obtain ⟨hgiven, hkept⟩ := payments_of_rewindDBs hrewind
  unfold PaymentsFollow Node.HasPayment Node.AcceptsPayment
  by_cases hgives : n₁.GivesUp nenv h top
  · rw [hgiven hgives]
    simp only [hgives, forall_const, not_true_eq_false, IsEmpty.forall_iff, and_true]
    refine forall₂_congr fun m _ => ?_
    simp [COmniTxHistory.getHistory]
  · have hpos : ¬h ≤ 0 := fun hle => hgives (.inl hle)
    have hleft := hlists.rollBackHistory h
    rw [rdropWhile_records (by omega) hh hblocks, ← hkept hgives] at hleft
    generalize messages.filterMap Message.payment? = payments at *
    -- a text is known if it is the key of a payment that is left
    have hknown : ∀ text, (n₂.paymentTxHistory.getHistory text).isSome = true ↔
        ∃ m ∈ paymentsLeft h payments, m.key = text := by
      intro text
      rw [COmniTxHistory.getHistory, hleft.byKey, List.map_map, List.mem_map]
      rfl
    have hsame : ∀ m ∈ payments, ∀ m' ∈ paymentsLeft h payments, m'.key = m.key → m' = m := by
      intro m hm m' hm' heq
      by_contra hne
      have hsymm : Std.Symm fun m m' : PaymentMessage => uint256S m.txHash ≠ uint256S m'.txHash :=
        ⟨fun _ _ hdiffer => hdiffer.symm⟩
      have hdiffer := hdistinct.forall (mem_of_mem_paymentsLeft hm') hm hne
      exact hdiffer (by rw [← m'.uint256S_key, heq, m.uint256S_key])
    have hhas : ∀ m ∈ payments, (n₂.paymentTxHistory.getHistory m.key).isSome = true ↔
        m ∈ paymentsLeft h payments := by
      intro m hm
      rw [hknown]
      refine ⟨?_, fun hmem => ⟨m, hmem, rfl⟩⟩
      rintro ⟨m', hm', heq⟩
      rwa [← hsame m hm m' hm' heq]
    have htext : ∀ m ∈ payments, (n₂.paymentTxHistory.getHistory m.txHash).isSome = true ↔
        m ∈ paymentsLeft h payments ∧ IsCanonical m.txHash := by
      intro m hm
      rw [hknown]
      constructor
      · rintro ⟨m', hm', heq⟩
        obtain rfl := hsame m hm m' hm' (PaymentMessage.key_eq_of_text heq.symm).symm
        exact ⟨hm', heq.symm⟩
      · rintro ⟨hmem, hcanonical⟩
        exact ⟨m, hmem, hcanonical.symm⟩
    simp only [hgives, IsEmpty.forall_iff, not_false_eq_true, forall_const, true_and]
    rw [← mem_paymentsLeft_iff]
    constructor
    · intro hall
      have hiff : ∀ m ∈ payments, m ∈ paymentsLeft h payments ↔ m.block < h :=
        fun m hm => (hhas m hm).symm.trans (hall m hm).1
      refine ⟨hiff, fun m hm hlt => ?_⟩
      have hrefused : ¬¬(n₂.paymentTxHistory.getHistory m.txHash).isSome = true := fun haccepts =>
        absurd ((hall m hm).2.mp haccepts) (Int.not_le.mpr hlt)
      exact ((htext m hm).mp (not_not.mp hrefused)).2
    · rintro ⟨hiff, hcanonical⟩ m hm
      refine ⟨(hhas m hm).trans (hiff m hm), ?_⟩
      rw [htext m hm, hiff m hm]
      constructor
      · intro hnot
        by_contra hlt
        exact hnot ⟨Int.not_le.mp hlt, hcanonical m hm (Int.not_le.mp hlt)⟩
      · intro hle hboth
        exact absurd hboth.1 (Int.not_lt.mpr hle)

/-! ### Payments out of order -/

/-- A payment of a block, by the transaction with the given hash. -/
def paymentAt (hash : Hash) (block : Int) : PaymentMessage :=
  { samplePayment "seller" 0 with txHash := uint256ToString hash, block := block }

theorem COmniTxHistory.eq_empty {history : COmniTxHistory} (hindex : history.byIndex.isEmpty = true)
    (hkey : history.byKey.isEmpty = true) : history = {} := by
  obtain ⟨byIndex, byKey, dense⟩ := history
  obtain rfl : byIndex = ∅ := ExtTreeMap.isEmpty_iff.mp hindex
  obtain rfl : byKey = ∅ := ExtTreeMap.isEmpty_iff.mp hkey
  rfl

/-- The node with block 50000 and all its files. -/
def storedNode : Option Node :=
  (System.actAll sampleNodeEnv { node := sampleNode } storedActions).map System.node

theorem exists_rolledBack {first second : PaymentMessage} {value : Bool}
    (h : storedNode.bind (fun n => (deliverAll sampleNodeEnv n [.payment first, .payment second]).bind
      fun n₁ => (okResult (rewindDBs sampleNodeEnv 50008 50000) (fun n₂ => (n₂.waterlineBlock,
        (n₂.paymentTxHistory.getHistory first.key).isSome)) n₁).map fun w =>
          (n.paymentTxHistory.byIndex.isEmpty, n.paymentTxHistory.byKey.isEmpty, w.2)) =
      some (true, true, 50000, value)) :
    ∃ n n₁ n₂, n.paymentTxHistory = {} ∧
      deliverAll sampleNodeEnv n [.payment first, .payment second] = some n₁ ∧
      rewindDBs sampleNodeEnv 50008 50000 n₁ = .ok () n₂ ∧ n₂.waterlineBlock = 50000 ∧
      (n₂.paymentTxHistory.getHistory first.key).isSome = value := by
  obtain ⟨n, -, hn⟩ := Option.bind_eq_some_iff.mp h
  obtain ⟨n₁, hrun, hn₁⟩ := Option.bind_eq_some_iff.mp hn
  obtain ⟨w, hresult, hvalues⟩ := Option.map_eq_some_iff.mp hn₁
  simp only [Prod.mk.injEq] at hvalues
  obtain ⟨hindex, hkey, hw⟩ := hvalues
  obtain ⟨n₂, hrewind, hafter⟩ := exists_of_okResult (show _ = some ((), w.2) from hresult)
  rw [hw, Prod.mk.injEq] at hafter
  exact ⟨n, n₁, n₂, COmniTxHistory.eq_empty hindex hkey, hrun, hrewind, hafter.1, hafter.2⟩

/-- Two payments in the order of their blocks, the second of which is rolled back. -/
theorem payments_rolledBack_iff_ordered :
    ∃ n₁ n₂, rewindDBs sampleNodeEnv 50008 50000 n₁ = .ok () n₂ ∧
      ((∀ m ∈ [paymentAt 7 50005, paymentAt 8 50010],
          (n₂.HasPayment m ↔ m.block < 50008) ∧ (n₂.AcceptsPayment m ↔ 50008 ≤ m.block)) ↔
        PaymentsFollow sampleNodeEnv n₁ 50008 50000 [paymentAt 7 50005, paymentAt 8 50010]) := by
  obtain ⟨n, n₁, n₂, hfresh, hrun, hrewind, -⟩ :=
    @exists_rolledBack (paymentAt 7 50005) (paymentAt 8 50010) true (by decide +kernel)
  refine ⟨n₁, n₂, hrewind, ?_⟩
  exact payments_rolledBack_iff hfresh
    (by decide +kernel : ([Message.payment (paymentAt 7 50005), .payment (paymentAt 8 50010)].filterMap
      Message.payment?).Pairwise fun m m' => uint256S m.txHash ≠ uint256S m'.txHash)
    (by decide +kernel) hrun (by decide) hrewind

/-- **A payment of a later block stays.**  It was delivered before one of an earlier block, at which the
rollback stops. -/
theorem exists_payment_stays :
    ∃ n n₁ n₂, n.paymentTxHistory = {} ∧
      deliverAll sampleNodeEnv n [.payment (paymentAt 7 50010), .payment (paymentAt 8 50005)] =
        some n₁ ∧ rewindDBs sampleNodeEnv 50008 50000 n₁ = .ok () n₂ ∧
      n₂.waterlineBlock = 50000 ∧ n₂.HasPayment (paymentAt 7 50010) :=
  exists_rolledBack (by decide +kernel)

end HcOmni
