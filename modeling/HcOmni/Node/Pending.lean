import HcOmni.Conformance.Basic
import HcOmni.Node.Rpc
import HcOmni.Runs.Invariant

/-!
# The pending ledger

`pending.cpp`: a pending transaction takes its amount from the pending tally of its source and adds
it to that of its destination; when it is confirmed, it is removed and the amounts are given back.

Adding and removing look at different things, so the tallies are the sum over the entries only as
long as nothing is added under the hash of an entry, and every entry is removed in a state in which
what is given back is what was taken.
-/

namespace HcOmni

open Std MapSum Program CMPTally State

/-! ### Calls -/

/-- The calls that touch the ledger. -/
inductive PendingOp where
  /-- `PendingAdd` as `omni_pending_add` calls it, without a destination -/
  | wallet (txid : Hash) (fromAddress : Address) (type : Nat) (propertyId : PropertyId)
      (amount : Int) (fSubtract : Bool)
  /-- `PendingAdd` as a message with block 0 leads to it, without a source -/
  | unconfirmed (txid : Hash) (reference : Address) (propertyId : PropertyId) (amount : Int)
  /-- `PendingDelete` -/
  | delete (txid : Hash)
  deriving DecidableEq, Repr

namespace PendingOp

def exec : PendingOp → NodeOp Unit
  | .wallet txid fromAddress type propertyId amount fSubtract =>
      pendingAdd txid fromAddress [] type propertyId amount fSubtract
  | .unconfirmed txid reference propertyId amount =>
      pendingAdd txid [] reference MSC_TYPE_SIMPLE_SEND propertyId amount true
  | .delete txid => pendingDelete txid

/-- The node after a call, however it ends. -/
def apply (n : Node) (op : PendingOp) : Node :=
  match op.exec n with
  | .ok _ n' => n'
  | .error _ n' => n'

/-- Whether the entry under each hash was added with subtraction, for the calls made so far. -/
def noteSubtracted (subtracted : Hash → Bool) : PendingOp → Hash → Bool
  | .wallet txid _ _ _ _ fSubtract => Function.update subtracted txid fSubtract
  | .unconfirmed txid _ _ _ => Function.update subtracted txid true
  | .delete _ => subtracted

end PendingOp

/-- The node after some calls. -/
def pendingRun (n : Node) (ops : List PendingOp) : Node := ops.foldl PendingOp.apply n

def subtractedBy (ops : List PendingOp) : Hash → Bool :=
  ops.foldl PendingOp.noteSubtracted fun _ => true

/-- What an entry means for the pending tally of an address: minus its amount for the source, if
it was added with subtraction, and its amount for the destination of a simple send. -/
def CMPPending.contribution (pending : CMPPending) (subtracted : Bool) (a : Address)
    (p : PropertyId) : Int :=
  (if subtracted ∧ pending.src ≠ [] ∧ pending.src = a ∧ pending.prop = p then -pending.amount
    else 0) +
  if pending.type = MSC_TYPE_SIMPLE_SEND ∧ pending.dst ≠ [] ∧ pending.dst = a ∧ pending.prop = p then
    pending.amount
  else 0

/-- **The ledger.**  The pending tallies are the sum over the entries. -/
def Node.PendingBooked (n : Node) (subtracted : Hash → Bool) : Prop :=
  ∀ a p, n.core.money a p .PENDING =
    mapSum n.myPending fun txid pending => pending.contribution (subtracted txid) a p

/-! ### Updates of the pending tally -/

/-- Whether an update of the pending tally succeeds. -/
def State.pends (s : State) (a : Address) (p : PropertyId) (amount : Int) : Bool :=
  decide (amount ≠ 0) && !isOverflow (s.money a p .PENDING) amount

theorem updateTallyMap_pending (s : State) (a : Address) (p : PropertyId) (amount : Int) :
    ∃ s', updateTallyMap a p amount .PENDING s = .ok (s.pends a p amount) s' ∧
      ∀ b q t, s'.money b q t = s.money b q t +
        if s.pends a p amount = true ∧ a = b ∧ p = q ∧ .PENDING = t then amount else 0 := by
  by_cases hzero : amount = 0
  · refine ⟨s, ?_, by simp [pends, hzero]⟩
    simp [updateTallyMap, hzero, pends, pure, EStateM.pure]
  · have hrun : updateTallyMap a p amount .PENDING s =
        .ok ((s.mpTallyMap.getD a {}).updateMoney p amount .PENDING).1
          { s with mpTallyMap :=
              s.mpTallyMap.insert a ((s.mpTallyMap.getD a {}).updateMoney p amount .PENDING).2 } := by
      simp [updateTallyMap, hzero, assertThat, bind, EStateM.bind, pure, EStateM.pure, get,
        getThe, MonadStateOf.get, EStateM.get, set, EStateM.set]
    have hnow : ((s.mpTallyMap.getD a {}).record p).get .PENDING = s.money a p .PENDING := by
      rw [get_record, getMoney_getD]
    rw [hrun]
    by_cases hover : isOverflow (s.money a p .PENDING) amount = true
    · have hupdate : (s.mpTallyMap.getD a {}).updateMoney p amount .PENDING =
          (false, (s.mpTallyMap.getD a {}).add p 0 .PENDING) := by
        simp [updateMoney, hzero, hnow, hover, setRecord_record]
      refine ⟨s.addTally a p 0 .PENDING, by simp [hupdate, pends, hover, addTally], ?_⟩
      intro b q t
      rw [money_addTally]
      simp [pends, hover]
    · have hupdate : (s.mpTallyMap.getD a {}).updateMoney p amount .PENDING =
          (true, (s.mpTallyMap.getD a {}).add p amount .PENDING) := by
        simp [updateMoney, hzero, hnow, hover]
      have hpends : s.pends a p amount = true := by simp [pends, hzero, hover]
      refine ⟨s.addTally a p amount .PENDING, by simp [hupdate, hpends, addTally], ?_⟩
      intro b q t
      rw [money_addTally]
      simp [hpends]

theorem engine_of_ok {α : Type} {m : Op α} {n : Node} {a : α} {s : State}
    (h : m n.core = .ok a s) : engine m n = .ok a { n with core := s } := by
  simp [engine, h]

theorem updatePendingIf_eq (n : Node) (wanted : Bool) (a : Address) (p : PropertyId)
    (amount : Int) :
    ∃ s', updatePendingIf wanted a p amount n =
        .ok (!wanted || n.core.pends a p amount) { n with core := s' } ∧
      ∀ b q t, s'.money b q t = n.core.money b q t +
        if (wanted && n.core.pends a p amount) = true ∧ a = b ∧ p = q ∧ .PENDING = t then amount
        else 0 := by
  cases wanted with
  | false => exact ⟨n.core, rfl, by simp⟩
  | true =>
    obtain ⟨s', hrun, hmoney⟩ := updateTallyMap_pending n.core a p amount
    refine ⟨s', ?_, by simpa using hmoney⟩
    simp [updatePendingIf, engine_of_ok hrun]

/-! ### What the calls do -/

section Calls

variable (n : Node) (txid : Hash) (src dst : Address) (type : Nat) (p : PropertyId) (amount : Int)
  (fSubtract : Bool)

variable {n} in
theorem apply_of_ok {op : PendingOp} {n' : Node} (h : op.exec n = .ok () n') : op.apply n = n' := by
  simp [PendingOp.apply, h]

variable {amount} in
/-- A call with a source only: the amount is taken, or refused, in which case nothing is added. -/
theorem exec_wallet (hrange : MIN_INT_8_BYTES < amount ∧ amount ≤ MAX_INT_8_BYTES) :
    ∃ s', (PendingOp.wallet txid src type p amount fSubtract).exec n = .ok ()
        (if !(fSubtract && !src.isEmpty) || n.core.pends src p (-amount) then
          { n with
            core := s'
            myPending := n.myPending.insertIfNew txid ⟨src, [], amount, p, type⟩ }
        else { n with core := s' }) ∧
      ∀ b q t, s'.money b q t = n.core.money b q t +
        if ((fSubtract && !src.isEmpty) && n.core.pends src p (-amount)) = true ∧ src = b ∧ p = q ∧
          .PENDING = t then -amount else 0 := by
  have hneg : toInt64 (-amount) = -amount := by
    unfold MIN_INT_8_BYTES MAX_INT_8_BYTES at hrange
    refine toInt64_of_range ?_ ?_
    · unfold MIN_INT_8_BYTES; omega
    · unfold MAX_INT_8_BYTES; omega
  obtain ⟨s', hrun, hmoney⟩ :=
    updatePendingIf_eq n (fSubtract && !src.isEmpty) src p (toInt64 (-amount))
  rw [hneg] at hrun hmoney
  refine ⟨s', ?_, hmoney⟩
  change pendingAdd txid src [] type p amount fSubtract n = _
  unfold pendingAdd
  rw [hneg, bind_of_ok hrun]
  by_cases hok : (!(fSubtract && !src.isEmpty) || n.core.pends src p (-amount)) = true
  · have hdestination : ∀ n' : Node, updatePendingIf (fSubtract && type == MSC_TYPE_SIMPLE_SEND &&
        !([] : Address).isEmpty) [] p amount n' = .ok true n' := fun n' => by
      simp [updatePendingIf, pure, EStateM.pure]
    rw [if_pos hok, if_pos hok, bind_of_ok (hdestination _)]
    rfl
  · rw [if_neg hok, if_neg hok]
    rfl

theorem exec_unconfirmed :
    ∃ s', (PendingOp.unconfirmed txid dst p amount).exec n = .ok ()
        (if dst.isEmpty || n.core.pends dst p amount then
          { n with
            core := s'
            myPending := n.myPending.insertIfNew txid ⟨[], dst, amount, p, MSC_TYPE_SIMPLE_SEND⟩ }
        else { n with core := s' }) ∧
      ∀ b q t, s'.money b q t = n.core.money b q t +
        if (!dst.isEmpty && n.core.pends dst p amount) = true ∧ dst = b ∧ p = q ∧ .PENDING = t then
          amount else 0 := by
  obtain ⟨s', hrun, hmoney⟩ := updatePendingIf_eq n (!dst.isEmpty) dst p amount
  rw [Bool.not_not] at hrun
  refine ⟨s', ?_, hmoney⟩
  have hsource : updatePendingIf (true && !([] : Address).isEmpty) [] p (toInt64 (-amount)) n =
      .ok true n := rfl
  change pendingAdd txid [] dst MSC_TYPE_SIMPLE_SEND p amount true n = _
  unfold pendingAdd
  rw [bind_of_ok hsource, if_pos rfl]
  simp only [Bool.true_and, BEq.rfl]
  rw [bind_of_ok hrun]
  by_cases hok : (dst.isEmpty || n.core.pends dst p amount) = true
  · rw [if_pos hok, if_pos hok]
    rfl
  · rw [if_neg hok, if_neg hok]
    rfl

variable {n txid} in
theorem exec_delete_of_none (h : n.myPending[txid]? = none) :
    (PendingOp.delete txid).exec n = .ok () n := by
  change pendingDelete txid n = _
  unfold pendingDelete
  rw [bind_of_ok (rfl : (get : NodeOp Node) n = .ok n n), h]
  rfl

variable {n txid} in
/-- The removal of an entry without a destination: the source gets its amount back, if it has a
pending amount. -/
theorem exec_delete {pending : CMPPending} (h : n.myPending[txid]? = some pending)
    (hdst : pending.dst = []) :
    ∃ s', (PendingOp.delete txid).exec n = .ok ()
        { n with core := s', myPending := n.myPending.erase txid } ∧
      ∀ b q t, s'.money b q t = n.core.money b q t +
        if ((decide (n.core.money pending.src pending.prop .PENDING ≠ 0) && !pending.src.isEmpty) &&
            n.core.pends pending.src pending.prop pending.amount) = true ∧ pending.src = b ∧
          pending.prop = q ∧ .PENDING = t then pending.amount else 0 := by
  obtain ⟨s', hrun, hmoney⟩ := updatePendingIf_eq n
    (decide (n.core.money pending.src pending.prop .PENDING ≠ 0) && !pending.src.isEmpty)
    pending.src pending.prop pending.amount
  refine ⟨s', ?_, hmoney⟩
  have hbalance : n.core.getTokenBalance pending.src pending.prop .PENDING =
      n.core.money pending.src pending.prop .PENDING := by simp [getTokenBalance]
  have hdestination : ∀ n' : Node, updatePendingIf
      (decide (n.core.money pending.src pending.prop .PENDING ≠ 0) &&
        pending.type == MSC_TYPE_SIMPLE_SEND && !pending.dst.isEmpty) pending.dst pending.prop
      (toInt64 (-pending.amount)) n' = .ok true n' := fun n' => by
    simp [updatePendingIf, hdst, pure, EStateM.pure]
  change pendingDelete txid n = _
  unfold pendingDelete
  rw [bind_of_ok (rfl : (get : NodeOp Node) n = .ok n n), h]
  simp only [hbalance]
  rw [bind_of_ok hrun, bind_of_ok (hdestination _)]
  rfl

end Calls

/-! ### Other amounts -/

/-- Calls that change no amounts but pending ones. -/
def pendingOnly : Contract Halt Node where
  rel n n' := ∀ a p (t : TallyType), t ≠ .PENDING → n'.core.money a p t = n.core.money a p t
  refl _ _ _ _ _ := rfl
  trans h h' a p t ht := (h' a p t ht).trans (h a p t ht)
  live _ := True
  bad _ := False

section Frame

variable {n : Node}

theorem conforms_updatePendingIf (wanted : Bool) (a : Address) (p : PropertyId) (amount : Int) :
    Conforms pendingOnly (updatePendingIf wanted a p amount) (fun _ _ => True) n := by
  obtain ⟨s', hrun, hmoney⟩ := updatePendingIf_eq n wanted a p amount
  unfold Conforms
  rw [wp_ok hrun]
  refine ⟨fun b q t ht => ?_, trivial⟩
  rw [hmoney, if_neg fun h => ht h.2.2.2.symm, Int.add_zero]

theorem conforms_pendingAdd (txid : Hash) (src dst : Address) (type : Nat) (p : PropertyId)
    (amount : Int) (fSubtract : Bool) :
    Conforms pendingOnly (pendingAdd txid src dst type p amount fSubtract) (fun _ _ => True) n := by
  unfold pendingAdd
  refine (conforms_updatePendingIf _ _ _ _).bind fun _ _ _ _ => ?_
  refine Conforms.ite (fun _ => ?_) fun _ => Conforms.pure trivial
  refine (conforms_updatePendingIf _ _ _ _).bind fun _ _ _ _ => ?_
  refine Conforms.ite (fun _ => ?_) fun _ => Conforms.pure trivial
  exact Conforms.modify (fun _ _ _ _ => rfl) trivial

theorem conforms_pendingDelete (txid : Hash) :
    Conforms pendingOnly (pendingDelete txid) (fun _ _ => True) n := by
  unfold pendingDelete
  refine Conforms.get ?_
  cases n.myPending[txid]? with
  | none => exact Conforms.pure trivial
  | some pending =>
    refine (conforms_updatePendingIf _ _ _ _).bind fun _ _ _ _ => ?_
    refine (conforms_updatePendingIf _ _ _ _).bind fun _ _ _ _ => ?_
    exact Conforms.modify (fun _ _ _ _ => rfl) trivial

theorem money_apply (op : PendingOp) {a : Address} {p : PropertyId} {t : TallyType}
    (ht : t ≠ .PENDING) : (op.apply n).core.money a p t = n.core.money a p t := by
  have hconforms : Conforms pendingOnly op.exec (fun _ _ => True) n := by
    cases op with
    | wallet => exact conforms_pendingAdd ..
    | unconfirmed => exact conforms_pendingAdd ..
    | delete => exact conforms_pendingDelete _
  unfold PendingOp.apply
  cases hexec : op.exec n with
  | ok _ n' => exact ((wp_ok hexec).mp hconforms).1 a p t ht
  | error halt n' => exact ((wp_error hexec).mp hconforms).1 trivial a p t ht

theorem money_pendingRun (ops : List PendingOp) {a : Address} {p : PropertyId} {t : TallyType}
    (ht : t ≠ .PENDING) : (pendingRun n ops).core.money a p t = n.core.money a p t := by
  induction ops generalizing n with
  | nil => rfl
  | cons op ops ih => exact ih.trans (money_apply op ht)

end Frame

/-! ### The ledger along a run -/

/-- The calls that keep the ledger: nothing is added under the hash of an entry, and an entry is
removed only if it has no destination, and if its source has a pending amount exactly in case
the entry took something from it. -/
def PendingOp.Balanced (subtracted : Hash → Bool) (n : Node) : PendingOp → Prop
  | .wallet txid _ _ _ amount _ =>
      n.myPending[txid]? = none ∧ MIN_INT_8_BYTES < amount ∧ amount ≤ MAX_INT_8_BYTES
  | .unconfirmed txid _ _ _ => n.myPending[txid]? = none
  | .delete txid => ∀ pending, n.myPending[txid]? = some pending → pending.dst = [] ∧
      (pending.src ≠ [] →
        if subtracted txid then
          n.core.money pending.src pending.prop .PENDING ≠ 0 ∧
            n.core.pends pending.src pending.prop pending.amount = true
        else n.core.money pending.src pending.prop .PENDING = 0 ∨ pending.amount = 0)

section Ledger

variable {n : Node} {subtracted : Hash → Bool}

theorem Node.PendingBooked.insert {txid : Hash} {pending : CMPPending} {flag : Bool} {s' : State}
    (h : n.PendingBooked subtracted) (hfresh : n.myPending[txid]? = none)
    (hmoney : ∀ a p, s'.money a p .PENDING =
      n.core.money a p .PENDING + pending.contribution flag a p) :
    ({ n with core := s', myPending := n.myPending.insertIfNew txid pending } : Node).PendingBooked
      (Function.update subtracted txid flag) := by
  intro a p
  change s'.money a p .PENDING = mapSum (n.myPending.insertIfNew txid pending) _
  rw [insertIfNew_of_none hfresh, mapSum_insert_new hfresh, hmoney, h a p, Function.update_self,
    Int.add_comm]
  congr 1
  refine mapSum_congr fun txid' _ hget => ?_
  have hne : txid' ≠ txid := by
    rintro rfl
    rw [hfresh] at hget
    cases hget
  rw [Function.update_of_ne hne]

theorem Node.PendingBooked.note {txid : Hash} {flag : Bool} {s' : State}
    (h : n.PendingBooked subtracted) (hfresh : n.myPending[txid]? = none)
    (hmoney : ∀ a p, s'.money a p .PENDING = n.core.money a p .PENDING) :
    ({ n with core := s' } : Node).PendingBooked (Function.update subtracted txid flag) := by
  intro a p
  change s'.money a p .PENDING = mapSum n.myPending _
  rw [hmoney, h a p]
  refine mapSum_congr fun txid' _ hget => ?_
  have hne : txid' ≠ txid := by
    rintro rfl
    rw [hfresh] at hget
    cases hget
  rw [Function.update_of_ne hne]

theorem Node.PendingBooked.erase {txid : Hash} {pending : CMPPending} {s' : State}
    (h : n.PendingBooked subtracted) (hget : n.myPending[txid]? = some pending)
    (hmoney : ∀ a p, s'.money a p .PENDING =
      n.core.money a p .PENDING - pending.contribution (subtracted txid) a p) :
    ({ n with core := s', myPending := n.myPending.erase txid } : Node).PendingBooked
      subtracted := by
  intro a p
  change s'.money a p .PENDING = mapSum (n.myPending.erase txid) _
  rw [hmoney, h a p, mapSum_split n.myPending _ txid, weightAt_some hget]
  omega

theorem Node.PendingBooked.apply {op : PendingOp} (h : n.PendingBooked subtracted)
    (hop : op.Balanced subtracted n) :
    (op.apply n).PendingBooked (op.noteSubtracted subtracted) := by
  cases op with
  | wallet txid src type p amount fSubtract =>
    obtain ⟨hfresh, hrange⟩ := hop
    obtain ⟨s', hexec, hmoney⟩ := exec_wallet n txid src type p fSubtract hrange
    rw [apply_of_ok hexec]
    by_cases hok : (!(fSubtract && !src.isEmpty) || n.core.pends src p (-amount)) = true
    · rw [if_pos hok]
      refine h.insert hfresh fun a q => ?_
      rw [hmoney]
      congr 1
      by_cases hwanted : (fSubtract && !src.isEmpty) = true
      · have hpends : n.core.pends src p (-amount) = true := by simpa [hwanted] using hok
        simp only [Bool.and_eq_true, Bool.not_eq_true', List.isEmpty_eq_false_iff] at hwanted
        simp [CMPPending.contribution, hwanted, hpends]
      · have hnone : ¬(fSubtract = true ∧ src ≠ [] ∧ src = a ∧ p = q) := by
          rintro ⟨hsub, hsrc, -⟩
          simp [hsub, hsrc] at hwanted
        simp [CMPPending.contribution, hwanted, hnone]
    · rw [if_neg hok]
      refine h.note hfresh fun a q => ?_
      have hrefused : n.core.pends src p (-amount) = false := by
        simp only [Bool.or_eq_true, not_or, Bool.not_eq_true] at hok
        exact hok.2
      rw [hmoney, hrefused]
      simp
  | unconfirmed txid dst p amount =>
    obtain ⟨s', hexec, hmoney⟩ := exec_unconfirmed n txid dst p amount
    rw [apply_of_ok hexec]
    by_cases hok : (dst.isEmpty || n.core.pends dst p amount) = true
    · rw [if_pos hok]
      refine h.insert hop fun a q => ?_
      rw [hmoney]
      congr 1
      by_cases hdst : dst = []
      · simp [CMPPending.contribution, hdst]
      · have hpends : n.core.pends dst p amount = true := by simpa [hdst] using hok
        simp [CMPPending.contribution, hdst, hpends]
    · rw [if_neg hok]
      refine h.note hop fun a q => ?_
      have hrefused : n.core.pends dst p amount = false := by
        simp only [Bool.or_eq_true, not_or, Bool.not_eq_true] at hok
        exact hok.2
      rw [hmoney, hrefused]
      simp
  | delete txid =>
    cases hget : n.myPending[txid]? with
    | none =>
      rw [apply_of_ok (exec_delete_of_none hget)]
      exact h
    | some pending =>
      obtain ⟨hdst, hsource⟩ := hop pending hget
      obtain ⟨s', hexec, hmoney⟩ := exec_delete hget hdst
      rw [apply_of_ok hexec]
      refine h.erase hget fun a q => ?_
      rw [hmoney, Int.sub_eq_add_neg]
      congr 1
      by_cases hsrc : pending.src = []
      · simp [CMPPending.contribution, hsrc, hdst]
      · have hcase := hsource hsrc
        cases hflag : subtracted txid with
        | true =>
          rw [hflag, if_pos rfl] at hcase
          by_cases hplace : pending.src = a ∧ pending.prop = q
          · obtain ⟨rfl, rfl⟩ := hplace
            simp [CMPPending.contribution, hcase, hsrc, hdst]
          · simp [CMPPending.contribution, hdst, hplace]
        | false =>
          rw [hflag, if_neg (by simp)] at hcase
          rcases hcase with hnone | hamount
          · simp [CMPPending.contribution, hsrc, hdst, hnone]
          · simp [CMPPending.contribution, hsrc, hdst, hamount]

/-- **The ledger along a run.** -/
theorem booked_pendingRun {ops : List PendingOp} (hempty : n.myPending = ∅)
    (hzero : ∀ a p, n.core.money a p .PENDING = 0)
    (hbalanced : ∀ before op after, ops = before ++ op :: after →
      op.Balanced (subtractedBy before) (pendingRun n before)) :
    (pendingRun n ops).PendingBooked (subtractedBy ops) := by
  induction ops using List.reverseRecOn with
  | nil =>
    intro a p
    change n.core.money a p .PENDING = mapSum n.myPending _
    rw [hzero, hempty, mapSum_empty]
  | append_singleton ops op ih =>
    have hbooked := ih fun before op' after hsplit =>
      hbalanced before op' (after ++ [op]) (by rw [hsplit]; simp)
    have hstep := hbooked.apply (hbalanced ops op [] rfl)
    simpa only [pendingRun, subtractedBy, List.foldl_append, List.foldl_cons, List.foldl_nil]
      using hstep

end Ledger

/-- **The pending tallies are the sum over the pending transactions**, as long as nothing is added
under the hash of an entry, and every entry is removed while what is given back is what was taken.
Once there are no entries, everything is available. -/
theorem pendingRun_booked {n : Node} {ops : List PendingOp} (hempty : n.myPending = ∅)
    (hzero : ∀ a p, n.core.money a p .PENDING = 0)
    (hrange : ∀ a p, MIN_INT_8_BYTES ≤ n.core.money a p .BALANCE ∧
      n.core.money a p .BALANCE ≤ MAX_INT_8_BYTES)
    (hbalanced : ∀ before op after, ops = before ++ op :: after →
      op.Balanced (subtractedBy before) (pendingRun n before)) :
    (∀ a p, (pendingRun n ops).core.getTokenBalance a p .PENDING =
      mapSum (pendingRun n ops).myPending fun txid pending =>
        pending.contribution (subtractedBy ops txid) a p) ∧
    ((pendingRun n ops).myPending = ∅ → ∀ a p,
      (pendingRun n ops).core.getTokenBalance a p .PENDING = 0 ∧
      (pendingRun n ops).core.getAvailableTokenBalance a p =
        (pendingRun n ops).core.getTokenBalance a p .BALANCE) := by
  have hpending : ∀ a p, (pendingRun n ops).core.getTokenBalance a p .PENDING =
      (pendingRun n ops).core.money a p .PENDING := fun _ _ => by simp [getTokenBalance]
  have hbooked := booked_pendingRun hempty hzero hbalanced
  constructor
  · intro a p
    rw [hpending]
    exact hbooked a p
  · intro hnone a p
    have hpend : (pendingRun n ops).core.getTokenBalance a p .PENDING = 0 := by
      rw [hpending, hbooked a p, hnone, mapSum_empty]
    refine ⟨hpend, ?_⟩
    have hbalance : (pendingRun n ops).core.getTokenBalance a p .BALANCE =
        n.core.money a p .BALANCE := by
      rw [← money_pendingRun ops (by decide : TallyType.BALANCE ≠ .PENDING)]
      simp [getTokenBalance]
    unfold getAvailableTokenBalance
    rw [hpend, hbalance, Int.add_zero]
    exact toInt64_of_range (hrange a p).1 (hrange a p).2

/-- A node that has seen nothing. -/
def sampleNode : Node := { core := State.empty sampleEnv mainConsensusParams }

/-- A transaction of the wallet, and its confirmation. -/
theorem pendingRun_booked_confirmed :
    (pendingRun sampleNode
      [.wallet 7 "alice".toList 0 1 5 true, .delete 7]).core.getAvailableTokenBalance
        "alice".toList 1 =
      (pendingRun sampleNode
        [.wallet 7 "alice".toList 0 1 5 true, .delete 7]).core.getTokenBalance
          "alice".toList 1 .BALANCE := by
  refine ((pendingRun_booked rfl (fun _ _ => by simp [sampleNode, State.empty, money])
    (fun _ _ => by simp [sampleNode, State.empty, money, MIN_INT_8_BYTES, MAX_INT_8_BYTES]) ?_).2
    (ExtTreeMap.isEmpty_iff.mp (by decide +kernel)) _ _).2
  intro before op after hsplit
  rcases before with _ | ⟨first, _ | ⟨second, rest⟩⟩
  · simp only [List.nil_append, List.cons.injEq] at hsplit
    rw [← hsplit.1]
    exact ⟨by decide +kernel, by decide⟩
  · simp only [List.cons_append, List.nil_append, List.cons.injEq] at hsplit
    rw [← hsplit.1, ← hsplit.2.1]
    intro pending hget
    have hentry : (pendingRun sampleNode [.wallet 7 "alice".toList 0 1 5 true]).myPending[7]? =
        some ⟨"alice".toList, [], 5, 1, 0⟩ := by decide +kernel
    rw [hentry] at hget
    cases hget
    refine ⟨rfl, fun _ => ?_⟩
    rw [if_pos (by decide)]
    decide +kernel
  · simp at hsplit

/-- An unconfirmed send to an address, and its confirmation: no entry is left, but the pending
amount of the address is. -/
theorem exists_pending_amount_left :
    ∃ ops : List PendingOp, (pendingRun sampleNode ops).myPending = ∅ ∧
      (pendingRun sampleNode ops).core.getTokenBalance "alice".toList 1 .PENDING = 5 ∧
      (pendingRun sampleNode ops).core.getTokenBalance "alice".toList 1 .BALANCE = 0 ∧
      (pendingRun sampleNode ops).core.getAvailableTokenBalance "alice".toList 1 = 5 :=
  ⟨[.unconfirmed 7 "alice".toList 1 5, .delete 7],
    ExtTreeMap.isEmpty_iff.mp (by decide +kernel), by decide +kernel⟩

end HcOmni
