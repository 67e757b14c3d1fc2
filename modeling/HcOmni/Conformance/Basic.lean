import HcOmni.Ledger.Sound

/-!
# The contract of the engine's functions

Every function of the engine takes only steps, whatever it is called with, as long as the process
survives; and some failures are excluded: debiting a frozen address always, and failing token
movements in strict circumstances.  This module states that contract and follows the statements
all functions are made of.
-/

namespace HcOmni

open Std Program CMPTally State

/-! ### The contract -/

/-- Any number of steps. -/
abbrev Steps (c : Ctx) : State → State → Prop := Relation.ReflTransGen (Step c)

/-- The failures that must not happen. -/
def Bad (c : Ctx) : Halt → Prop
  | .abort .notFrozen => True
  | .abort .tallyUpdated => c.Strict
  | .abort .allSent => c.Strict
  | _ => False

def Ctx.contract (c : Ctx) : Contract Halt State := .ofStep (Step c) Halt.Live (Bad c)

/-- The failure is not excluded, and leaves behind what `P` says if the process survives it. -/
def Fails (c : Ctx) (P : State → Prop) (e : Halt) (s : State) : Prop := (e.Live → P s) ∧ ¬Bad c e

variable {c : Ctx} {s s' : State} {α β : Type}

theorem conforms_iff {m : Op α} {Q : α → State → Prop} :
    Conforms c.contract m Q s ↔ wp m (fun a s' => Steps c s s' ∧ Q a s') (Fails c (Steps c s)) s :=
  Iff.rfl

theorem Steps.sound (h : Steps c s s') (hs : Sound c s) : Sound c s' := hs.steps h

theorem Steps.isAddressFrozen (h : Steps c s s') (a : Address) (p : PropertyId) :
    s'.isAddressFrozen a p = s.isAddressFrozen a p := by
  have hset : s'.setFrozenAddresses = s.setFrozenAddresses := by
    induction h with
    | refl => rfl
    | tail _ hstep ih => exact hstep.setFrozenAddresses_eq.trans ih
  unfold State.isAddressFrozen
  rw [hset]

theorem Steps.params_eq (h : Steps c s s') : s'.aux.params = s.aux.params := by
  induction h with
  | refl => rfl
  | tail _ hstep ih => exact hstep.params_eq.trans ih

theorem Steps.record (h : Steps c s s') (entry : DbRecord) :
    Steps c s { s' with aux.records := s'.aux.records ++ [entry] } :=
  h.tail (.aux _ rfl rfl)

/-! ### Statements without effect -/

section Statements

variable {R : β → State → Prop} {f : Unit → Op β}

theorem conforms_rejectIf {cond : Bool} {rc : Int}
    (h : cond = false → Conforms c.contract (f ()) R s) :
    Conforms c.contract (rejectIf cond rc >>= f) R s := by
  cases cond with
  | false => exact h rfl
  | true => exact ⟨fun _ => .refl, id⟩

/-- `assert` in the middle of a function. -/
theorem wp_assertThat {Q : Unit → State → Prop} {P : State → Prop} {what : Assertion} {cond : Bool}
    (hbad : cond = false → ¬Bad c (.abort what)) (h : cond = true → Q () s) :
    wp (assertThat what cond) Q (Fails c P) s := by
  cases cond with
  | false => exact ⟨False.elim, hbad rfl⟩
  | true => exact h rfl

theorem conforms_assertThat {what : Assertion} {cond : Bool}
    (hbad : cond = false → ¬Bad c (.abort what))
    (h : cond = true → Conforms c.contract (f ()) R s) :
    Conforms c.contract (assertThat what cond >>= f) R s := by
  rw [conforms_iff, wp_bind]
  exact wp_assertThat hbad h

@[simp] theorem wp_record {Q : Unit → State → Prop} {E : Halt → State → Prop} {entry : DbRecord} :
    wp (record entry) Q E s ↔ Q () { s with aux.records := s.aux.records ++ [entry] } := Iff.rfl

theorem conforms_record {entry : DbRecord} :
    Conforms c.contract (record entry)
      (fun _ s' => s' = { s with aux.records := s.aux.records ++ [entry] }) s :=
  Conforms.modify (.single (.aux _ rfl rfl)) rfl

theorem wp_callRc_of {Q : Int → State → Prop} {E : Halt → State → Prop} {m : Op Int}
    (h : wp m Q (fun e s' => match e with | .ret rc => Q rc s' | e => E e s') s) :
    wp (callRc m) Q E s := by
  unfold wp callRc at *
  cases hm : m s with
  | ok rc s' => rw [hm] at h; exact h
  | error e s' =>
    rw [hm] at h
    cases e with
    | ret rc => exact h
    | thrown | abort | crash | hang => exact h

theorem wp_callRc {Q : Int → State → Prop} {P : State → Prop} {m : Op Int}
    (h : wp m Q (fun e s' => (∃ rc, e = .ret rc ∧ Q rc s') ∨ Fails c (fun _ => False) e s') s) :
    wp (callRc m) Q (Fails c P) s := by
  refine wp_callRc_of (wp_mono h (fun _ _ hQ => hQ) ?_)
  rintro e s' (⟨rc, rfl, hQ⟩ | ⟨hdead, hbad⟩)
  · exact hQ
  · cases e with
    | ret rc => exact absurd trivial hdead
    | thrown | abort | crash | hang => exact ⟨fun hlive => (hdead hlive).elim, hbad⟩

theorem conforms_callRc {m : Op Int} (h : Conforms c.contract m (fun _ _ => True) s) :
    Conforms c.contract (callRc m) (fun _ _ => True) s := by
  rw [conforms_iff] at h ⊢
  refine wp_callRc_of (wp_mono h (fun _ _ hsteps => hsteps) fun e s' hfails => ?_)
  cases e with
  | ret rc => exact ⟨hfails.1 trivial, trivial⟩
  | thrown | abort | crash | hang => exact hfails

end Statements

/-! ### Calculations -/

/-- How a calculation can fail: by a failed assertion, or by a division by zero if `zero` says
that there may be one. -/
def CalcError (zero : Prop) (e : Halt) : Prop := e = .abort .other ∨ zero ∧ e = .thrown

theorem CalcError.not_bad {zero : Prop} {e : Halt} (h : CalcError zero e) : ¬Bad c e := by
  rcases h with rfl | ⟨-, rfl⟩ <;> exact id

section Calculations

variable {zero : Prop}

theorem conforms_calc {P : α → Prop} {R : β → State → Prop} {m : Op α} {f : α → Op β}
    (hm : Reads m P (CalcError zero) s) (hf : ∀ a, P a → Conforms c.contract (f a) R s) :
    Conforms c.contract (m >>= f) R s :=
  Conforms.reads hm (fun _ h => CalcError.not_bad h) hf

theorem reads_assertOther {cond : Bool} :
    Reads (assertThat .other cond) (fun _ => cond = true) (CalcError zero) s := by
  cases cond with
  | false => exact .throw (.inl rfl)
  | true => exact .pure rfl

theorem reads_convertTo256 {n : Int} :
    Reads (convertTo256 n) (fun r => 0 ≤ n ∧ r = BitVec.ofNat 256 n.toNat) (CalcError zero) s :=
  .bind reads_assertOther fun _ h => .pure ⟨by simpa using h, rfl⟩

theorem reads_convertTo64 {n : ArithUint256} :
    Reads (convertTo64 n) (fun r => r = n.toNat ∧ r ≤ MAX_INT_8_BYTES) (CalcError zero) s :=
  .bind reads_assertOther fun _ h => .pure ⟨rfl, by simpa using h⟩

theorem reads_divide256 {n d : ArithUint256} (hzero : d = 0 → zero) :
    Reads (divide256 n d) (fun r => d ≠ 0 ∧ r = n / d) (CalcError zero) s :=
  .ite (fun h => .throw (.inr ⟨hzero h, rfl⟩)) fun h => .pure ⟨h, rfl⟩

theorem reads_modulo256 {a n : ArithUint256} :
    Reads (modulo256 a n) (fun _ => True) (CalcError True) s :=
  .bind (reads_divide256 fun _ => trivial) fun _ _ => .pure trivial

/-- An `int64_t` amount in 256 bits. -/
theorem toNat_ofAmount {n : Int} (h : 0 ≤ n ∧ n ≤ MAX_INT_8_BYTES) :
    (BitVec.ofNat 256 n.toNat).toNat = n.toNat := by
  unfold MAX_INT_8_BYTES at h
  rw [BitVec.toNat_ofNat, Nat.mod_eq_of_lt]
  omega

/-- The product of two `int64_t` amounts does not wrap. -/
theorem toNat_mul_ofAmount {m n : Int} (hm : 0 ≤ m ∧ m ≤ MAX_INT_8_BYTES)
    (hn : 0 ≤ n ∧ n ≤ MAX_INT_8_BYTES) :
    (BitVec.ofNat 256 m.toNat * BitVec.ofNat 256 n.toNat).toNat = m.toNat * n.toNat := by
  rw [BitVec.toNat_mul, toNat_ofAmount hm, toNat_ofAmount hn, Nat.mod_eq_of_lt]
  unfold MAX_INT_8_BYTES at hm hn
  calc m.toNat * n.toNat ≤ (2 ^ 63 - 1) * (2 ^ 63 - 1) := Nat.mul_le_mul (by omega) (by omega)
    _ < 2 ^ 256 := by decide

theorem toNat_roundUp {n d : ArithUint256} (hn : n ≠ 0) :
    (1 + (n - 1) / d).toNat = 1 + (n.toNat - 1) / d.toNat := by
  have hnpos : 0 < n.toNat := by bv_omega
  have hpred : (n - 1).toNat = n.toNat - 1 := by bv_omega
  have hle : (n.toNat - 1) / d.toNat ≤ n.toNat - 1 := Nat.div_le_self _ _
  have hlt := n.isLt
  rw [BitVec.toNat_add, BitVec.toNat_udiv, hpred, Nat.mod_eq_of_lt]
  · rfl
  · change 1 + _ < _
    omega

theorem le_roundUp_mul {n d : ArithUint256} (hn : n ≠ 0) (hd : d ≠ 0) :
    n.toNat ≤ (1 + (n - 1) / d).toNat * d.toNat ∧ 0 < (1 + (n - 1) / d).toNat := by
  have hnpos : 0 < n.toNat := by bv_omega
  have hdpos : 0 < d.toNat := by bv_omega
  have hquot := Nat.lt_div_mul_add (a := n.toNat - 1) hdpos
  rw [toNat_roundUp hn, Nat.add_mul, Nat.one_mul]
  exact ⟨by omega, Nat.add_pos_left Nat.one_pos _⟩

theorem reads_divideAndRoundUp {n d : ArithUint256} (hzero : d = 0 → zero) :
    Reads (divideAndRoundUp n d)
      (fun r => n.toNat ≤ r.toNat * d.toNat ∧ (n ≠ 0 → 0 < r.toNat)) (CalcError zero) s := by
  refine .ite (fun h => .pure ?_) fun h => .bind (reads_divide256 hzero) fun _ hq => .pure ?_
  · simp [h]
  · rw [hq.2]
    exact ⟨(le_roundUp_mul h hq.1).1, fun _ => (le_roundUp_mul h hq.1).2⟩

theorem ofAmount_ne_zero {n : Int} (hn : 0 ≤ n ∧ n ≤ MAX_INT_8_BYTES) (hne : n ≠ 0) :
    BitVec.ofNat 256 n.toNat ≠ 0 := by
  intro hzero
  have htoNat := congrArg BitVec.toNat hzero
  rw [toNat_ofAmount hn] at htoNat
  change n.toNat = 0 at htoNat
  omega

theorem roundUp_le_iff {n d : ArithUint256} (hd : d ≠ 0) (bound : Nat) :
    (if n = 0 then 0 else 1 + (n - 1) / d).toNat ≤ bound ↔ n.toNat ≤ bound * d.toNat := by
  have hdpos : 0 < d.toNat := by bv_omega
  by_cases hn : n = 0
  · simp [hn]
  · have hnpos : 0 < n.toNat := by bv_omega
    have hdiv := Nat.div_lt_iff_lt_mul (x := n.toNat - 1) (y := bound) hdpos
    rw [if_neg hn, toNat_roundUp hn]
    omega

theorem toNat_roundUp_le_iff {m n d bound : Int} (hm : 0 ≤ m ∧ m ≤ MAX_INT_8_BYTES)
    (hn : 0 ≤ n ∧ n ≤ MAX_INT_8_BYTES) (hd : 0 ≤ d ∧ d ≤ MAX_INT_8_BYTES) (hpos : 0 < d) :
    ((if BitVec.ofNat 256 m.toNat * BitVec.ofNat 256 n.toNat = 0 then 0
      else 1 + (BitVec.ofNat 256 m.toNat * BitVec.ofNat 256 n.toNat - 1) / BitVec.ofNat 256 d.toNat :
        ArithUint256).toNat : Int) ≤ bound ↔ m * n ≤ bound * d := by
  have hproduct := toNat_mul_ofAmount hm hn
  have hnonneg : 0 ≤ m * n := Int.mul_nonneg hm.1 hn.1
  by_cases hbound : 0 ≤ bound
  · obtain ⟨b, rfl⟩ := Int.eq_ofNat_of_zero_le hbound
    rw [Int.ofNat_le, roundUp_le_iff (ofAmount_ne_zero hd (ne_of_gt hpos)), hproduct,
      toNat_ofAmount hd]
    zify
    rw [Int.toNat_of_nonneg hm.1, Int.toNat_of_nonneg hn.1, Int.toNat_of_nonneg hd.1]
  · have hneg : bound * d < 0 := Int.mul_neg_of_neg_of_pos (Int.not_le.mp hbound) hpos
    exact iff_of_false (by omega) (by omega)

/-! ### Calculations that succeed -/

variable {E : Halt → Prop}

theorem reads_convertTo256_of_nonneg {n : Int} (h : 0 ≤ n) :
    Reads (convertTo256 n) (fun r => r = BitVec.ofNat 256 n.toNat) E s := by
  unfold convertTo256
  rw [decide_eq_true h]
  exact .pure rfl

theorem reads_convertTo64_of_le {n : ArithUint256} (h : (n.toNat : Int) ≤ MAX_INT_8_BYTES) :
    Reads (convertTo64 n) (fun r => r = n.toNat) E s := by
  unfold convertTo64
  rw [decide_eq_true h]
  exact .pure rfl

theorem reads_divide256_of_ne {n d : ArithUint256} (hd : d ≠ 0) :
    Reads (divide256 n d) (fun r => r = n / d) E s := by
  unfold divide256
  rw [if_neg hd]
  exact .pure rfl

theorem reads_divideAndRoundUp_of_ne {n d : ArithUint256} (hd : d ≠ 0) :
    Reads (divideAndRoundUp n d) (fun r => r = if n = 0 then 0 else 1 + (n - 1) / d) E s := by
  refine .ite (fun hn => .pure (by rw [if_pos hn])) fun hn => ?_
  refine .bind (reads_divide256_of_ne hd) fun _ hq => .pure ?_
  rw [hq, if_neg hn]

theorem reads_divideAndRoundUp_amounts {m n d q : Int} (hm : 0 ≤ m ∧ m ≤ MAX_INT_8_BYTES)
    (hn : 0 ≤ n ∧ n ≤ MAX_INT_8_BYTES) (hd : 0 ≤ d ∧ d ≤ MAX_INT_8_BYTES) (hpos : 0 < d)
    (hq : ∀ bound, q ≤ bound ↔ m * n ≤ bound * d) :
    Reads (divideAndRoundUp (BitVec.ofNat 256 m.toNat * BitVec.ofNat 256 n.toNat)
      (BitVec.ofNat 256 d.toNat)) (fun r => (r.toNat : Int) = q) E s := by
  refine (reads_divideAndRoundUp_of_ne (ofAmount_ne_zero hd (ne_of_gt hpos))).mono fun r hr => ?_
  refine eq_of_forall_ge_iff fun bound => ?_
  rw [hr, hq]
  exact toNat_roundUp_le_iff hm hn hd hpos

end Calculations

/-! ### Token movements -/

section Movements

variable {Q : Unit → State → Prop} {P : State → Prop} {p : PropertyId} {n : Int} {a b : Address}
  {t u : TallyType}

/-- The assertion of `update_tally_map` holds where a debited address is not frozen. -/
theorem notFrozen_eq_true (hfrozen : t = .BALANCE → n < 0 → s.isAddressFrozen a p = false) :
    (!(decide (t = .BALANCE) && decide (n < 0) && s.isAddressFrozen a p)) = true := by
  by_cases hdebit : t = .BALANCE ∧ n < 0
  · simp [hfrozen hdebit.1 hdebit.2]
  · rcases not_and_or.mp hdebit with h | h <;> simp [h]

theorem updateTallyMap_of_admits
    (hfrozen : t = .BALANCE → n < 0 → s.isAddressFrozen a p = false)
    (hadmits : Admits (s.money a p t) n) :
    updateTallyMap a p n t s = .ok true (s.addTally a p n t) := by
  have hupdate : (s.mpTallyMap.getD a {}).updateMoney p n t =
      (true, (s.mpTallyMap.getD a {}).add p n t) := by
    refine updateMoney_of_admits ?_
    rwa [getMoney_getD]
  unfold updateTallyMap
  rw [if_neg hadmits.1, bind_of_ok (rfl : (get : Op State) s = .ok s s),
    notFrozen_eq_true hfrozen, hupdate]
  rfl

theorem wp_updateTallyMap {Q : Bool → State → Prop} {E : Halt → State → Prop}
    (hfrozen : t = .BALANCE → n < 0 → s.isAddressFrozen a p = false) (hzero : n = 0 → Q false s)
    (hrefused : Q false (s.addTally a p 0 .PENDING))
    (hadded : (t ≠ .PENDING → Admits (s.money a p t) n) → Q true (s.addTally a p n t)) :
    wp (updateTallyMap a p n t) Q E s := by
  unfold updateTallyMap
  by_cases hn : n = 0
  · rw [if_pos hn]
    exact hzero hn
  rw [if_neg hn]
  simp only [wp_bind, wp_get, notFrozen_eq_true hfrozen]
  change Q ((s.mpTallyMap.getD a {}).updateMoney p n t).1
    { s with mpTallyMap := s.mpTallyMap.insert a ((s.mpTallyMap.getD a {}).updateMoney p n t).2 }
  rcases (updateMoney_cases hn : (s.mpTallyMap.getD a {}).updateMoney p n t = _ ∨ _) with h | h
  · rw [h]
    exact hrefused
  · have hadmits : t ≠ .PENDING → Admits ((s.mpTallyMap.getD a {}).getMoney p t) n := fun ht =>
      admits_of_updateMoney ht (by rw [h])
    rw [h]
    rw [getMoney_getD] at hadmits
    exact hadded hadmits

/-- `assert(update_tally_map(...))`: the amount is admitted, and added. -/
theorem wp_assertUpdateTallyMap (ht : t ≠ .PENDING)
    (hfrozen : t = .BALANCE → n < 0 → s.isAddressFrozen a p = false)
    (hstrict : c.Strict → Admits (s.money a p t) n)
    (h : Admits (s.money a p t) n → Q () (s.addTally a p n t)) :
    wp (assertUpdateTallyMap a p n t) Q (Fails c P) s := by
  have hrefused : ∀ {s' : State}, ¬Admits (s.money a p t) n →
      Fails c P (.abort .tallyUpdated) s' := fun hnot => ⟨False.elim, fun hs => hnot (hstrict hs)⟩
  unfold assertUpdateTallyMap updateTallyMap
  by_cases hzero : n = 0
  · rw [if_pos hzero]
    exact hrefused fun hadmits => hadmits.1 hzero
  rw [if_neg hzero]
  simp only [wp_bind, wp_get, notFrozen_eq_true hfrozen]
  change wp (assertThat .tallyUpdated ((s.mpTallyMap.getD a {}).updateMoney p n t).1) Q (Fails c P)
    { s with mpTallyMap := s.mpTallyMap.insert a ((s.mpTallyMap.getD a {}).updateMoney p n t).2 }
  by_cases hadmits : Admits (s.money a p t) n
  · have hmoney := hadmits
    rw [← getMoney_getD] at hmoney
    rw [updateMoney_of_admits hmoney]
    exact h hadmits
  · refine wp_assertThat (fun _ hs => hadmits (hstrict hs)) fun hok => ?_
    have := admits_of_updateMoney ht hok
    rw [getMoney_getD] at this
    exact absurd this hadmits

theorem wp_move (ht : t ≠ .PENDING) (hu : u ≠ .PENDING) (hnonneg : 0 ≤ n)
    (hfrozen : t = .BALANCE → s.isAddressFrozen a p = false)
    (hstrict : c.Strict → s.InRange ∧ s.CanMove p n a t b u)
    (h : s.CanMove p n a t b u → Q () (s.move p n a t b u)) :
    wp (assertUpdateTallyMap a p (-n) t)
      (fun _ s' => wp (assertUpdateTallyMap b p n u) Q (Fails c P) s') (Fails c P) s := by
  refine wp_assertUpdateTallyMap ht (fun ht _ => hfrozen ht) (fun hs => ?_) fun hdebit => ?_
  · obtain ⟨-, hmove⟩ := hstrict hs
    have := hmove.pos
    have := hmove.enough
    exact ⟨by omega, by omega, by omega⟩
  · have hpos : 0 < n := by
      have := hdebit.1
      omega
    refine wp_assertUpdateTallyMap hu (fun _ hneg => by omega) (fun hs => ?_) fun hcredit => ?_
    · obtain ⟨hrange, hmove⟩ := hstrict hs
      have := (hrange.debit hnonneg hmove.enough) b p u hu
      exact ⟨by omega, by omega, fun _ => hmove.room⟩
    · have := hdebit.2.1
      exact h ⟨hpos, by omega, hcredit.2.2 hpos⟩

theorem wp_credit (hstrict : c.Strict → s.InRange ∧ s.CanCredit a p n)
    (h : s.CanCredit a p n → Q () (s.credit a p n)) :
    wp (assertCredit a p n) Q (Fails c P) s := by
  unfold assertCredit
  by_cases hpos : 0 < n
  · rw [if_pos hpos]
    refine wp_assertUpdateTallyMap (by decide) (fun _ hneg => by omega) (fun hs => ?_)
      fun hadmits => ?_
    · obtain ⟨hrange, hroom⟩ := hstrict hs
      have := hrange a p .BALANCE (by decide)
      exact ⟨by omega, by omega, fun _ => hroom hpos⟩
    · rw [← credit_of_pos hpos]
      exact h fun hpos => hadmits.2.2 hpos
  · rw [if_neg hpos]
    have hcredit := h fun hpos' => absurd hpos' hpos
    rwa [credit_of_nonpos hpos] at hcredit

theorem conforms_move {R : β → State → Prop} {k : Unit → Op β} (hs : Sound c s)
    (ht : t ≠ .PENDING) (hu : u ≠ .PENDING) (hpos : 0 < n)
    (hfrozen : t = .BALANCE → s.isAddressFrozen a p = false)
    (henough : c.Strict → n ≤ s.money a p t)
    (hstep : s.CanMove p n a t b u → Step c s (s.move p n a t b u))
    (h : s.CanMove p n a t b u → Conforms c.contract (k ()) R (s.move p n a t b u)) :
    Conforms c.contract
      (assertUpdateTallyMap a p (-n) t >>= fun _ => assertUpdateTallyMap b p n u >>= k) R s := by
  rw [conforms_iff]
  simp only [wp_bind]
  refine wp_move ht hu (Int.le_of_lt hpos) hfrozen (fun hs' => ⟨hs.range, ?_⟩) fun hmove => ?_
  · exact hs.canMove hs' ht hu hpos (henough hs')
  · exact Conforms.after (C := c.contract) (.single (hstep hmove)) (h hmove)

end Movements

end HcOmni
