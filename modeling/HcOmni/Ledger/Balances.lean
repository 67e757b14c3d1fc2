import HcOmni.Core.State

/-!
# Following token amounts

How the amounts of all addresses change when one tally is written, and the unit in which almost
every operation of the engine changes them: a *move* of tokens of one property from one kind of
amount to another, between the same or two addresses.
-/

namespace HcOmni

open Std MapSum Program CMPTally

namespace State

theorem money_congr {s s' : State} (h : s'.mpTallyMap = s.mpTallyMap) (a : Address)
    (p : PropertyId) (t : TallyType) : s'.money a p t = s.money a p t := by
  unfold money
  rw [h]

/-! ### One tally -/

theorem money_addTally (s : State) (who a : Address) (p q : PropertyId) (n : Int)
    (t u : TallyType) :
    (s.addTally who p n t).money a q u =
      s.money a q u + if who = a ∧ p = q ∧ t = u then n else 0 := by
  unfold addTally money
  simp only [ExtTreeMap.getElem?_insert, Std.compare_eq_iff_eq]
  by_cases h : who = a
  · subst h
    rw [ExtTreeMap.getD_eq_getD_getElem?]
    cases s.mpTallyMap[who]? with
    | none => simp [getMoney_add]
    | some tally => simp [getMoney_add]
  · simp [h]

theorem getMoney_getD (s : State) (a : Address) (p : PropertyId) (t : TallyType) :
    (s.mpTallyMap.getD a {}).getMoney p t = s.money a p t := by
  unfold money
  rw [ExtTreeMap.getD_eq_getD_getElem?]
  cases s.mpTallyMap[a]? <;> simp

theorem total_add (tally : CMPTally) (p q : PropertyId) (n : Int) (t : TallyType) :
    (tally.add p n t).total q = tally.total q + if p = q ∧ t ≠ .PENDING then n else 0 := by
  unfold total
  simp only [getMoney_add]
  by_cases h : p = q
  · cases t <;> simp [h] <;> omega
  · simp [h]

theorem held_addTally (s : State) (who : Address) (p q : PropertyId) (n : Int) (t : TallyType) :
    (s.addTally who p n t).held q = s.held q + if p = q ∧ t ≠ .PENDING then n else 0 := by
  have hsum := mapSum_insert s.mpTallyMap (fun _ tally => CMPTally.total tally q) who
    ((s.mpTallyMap.getD who {}).add p n t)
  have hweight : weightAt s.mpTallyMap (fun _ tally => CMPTally.total tally q) who =
      CMPTally.total (s.mpTallyMap.getD who {}) q := by
    rw [ExtTreeMap.getD_eq_getD_getElem?]
    cases h : s.mpTallyMap[who]? with
    | none => simp [weightAt_none h, total]
    | some tally => simp [weightAt_some h]
  rw [hweight, total_add] at hsum
  unfold held addTally
  simp only
  omega

/-! ### Moves -/

/-- `n` tokens of `p` go from the amount `t` of `a` to the amount `u` of `b`. -/
def move (s : State) (p : PropertyId) (n : Int) (a : Address) (t : TallyType) (b : Address)
    (u : TallyType) : State :=
  (s.addTally a p (-n) t).addTally b p n u

/-- The tokens are there, and there is room for them. -/
structure CanMove (s : State) (p : PropertyId) (n : Int) (a : Address) (t : TallyType)
    (b : Address) (u : TallyType) : Prop where
  pos : 0 < n
  enough : n ≤ s.money a p t
  room : (s.addTally a p (-n) t).money b p u + n ≤ MAX_INT_8_BYTES

theorem money_move (s : State) (p q : PropertyId) (n : Int) (a b c : Address)
    (t u v : TallyType) :
    (s.move p n a t b u).money c q v =
      s.money c q v + (if a = c ∧ p = q ∧ t = v then -n else 0) +
        if b = c ∧ p = q ∧ u = v then n else 0 := by
  unfold move
  rw [money_addTally, money_addTally]

@[simp] theorem held_move (s : State) {p q : PropertyId} {n : Int} {a b : Address}
    {t u : TallyType} (ht : t ≠ .PENDING) (hu : u ≠ .PENDING) :
    (s.move p n a t b u).held q = s.held q := by
  unfold move
  rw [held_addTally, held_addTally]
  by_cases h : p = q <;> simp [h, ht, hu]

/-! ### Amounts in range -/

/-- Every amount but the pending ones is a non-negative `int64_t`. -/
def InRange (s : State) : Prop :=
  ∀ a p t, t ≠ TallyType.PENDING → 0 ≤ s.money a p t ∧ s.money a p t ≤ MAX_INT_8_BYTES

theorem InRange.addTally {s : State} {who : Address} {p : PropertyId} {n : Int} {t : TallyType}
    (h : s.InRange)
    (hn : t ≠ .PENDING → 0 ≤ s.money who p t + n ∧ s.money who p t + n ≤ MAX_INT_8_BYTES) :
    (s.addTally who p n t).InRange := by
  intro a q u hu
  rw [money_addTally]
  by_cases hsame : who = a ∧ p = q ∧ t = u
  · obtain ⟨rfl, rfl, rfl⟩ := hsame
    simpa using hn hu
  · simpa [hsame] using h a q u hu

theorem InRange.debit {s : State} {a : Address} {p : PropertyId} {n : Int} {t : TallyType}
    (h : s.InRange) (hpos : 0 ≤ n) (henough : n ≤ s.money a p t) :
    (s.addTally a p (-n) t).InRange :=
  h.addTally fun ht => by
    have := h a p t ht
    omega

theorem InRange.move {s : State} {p : PropertyId} {n : Int} {a b : Address} {t u : TallyType}
    (h : s.InRange) (hmove : s.CanMove p n a t b u) : (s.move p n a t b u).InRange := by
  have hdebit := h.debit (Int.le_of_lt hmove.pos) hmove.enough
  refine hdebit.addTally fun hu => ⟨?_, hmove.room⟩
  have := hdebit b p u hu
  have := hmove.pos
  omega

theorem InRange.total_le_held {s : State} (h : s.InRange) (a : Address) (p : PropertyId) :
    s.money a p .BALANCE + s.money a p .SELLOFFER_RESERVE + s.money a p .ACCEPT_RESERVE +
      s.money a p .METADEX_RESERVE ≤ s.held p := by
  have hweight : weightAt s.mpTallyMap (fun _ tally => CMPTally.total tally p) a =
      s.money a p .BALANCE + s.money a p .SELLOFFER_RESERVE + s.money a p .ACCEPT_RESERVE +
        s.money a p .METADEX_RESERVE := by
    unfold money
    cases hget : s.mpTallyMap[a]? with
    | none => simp [weightAt_none hget]
    | some tally => simp [weightAt_some hget, CMPTally.total]
  rw [← hweight]
  refine weightAt_le_mapSum (fun b tally hb => ?_) a
  have hmoney : ∀ t, s.money b p t = tally.getMoney p t := fun t => by simp [money, hb]
  have h₁ := h b p .BALANCE (by decide)
  have h₂ := h b p .SELLOFFER_RESERVE (by decide)
  have h₃ := h b p .ACCEPT_RESERVE (by decide)
  have h₄ := h b p .METADEX_RESERVE (by decide)
  simp only [hmoney] at h₁ h₂ h₃ h₄
  unfold CMPTally.total
  omega

theorem InRange.money_le_held {s : State} (h : s.InRange) (a : Address) (p : PropertyId)
    {t : TallyType} (ht : t ≠ .PENDING) : s.money a p t ≤ s.held p := by
  have hsum := h.total_le_held a p
  have h₁ := h a p .BALANCE (by decide)
  have h₂ := h a p .SELLOFFER_RESERVE (by decide)
  have h₃ := h a p .ACCEPT_RESERVE (by decide)
  have h₄ := h a p .METADEX_RESERVE (by decide)
  cases t <;> first | omega | exact absurd rfl ht

theorem InRange.held_nonneg {s : State} (h : s.InRange) (p : PropertyId) : 0 ≤ s.held p :=
  (h [] p .BALANCE (by decide)).1.trans (h.money_le_held [] p (by decide))

theorem InRange.canMove {s : State} (h : s.InRange) {p : PropertyId} {n : Int} {a b : Address}
    {t u : TallyType} (ht : t ≠ .PENDING) (hu : u ≠ .PENDING) (hpos : 0 < n)
    (henough : n ≤ s.money a p t) (hheld : s.held p ≤ MAX_INT_8_BYTES) :
    s.CanMove p n a t b u := by
  refine ⟨hpos, henough, ?_⟩
  have hrange := h.debit (Int.le_of_lt hpos) henough
  have hle := hrange.money_le_held b p hu
  rw [held_addTally] at hle
  simp only [ht, ne_eq, not_false_eq_true, and_self, if_true] at hle
  omega

end State

end HcOmni
