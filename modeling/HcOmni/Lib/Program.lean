import Mathlib

/-!
# A program logic for fallible stateful programs

Programs are `EStateM ε σ α`: they read and write a state `σ`, and end either normally or with
a failure `ε` that leaves the state as it is at that point.

Two judgements are defined.  `wp` is the weakest precondition with one postcondition for each
way to end.  `Conforms` says that a program stays inside a reflexive and transitive relation:
every outcome that leaves a usable state is related to the start, and failures declared bad do
not happen.  The second one composes along `bind` without mentioning intermediate states, so a
long program is followed statement by statement.
-/

namespace HcOmni.Program

universe u

variable {ε σ α β : Type u}

/-! ### Weakest preconditions -/

/-- Running `m` from `s` ends normally in `Q` or fails in `E`. -/
def wp (m : EStateM ε σ α) (Q : α → σ → Prop) (E : ε → σ → Prop) (s : σ) : Prop :=
  match m s with
  | .ok a s' => Q a s'
  | .error e s' => E e s'

section Wp

variable {Q : α → σ → Prop} {E : ε → σ → Prop} {s : σ}

theorem wp_ok {m : EStateM ε σ α} {a : α} {s' : σ} (h : m s = .ok a s') :
    wp m Q E s ↔ Q a s' := by
  simp [wp, h]

theorem wp_error {m : EStateM ε σ α} {e : ε} {s' : σ} (h : m s = .error e s') :
    wp m Q E s ↔ E e s' := by
  simp [wp, h]

theorem bind_of_ok {m : EStateM ε σ α} {f : α → EStateM ε σ β} {a : α} {s' : σ}
    (h : m s = .ok a s') : (m >>= f) s = f a s' := by
  simp [bind, EStateM.bind, h]

theorem bind_of_error {m : EStateM ε σ α} {f : α → EStateM ε σ β} {e : ε} {s' : σ}
    (h : m s = .error e s') : (m >>= f) s = .error e s' := by
  simp [bind, EStateM.bind, h]

theorem exists_of_wp {m : EStateM ε σ α} (h : wp m Q (fun _ _ => False) s) :
    ∃ a s', m s = .ok a s' ∧ Q a s' := by
  cases hm : m s with
  | ok a s' => exact ⟨a, s', rfl, (wp_ok hm).mp h⟩
  | error e s' => exact ((wp_error hm).mp h).elim

@[simp] theorem wp_pure (a : α) : wp (pure a : EStateM ε σ α) Q E s ↔ Q a s := Iff.rfl

@[simp] theorem wp_bind {R : β → σ → Prop} (m : EStateM ε σ α) (f : α → EStateM ε σ β) :
    wp (m >>= f) R E s ↔ wp m (fun a s' => wp (f a) R E s') E s := by
  unfold wp
  simp only [bind, EStateM.bind]
  cases m s <;> rfl

@[simp] theorem wp_throw (e : ε) : wp (throw e : EStateM ε σ α) Q E s ↔ E e s := Iff.rfl

@[simp] theorem wp_get {Q : σ → σ → Prop} : wp (get : EStateM ε σ σ) Q E s ↔ Q s s := Iff.rfl

@[simp] theorem wp_set {Q : PUnit → σ → Prop} (s' : σ) :
    wp (set s' : EStateM ε σ PUnit) Q E s ↔ Q ⟨⟩ s' := Iff.rfl

@[simp] theorem wp_modify {Q : PUnit → σ → Prop} (f : σ → σ) :
    wp (modify f : EStateM ε σ PUnit) Q E s ↔ Q ⟨⟩ (f s) := Iff.rfl

@[simp] theorem wp_ite (c : Prop) [Decidable c] (m m' : EStateM ε σ α) :
    wp (if c then m else m') Q E s ↔ (c → wp m Q E s) ∧ (¬c → wp m' Q E s) := by
  by_cases h : c <;> simp [h]

theorem wp_mono {Q' : α → σ → Prop} {E' : ε → σ → Prop} {m : EStateM ε σ α}
    (h : wp m Q E s) (hQ : ∀ a s', Q a s' → Q' a s') (hE : ∀ e s', E e s' → E' e s') :
    wp m Q' E' s := by
  unfold wp at h ⊢
  cases hm : m s with
  | ok a s' => rw [hm] at h; exact hQ a s' h
  | error e s' => rw [hm] at h; exact hE e s' h

theorem wp_of_forall {m : EStateM ε σ α} (hQ : ∀ a s', Q a s') (hE : ∀ e s', E e s') :
    wp m Q E s := by
  unfold wp
  cases m s with
  | ok a s' => exact hQ a s'
  | error e s' => exact hE e s'

theorem wp_and {Q' : α → σ → Prop} {E' : ε → σ → Prop} {m : EStateM ε σ α}
    (h : wp m Q E s) (h' : wp m Q' E' s) :
    wp m (fun a s' => Q a s' ∧ Q' a s') (fun e s' => E e s' ∧ E' e s') s := by
  unfold wp at h h' ⊢
  cases hm : m s with
  | ok a s' => rw [hm] at h h'; exact ⟨h, h'⟩
  | error e s' => rw [hm] at h h'; exact ⟨h, h'⟩

theorem wp_forM {ι : Type u} {body : ι → EStateM ε σ PUnit} {I : List ι → σ → Prop} :
    ∀ {items : List ι} {s : σ}, I items s →
      (∀ i rest s', I (i :: rest) s' → wp (body i) (fun _ => I rest) E s') →
      wp (items.forM body) (fun _ => I []) E s
  | [], _, hI, _ => hI
  | i :: rest, s, hI, hbody => by
    change wp (body i >>= fun _ => rest.forM body) (fun _ => I []) E s
    rw [wp_bind]
    refine wp_mono (hbody i rest s hI) ?_ (fun _ _ h => h)
    intro _ s' hI'
    exact wp_forM hI' hbody

end Wp

/-! ### Programs that only read -/

/-- `m` leaves the state alone; it returns something in `P` or fails with something in `E`. -/
def Reads (m : EStateM ε σ α) (P : α → Prop) (E : ε → Prop) (s : σ) : Prop :=
  wp m (fun a s' => s' = s ∧ P a) (fun e s' => s' = s ∧ E e) s

namespace Reads

variable {P : α → Prop} {E : ε → Prop} {s : σ}

protected theorem pure {a : α} (h : P a) : Reads (pure a) P E s := ⟨rfl, h⟩

protected theorem throw {e : ε} (h : E e) : Reads (throw e : EStateM ε σ α) P E s := ⟨rfl, h⟩

protected theorem bind {R : β → Prop} {m : EStateM ε σ α} {f : α → EStateM ε σ β}
    (hm : Reads m P E s) (hf : ∀ a, P a → Reads (f a) R E s) : Reads (m >>= f) R E s := by
  unfold Reads
  rw [wp_bind]
  refine wp_mono hm ?_ (fun _ _ h => h)
  rintro a s' ⟨rfl, ha⟩
  exact hf a ha

protected theorem get {f : σ → EStateM ε σ α} (h : Reads (f s) P E s) : Reads (get >>= f) P E s :=
  h

protected theorem ite {c : Prop} [Decidable c] {m m' : EStateM ε σ α}
    (ht : c → Reads m P E s) (hf : ¬c → Reads m' P E s) : Reads (if c then m else m') P E s := by
  by_cases h : c
  · rw [if_pos h]; exact ht h
  · rw [if_neg h]; exact hf h

protected theorem mono {P' : α → Prop} {m : EStateM ε σ α} (h : Reads m P E s)
    (hP : ∀ a, P a → P' a) : Reads m P' E s :=
  wp_mono h (fun a _ ⟨hs, ha⟩ => ⟨hs, hP a ha⟩) (fun _ _ h => h)

protected theorem mono_error {E' : ε → Prop} {m : EStateM ε σ α} (h : Reads m P E s)
    (hE : ∀ e, E e → E' e) : Reads m P E' s :=
  wp_mono h (fun _ _ h => h) (fun e _ ⟨hs, he⟩ => ⟨hs, hE e he⟩)

protected theorem wp_bind {Q : β → σ → Prop} {E' : ε → σ → Prop} {m : EStateM ε σ α}
    {f : α → EStateM ε σ β} (hm : Reads m P E s) (hf : ∀ a, P a → wp (f a) Q E' s)
    (hE : ∀ e, E e → E' e s) : wp (m >>= f) Q E' s := by
  rw [Program.wp_bind]
  refine wp_mono hm ?_ ?_
  · rintro a s' ⟨rfl, ha⟩
    exact hf a ha
  · rintro e s' ⟨rfl, he⟩
    exact hE e he

protected theorem exists_ok {m : EStateM ε σ α} (h : Reads m P (fun _ => False) s) :
    ∃ a, m s = .ok a s ∧ P a := by
  obtain ⟨a, s', hm, rfl, ha⟩ := exists_of_wp (wp_mono h (fun _ _ h => h) fun _ _ h => h.2)
  exact ⟨a, hm, ha⟩

protected theorem eq_ok {m : EStateM ε σ α} {a : α} (h : Reads m (fun r => r = a) (fun _ => False) s) :
    m s = .ok a s := by
  obtain ⟨r, hm, rfl⟩ := h.exists_ok
  exact hm

end Reads

/-! ### Programs that do not fail in a given way -/

/-- Wherever `m` starts, it returns something in `P` or fails with something outside `E`. -/
def Avoids (m : EStateM ε σ α) (P : α → Prop) (E : ε → Prop) : Prop :=
  ∀ s, wp m (fun a _ => P a) (fun e _ => ¬E e) s

namespace Avoids

variable {P : α → Prop} {E : ε → Prop}

protected theorem pure {a : α} (h : P a) : Avoids (pure a : EStateM ε σ α) P E := fun _ => h

protected theorem throw {e : ε} (h : ¬E e) : Avoids (throw e : EStateM ε σ α) P E := fun _ => h

protected theorem get : Avoids (get : EStateM ε σ σ) (fun _ => True) E := fun _ => trivial

protected theorem set (s : σ) : Avoids (set s : EStateM ε σ PUnit) (fun _ => True) E :=
  fun _ => trivial

protected theorem modify (f : σ → σ) :
    Avoids (modify f : EStateM ε σ PUnit) (fun _ => True) E := fun _ => trivial

protected theorem bind {R : β → Prop} {m : EStateM ε σ α} {f : α → EStateM ε σ β}
    (hm : Avoids m P E) (hf : ∀ a, P a → Avoids (f a) R E) : Avoids (m >>= f) R E := by
  intro s
  rw [wp_bind]
  exact wp_mono (hm s) (fun a s' ha => hf a ha s') fun _ _ h => h

protected theorem ite {c : Prop} [Decidable c] {m m' : EStateM ε σ α} (ht : c → Avoids m P E)
    (hf : ¬c → Avoids m' P E) : Avoids (if c then m else m') P E := by
  by_cases h : c
  · rw [if_pos h]
    exact ht h
  · rw [if_neg h]
    exact hf h

protected theorem forM {ι : Type u} {body : ι → EStateM ε σ PUnit}
    (hbody : ∀ i, Avoids (body i) (fun _ => True) E) :
    ∀ items : List ι, Avoids (items.forM body) (fun _ => True) E
  | [] => Avoids.pure trivial
  | i :: rest => Avoids.bind (hbody i) fun _ _ => Avoids.forM hbody rest

protected theorem of_reads {F : ε → Prop} {m : EStateM ε σ α} (hm : ∀ s, Reads m P F s)
    (hF : ∀ e, F e → ¬E e) : Avoids m P E :=
  fun s => wp_mono (hm s) (fun _ _ h => h.2) fun e _ h => hF e h.2

end Avoids

/-! ### Programs that see a part of the state -/

/-- An outcome with its state replaced. -/
def mapState (g : σ → σ) : EStateM.Result ε σ α → EStateM.Result ε σ α
  | .ok a s => .ok a (g s)
  | .error e s => .error e (g s)

/-- It makes no difference to `m` whether `g` is applied to the state before or after it: `m`
neither reads nor writes what `g` replaces. -/
def Ignores (g : σ → σ) (m : EStateM ε σ α) : Prop := ∀ s, m (g s) = mapState g (m s)

namespace Ignores

variable {g : σ → σ}

protected theorem pure (a : α) : Ignores g (pure a : EStateM ε σ α) := fun _ => rfl

protected theorem throw (e : ε) : Ignores g (throw e : EStateM ε σ α) := fun _ => rfl

protected theorem modify {f : σ → σ} (h : ∀ s, f (g s) = g (f s)) :
    Ignores g (modify f : EStateM ε σ PUnit) := fun s =>
  congrArg (EStateM.Result.ok PUnit.unit) (h s)

protected theorem bind {m : EStateM ε σ α} {f : α → EStateM ε σ β} (hm : Ignores g m)
    (hf : ∀ a, Ignores g (f a)) : Ignores g (m >>= f) := by
  intro s
  cases h : m s with
  | ok a s' =>
    have hg : m (g s) = .ok a (g s') := by rw [hm s, h]; rfl
    rw [bind_of_ok hg, bind_of_ok h, hf a s']
  | error e s' =>
    have hg : m (g s) = .error e (g s') := by rw [hm s, h]; rfl
    rw [bind_of_error hg, bind_of_error h]
    rfl

/-- A program that reads the state, and uses only what `g` keeps. -/
protected theorem get {f : σ → EStateM ε σ α} (hread : ∀ s, f (g s) = f s)
    (hf : ∀ s, Ignores g (f s)) : Ignores g (get >>= f) := by
  intro s
  change f (g s) (g s) = mapState g (f s s)
  rw [hread, hf s]

protected theorem ite {c : Prop} [Decidable c] {m m' : EStateM ε σ α} (ht : Ignores g m)
    (hf : Ignores g m') : Ignores g (if c then m else m') := by
  by_cases h : c
  · rw [if_pos h]; exact ht
  · rw [if_neg h]; exact hf

/-- What `g` replaces is as before, whatever the outcome. -/
theorem frame {m : EStateM ε σ α} {s : σ} (hm : Ignores g m) (hs : g s = s) :
    wp m (fun _ s' => g s' = s') (fun _ s' => g s' = s') s := by
  have hfix : mapState g (m s) = m s := by rw [← hm s, hs]
  unfold wp
  cases h : m s with
  | ok a s' =>
    rw [h] at hfix
    exact (EStateM.Result.ok.inj hfix).2
  | error e s' =>
    rw [h] at hfix
    exact (EStateM.Result.error.inj hfix).2

end Ignores

/-! ### Conformance to a relation -/

/-- What a group of programs may do: the relation their runs stay in, the failures that leave a
usable state behind, and the failures that must not happen. -/
structure Contract (ε σ : Type u) where
  rel : σ → σ → Prop
  refl : ∀ s, rel s s
  trans : ∀ {s t r}, rel s t → rel t r → rel s r
  live : ε → Prop
  bad : ε → Prop

/-- The contract of taking any number of steps of `step`. -/
def Contract.ofStep (step : σ → σ → Prop) (live bad : ε → Prop) : Contract ε σ where
  rel := Relation.ReflTransGen step
  refl _ := .refl
  trans h h' := h.trans h'
  live := live
  bad := bad

/-- `m` run from `s` stays inside the contract, and a normal outcome satisfies `Q`. -/
def Conforms (C : Contract ε σ) (m : EStateM ε σ α) (Q : α → σ → Prop) (s : σ) : Prop :=
  wp m (fun a s' => C.rel s s' ∧ Q a s') (fun e s' => (C.live e → C.rel s s') ∧ ¬C.bad e) s

namespace Conforms

variable {C : Contract ε σ} {Q : α → σ → Prop} {s : σ}

protected theorem pure {a : α} (h : Q a s) : Conforms C (pure a) Q s :=
  ⟨C.refl s, h⟩

protected theorem throw {e : ε} (h : ¬C.bad e) : Conforms C (throw e : EStateM ε σ α) Q s :=
  ⟨fun _ => C.refl s, h⟩

/-- **Sequencing.**  The continuation starts in a state related to `s`. -/
protected theorem bind {R : β → σ → Prop} {m : EStateM ε σ α} {f : α → EStateM ε σ β}
    (hm : Conforms C m Q s)
    (hf : ∀ a s', C.rel s s' → Q a s' → Conforms C (f a) R s') : Conforms C (m >>= f) R s := by
  unfold Conforms
  rw [wp_bind]
  refine wp_mono hm ?_ (fun _ _ h => h)
  rintro a s' ⟨hrel, hQ⟩
  refine wp_mono (hf a s' hrel hQ) ?_ ?_
  · rintro b s'' ⟨hrel', hR⟩
    exact ⟨C.trans hrel hrel', hR⟩
  · rintro e s'' ⟨hlive, hbad⟩
    exact ⟨fun hl => C.trans hrel (hlive hl), hbad⟩

protected theorem get {R : β → σ → Prop} {f : σ → EStateM ε σ β} (h : Conforms C (f s) R s) :
    Conforms C (get >>= f) R s :=
  Conforms.bind (Q := fun a s' => a = s ∧ s' = s) ⟨C.refl s, rfl, rfl⟩
    (by rintro a s' - ⟨rfl, rfl⟩; exact h)

protected theorem modify {f : σ → σ} {Q : PUnit → σ → Prop} (h : C.rel s (f s))
    (hQ : Q ⟨⟩ (f s)) : Conforms C (modify f) Q s :=
  ⟨h, hQ⟩

protected theorem mono {Q' : α → σ → Prop} {m : EStateM ε σ α} (h : Conforms C m Q s)
    (hQ : ∀ a s', C.rel s s' → Q a s' → Q' a s') : Conforms C m Q' s :=
  wp_mono h (fun a s' ⟨hrel, hq⟩ => ⟨hrel, hQ a s' hrel hq⟩) (fun _ _ h => h)

protected theorem ite {c : Prop} [Decidable c] {m m' : EStateM ε σ α}
    (ht : c → Conforms C m Q s) (hf : ¬c → Conforms C m' Q s) :
    Conforms C (if c then m else m') Q s := by
  by_cases h : c
  · rw [if_pos h]; exact ht h
  · rw [if_neg h]; exact hf h

protected theorem reads {P : α → Prop} {E : ε → Prop} {R : β → σ → Prop} {m : EStateM ε σ α}
    {f : α → EStateM ε σ β} (hm : Reads m P E s) (hE : ∀ e, E e → ¬C.bad e)
    (hf : ∀ a, P a → Conforms C (f a) R s) : Conforms C (m >>= f) R s :=
  hm.wp_bind hf fun e he => ⟨fun _ => C.refl s, hE e he⟩

protected theorem after {s₀ : σ} {m : EStateM ε σ α} (hrel : C.rel s₀ s) (h : Conforms C m Q s) :
    wp m (fun a s' => C.rel s₀ s' ∧ Q a s') (fun e s' => (C.live e → C.rel s₀ s') ∧ ¬C.bad e) s :=
  wp_mono h (fun _ _ ⟨hr, hq⟩ => ⟨C.trans hrel hr, hq⟩)
    (fun _ _ ⟨hr, hb⟩ => ⟨fun hl => C.trans hrel (hr hl), hb⟩)

protected theorem forM {ι : Type u} {body : ι → EStateM ε σ PUnit} {I : List ι → σ → Prop} :
    ∀ {items : List ι} {s : σ}, I items s →
      (∀ i rest s', I (i :: rest) s' → Conforms C (body i) (fun _ => I rest) s') →
      Conforms C (items.forM body) (fun _ => I []) s
  | [], _, hI, _ => Conforms.pure hI
  | i :: rest, s, hI, hbody => by
    change Conforms C (body i >>= fun _ => rest.forM body) (fun _ => I []) s
    refine Conforms.bind (hbody i rest s hI) ?_
    intro _ s' _ hI'
    exact Conforms.forM hI' hbody

/-- A loop over entries that were stored when it began, where each round changes no other
entry: every round finds its entry stored. -/
protected theorem forM_stored {ι : Type u} {κ ν : Type*} (look : σ → κ → Option ν) {key : ι → κ}
    {val : ι → ν} {body : ι → EStateM ε σ PUnit} {I : σ → Prop} {items : List ι}
    (hnodup : (items.map key).Nodup) (hstored : ∀ i ∈ items, look s (key i) = some (val i))
    (hI : I s)
    (hbody : ∀ i s', I s' → look s' (key i) = some (val i) →
      Conforms C (body i) (fun _ s'' => I s'' ∧ ∀ k, k ≠ key i → look s'' k = look s' k) s') :
    Conforms C (items.forM body) (fun _ => I) s := by
  have hloop : Conforms C (items.forM body) _ s := Conforms.forM
    (I := fun rest s' => I s' ∧ (rest.map key).Nodup ∧
      ∀ i ∈ rest, look s' (key i) = some (val i)) ⟨hI, hnodup, hstored⟩ ?_
  · exact hloop.mono fun _ _ _ h => h.1
  · rintro i rest s' ⟨hI', hnodup', hstored'⟩
    obtain ⟨hfresh, hrest⟩ := List.nodup_cons.mp hnodup'
    refine (hbody i s' hI' (hstored' i List.mem_cons_self)).mono ?_
    rintro _ s'' - ⟨hI'', hframe⟩
    refine ⟨hI'', hrest, fun j hj => ?_⟩
    have hne : key j ≠ key i := fun heq => hfresh (heq ▸ List.mem_map_of_mem hj)
    rw [hframe _ hne]
    exact hstored' j (List.mem_cons_of_mem i hj)

end Conforms

/-! ### Runs -/

section Runs

variable {τ ι : Type*} {step : τ → ι → Option τ}

/-- **Induction along a run**, a partial step repeated for a list of inputs.  The invariant may
speak of the inputs consumed so far, and each step may use what is left of the whole list. -/
theorem foldlM_invariant {I : List ι → τ → Prop} {inputs : List ι} {t t' : τ} (hstart : I [] t)
    (hstep : ∀ before input after u u', inputs = before ++ input :: after →
      before.foldlM step t = some u → I before u → step u input = some u' →
        I (before ++ [input]) u')
    (hrun : inputs.foldlM step t = some t') : I inputs t' := by
  suffices h : ∀ before after u, inputs = before ++ after → before.foldlM step t = some u →
      I before u from h inputs [] t' (List.append_nil inputs).symm hrun
  intro before
  induction before using List.reverseRecOn with
  | nil =>
    intro after u _ hu
    cases hu
    exact hstart
  | append_singleton before input ih =>
    intro after u' hsplit hu
    rw [List.append_assoc] at hsplit
    simp only [List.foldlM_append, List.foldlM_cons, List.foldlM_nil, Option.bind_eq_bind,
      Option.bind_eq_some_iff] at hu
    obtain ⟨u, hbefore, u'', hinput, hend⟩ := hu
    cases hend
    exact hstep before input after u u' hsplit hbefore (ih _ u hsplit hbefore) hinput

end Runs

end HcOmni.Program
