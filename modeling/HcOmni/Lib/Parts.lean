import HcOmni.Lib.Program

/-!
# What a program leaves alone

A state is divided into parts, each of which has a value in every state.  A program writes a list
of parts if everything it can lead to, failures included, has the values of all other parts in
common with the start.  No property of the start is needed for that, so the statement is made once
for each program and used for every invariant that speaks about the other parts.
-/

namespace HcOmni.Program

universe u

variable {ε σ α β : Type u} {ι : Type*}

/-- A division of the state into parts. -/
structure Parts (ι : Type*) (σ : Type u) where
  Value : ι → Type*
  value : ∀ i, σ → Value i

/-- The states differ at most in the given parts. -/
def Parts.Agree (P : Parts ι σ) (W : List ι) (s s' : σ) : Prop :=
  ∀ i, i ∉ W → P.value i s' = P.value i s

theorem Parts.Agree.refl {P : Parts ι σ} {W : List ι} (s : σ) : P.Agree W s s := fun _ _ => rfl

theorem Parts.Agree.trans {P : Parts ι σ} {W : List ι} {s t r : σ} (h : P.Agree W s t)
    (h' : P.Agree W t r) : P.Agree W s r :=
  fun i hi => (h' i hi).trans (h i hi)

theorem Parts.Agree.mono {P : Parts ι σ} {W W' : List ι} {s s' : σ} (h : P.Agree W s s')
    (hsub : W ⊆ W') : P.Agree W' s s' :=
  fun i hi => h i fun hmem => hi (hsub hmem)

/-- Whatever the outcome, `m` changes at most the given parts. -/
def Writes (P : Parts ι σ) (W : List ι) (m : EStateM ε σ α) (s : σ) : Prop :=
  wp m (fun _ s' => P.Agree W s s') (fun _ s' => P.Agree W s s') s

namespace Writes

variable {P : Parts ι σ} {W W' : List ι} {s : σ}

protected theorem pure {a : α} : Writes P W (pure a : EStateM ε σ α) s := Parts.Agree.refl s

protected theorem throw {e : ε} : Writes P W (throw e : EStateM ε σ α) s := Parts.Agree.refl s

protected theorem modify {f : σ → σ} (h : P.Agree W s (f s)) :
    Writes P W (modify f : EStateM ε σ PUnit) s := h

protected theorem set {s' : σ} (h : P.Agree W s s') :
    Writes P W (set s' : EStateM ε σ PUnit) s := h

protected theorem get {f : σ → EStateM ε σ α} (h : Writes P W (f s) s) :
    Writes P W (get >>= f) s := h

protected theorem bind {m : EStateM ε σ α} {f : α → EStateM ε σ β} (hm : Writes P W m s)
    (hf : ∀ a s', Writes P W (f a) s') : Writes P W (m >>= f) s := by
  unfold Writes
  rw [wp_bind]
  refine wp_mono hm ?_ fun _ _ h => h
  intro a s' hfirst
  exact wp_mono (hf a s') (fun _ _ hrest => hfirst.trans hrest) fun _ _ hrest => hfirst.trans hrest

protected theorem ite {c : Prop} [Decidable c] {m m' : EStateM ε σ α} (ht : Writes P W m s)
    (hf : Writes P W m' s) : Writes P W (if c then m else m') s := by
  by_cases h : c
  · rw [if_pos h]; exact ht
  · rw [if_neg h]; exact hf

protected theorem of_reads {Q : α → Prop} {E : ε → Prop} {m : EStateM ε σ α} (hm : Reads m Q E s) :
    Writes P W m s := by
  refine wp_mono hm ?_ ?_
  · rintro _ s' ⟨rfl, -⟩
    exact Parts.Agree.refl s'
  · rintro _ s' ⟨rfl, -⟩
    exact Parts.Agree.refl s'

protected theorem reads {Q : α → Prop} {E : ε → Prop} {m : EStateM ε σ α} {f : α → EStateM ε σ β}
    (hm : Reads m Q E s) (hf : ∀ a, Q a → Writes P W (f a) s) : Writes P W (m >>= f) s :=
  hm.wp_bind hf fun _ _ => Parts.Agree.refl s

protected theorem mono {m : EStateM ε σ α} (h : Writes P W m s) (hsub : W ⊆ W') :
    Writes P W' m s :=
  wp_mono h (fun _ _ hw => hw.mono hsub) fun _ _ hw => hw.mono hsub

protected theorem forM {κ : Type u} {body : κ → EStateM ε σ PUnit}
    (hbody : ∀ k s, Writes P W (body k) s) :
    ∀ (items : List κ) (s : σ), Writes P W (items.forM body) s
  | [], _ => Writes.pure
  | k :: rest, s => Writes.bind (hbody k s) fun _ s' => Writes.forM hbody rest s'

theorem same {m : EStateM ε σ α} {i : ι} (h : Writes P W m s) (hi : i ∉ W) :
    wp m (fun _ s' => P.value i s' = P.value i s) (fun _ s' => P.value i s' = P.value i s) s :=
  wp_mono h (fun _ _ hw => hw i hi) fun _ _ hw => hw i hi

end Writes

end HcOmni.Program
