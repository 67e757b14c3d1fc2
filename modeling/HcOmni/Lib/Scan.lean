import HcOmni.Lib.MapSum

/-!
# Going through a map and erasing entries

An iterator sees the entries as they were when it was created.  A loop over them may carry a variable
from one entry to the next and erase some entries from the map itself.  Here is what is left, and when
it is exactly what was meant to be left: the loop only sees an image of each value, while what is meant
may depend on the value itself.
-/

namespace HcOmni.Scan

open Std MapSum

universe u v w x

variable {κ : Type u} {ν : Type v} {μ : Type w} {σ : Type x} {cmp : κ → κ → Ordering} [TransCmp cmp]

/-! ### The loop -/

/-- Goes through the entries.  `step` computes the carried variable at an entry, and the entry is erased
if `gone` says so.  The result is the number of erased entries and what is left. -/
def scanErase (step : σ → ν → σ) (gone : σ → ν → Bool) :
    σ → List (κ × ν) → Nat × ExtTreeMap κ ν cmp → Nat × ExtTreeMap κ ν cmp
  | _, [], acc => acc
  | a, e :: rest, acc =>
      scanErase step gone (step a e.2) rest
        (if gone (step a e.2) e.2 then (acc.1 + 1, acc.2.erase e.1) else acc)

/-- The carried variable at every entry. -/
def statesAt (step : σ → ν → σ) : σ → List (κ × ν) → List (σ × κ × ν)
  | _, [] => []
  | a, e :: rest => (step a e.2, e) :: statesAt step (step a e.2) rest

variable {step : σ → ν → σ} {gone : σ → ν → Bool} {a : σ} {entries : List (κ × ν)}

@[simp] theorem map_snd_statesAt (step : σ → ν → σ) (a : σ) (entries : List (κ × ν)) :
    (statesAt step a entries).map Prod.snd = entries := by
  induction entries generalizing a with
  | nil => rfl
  | cons e rest ih => simp [statesAt, ih]

theorem statesAt_congr {step' : σ → ν → σ} (h : ∀ (b : σ), ∀ e ∈ entries, step b e.2 = step' b e.2) :
    statesAt step a entries = statesAt step' a entries := by
  induction entries generalizing a with
  | nil => rfl
  | cons e rest ih =>
    rw [statesAt, statesAt, h a e List.mem_cons_self]
    rw [ih fun b other hother => h b other (List.mem_cons_of_mem e hother)]

variable [LawfulEqCmp cmp]

theorem getElem?_scanErase {acc : Nat × ExtTreeMap κ ν cmp} {k : κ} {v : ν} :
    (scanErase step gone a entries acc).2[k]? = some v ↔
      acc.2[k]? = some v ∧
        ∀ x ∈ statesAt step a entries, x.2.1 = k → gone x.1 x.2.2 = false := by
  induction entries generalizing a acc with
  | nil => simp [scanErase, statesAt]
  | cons e rest ih =>
    rw [scanErase, ih]
    simp only [statesAt, List.forall_mem_cons]
    by_cases hgone : gone (step a e.2) e.2 = true
    · rw [if_pos hgone]
      constructor
      · rintro ⟨hleft, hrest⟩
        obtain ⟨hne, hget⟩ := getElem?_of_erase hleft
        exact ⟨hget, fun hkey => absurd hkey hne, hrest⟩
      · rintro ⟨hget, hfirst, hrest⟩
        have hne : e.1 ≠ k := by
          intro hkey
          rw [hfirst hkey] at hgone
          cases hgone
        exact ⟨by rw [getElem?_erase_of_ne hne, hget], hrest⟩
    · rw [if_neg hgone]
      constructor
      · rintro ⟨hget, hrest⟩
        exact ⟨hget, fun _ => Bool.eq_false_iff.mpr hgone, hrest⟩
      · rintro ⟨hget, -, hrest⟩
        exact ⟨hget, hrest⟩

/-! ### Loops that see an image of the values -/

variable {f : μ → ν} {t : ExtTreeMap κ μ cmp}

theorem map_insert (f : μ → ν) (t : ExtTreeMap κ μ cmp) (k : κ) (v : μ) :
    (t.insert k v).map (fun _ => f) = (t.map fun _ => f).insert k (f v) := by
  refine ExtTreeMap.ext_getElem? fun k' => ?_
  rw [ExtTreeMap.getElem?_map, ExtTreeMap.getElem?_insert, ExtTreeMap.getElem?_insert,
    ExtTreeMap.getElem?_map]
  split
  · rfl
  · rfl

theorem map_foldl_insert {ρ : Type*} (key : ρ → κ) (value : ρ → μ) (f : μ → ν) (records : List ρ)
    (t : ExtTreeMap κ μ cmp) :
    (records.foldl (fun t r => t.insert (key r) (value r)) t).map (fun _ => f) =
      records.foldl (fun t r => t.insert (key r) (f (value r))) (t.map fun _ => f) := by
  induction records generalizing t with
  | nil => rfl
  | cons r rest ih => rw [List.foldl_cons, List.foldl_cons, ih, map_insert]

theorem map_empty (f : μ → ν) :
    (∅ : ExtTreeMap κ μ cmp).map (fun _ => f) = (∅ : ExtTreeMap κ ν cmp) := by
  refine ExtTreeMap.ext_getElem? fun k => ?_
  rw [ExtTreeMap.getElem?_map, ExtTreeMap.getElem?_empty, ExtTreeMap.getElem?_empty]
  rfl

theorem mem_of_foldl_insert {ρ : Type*} {key : ρ → κ} {value : ρ → μ} {records : List ρ}
    {t : ExtTreeMap κ μ cmp} {k : κ} {v : μ}
    (h : (records.foldl (fun t r => t.insert (key r) (value r)) t)[k]? = some v) :
    t[k]? = some v ∨ ∃ r ∈ records, key r = k ∧ value r = v := by
  induction records generalizing t with
  | nil => exact .inl h
  | cons r rest ih =>
    rcases ih h with hbefore | ⟨r', hr', hkey, hv⟩
    · rcases getElem?_of_insert hbefore with ⟨hkey, hv⟩ | ⟨-, hold⟩
      · exact .inr ⟨r, List.mem_cons_self, hkey, hv⟩
      · exact .inl hold
    · exact .inr ⟨r', List.mem_cons_of_mem r hr', hkey, hv⟩

theorem statesAt_map (entries : List (κ × μ)) :
    statesAt step a (entries.map fun e => (e.1, f e.2)) =
      (statesAt (fun b v => step b (f v)) a entries).map fun x => (x.1, x.2.1, f x.2.2) := by
  induction entries generalizing a with
  | nil => rfl
  | cons e rest ih => simp [statesAt, ih]

/-- **When a loop leaves what is meant to be left.**  The loop sees the images of the values under `f`.
What it leaves is the image of the entries with `keep` exactly if at every entry it decides as `keep`
does. -/
theorem scanErase_exact_iff (keep : μ → Bool) :
    (∀ k : κ, (scanErase step gone a (t.map fun _ => f).toList (0, t.map fun _ => f)).2[k]? =
        (t[k]?.filter keep).map f) ↔
      ∀ x ∈ statesAt (fun b v => step b (f v)) a t.toList, gone x.1 (f x.2.2) = !keep x.2.2 := by
  have hstates : statesAt step a (t.map fun _ => f).toList =
      (statesAt (fun b v => step b (f v)) a t.toList).map fun x => (x.1, x.2.1, f x.2.2) := by
    rw [ExtTreeMap.toList_map, statesAt_map]
  have hmem : ∀ x ∈ statesAt (fun b v => step b (f v)) a t.toList, t[x.2.1]? = some x.2.2 := by
    intro x hx
    refine mem_toList.mp ?_
    rw [← map_snd_statesAt (fun b v => step b (f v)) a t.toList]
    exact List.mem_map_of_mem hx
  have hleft : ∀ (k : κ) (w : ν), (scanErase step gone a (t.map fun _ => f).toList (0, t.map fun _ => f)).2[k]? =
      some w ↔ (∃ v, t[k]? = some v ∧ f v = w) ∧
        ∀ x ∈ statesAt (fun b v => step b (f v)) a t.toList, x.2.1 = k →
          gone x.1 (f x.2.2) = false := by
    intro k w
    rw [getElem?_scanErase, hstates, ExtTreeMap.getElem?_map, Option.map_eq_some_iff]
    simp only [List.forall_mem_map]
  constructor
  · intro hexact x hx
    have hget := hmem x hx
    have hkey := hexact x.2.1
    rw [hget] at hkey
    cases hkeep : keep x.2.2 with
    | false =>
      -- nothing is found under the key, so some round has erased it, and keys are distinct
      rw [Option.filter_some, hkeep] at hkey
      by_contra hstays
      have hsome := (hleft x.2.1 (f x.2.2)).mpr ⟨⟨_, hget, rfl⟩, fun y hy hsame => ?_⟩
      · rw [hkey] at hsome
        cases hsome
      · have hnodup := nodup_keys_toList t
        rw [← map_snd_statesAt (fun b v => step b (f v)) a t.toList,
          List.map_map] at hnodup
        rw [List.inj_on_of_nodup_map hnodup hy hx hsame]
        simpa using hstays
    | true =>
      rw [Option.filter_some, hkeep] at hkey
      exact ((hleft _ _).mp hkey).2 x hx rfl
  · intro hdecides k
    ext w
    rw [hleft, Option.map_eq_some_iff]
    constructor
    · rintro ⟨⟨v, hget, rfl⟩, hstays⟩
      obtain ⟨x, hx, hxkey⟩ : ∃ x ∈ statesAt (fun b v => step b (f v)) a t.toList, x.2 = (k, v) := by
        have hin := mem_toList.mpr (show t[(k, v).1]? = some (k, v).2 from hget)
        rw [← map_snd_statesAt (fun b v => step b (f v)) a t.toList] at hin
        exact List.mem_map.mp hin
      have hgone := hstays x hx (by rw [hxkey])
      rw [hdecides x hx, hxkey] at hgone
      refine ⟨v, ?_, rfl⟩
      rw [hget, Option.filter_some, if_pos (by simpa using hgone)]
    · rintro ⟨v, hfilter, rfl⟩
      obtain ⟨hget, hkeep⟩ := Option.filter_eq_some_iff.mp hfilter
      refine ⟨⟨v, hget, rfl⟩, fun x hx hkey => ?_⟩
      have hvalue := hmem x hx
      rw [hkey, hget] at hvalue
      rw [hdecides x hx, ← Option.some.inj hvalue, hkeep]
      rfl

theorem scanErase_unit_exact_iff {gone : ν → Bool} (keep : μ → Bool) :
    (∀ k : κ, (scanErase (fun (_ : Unit) _ => ()) (fun _ => gone) () (t.map fun _ => f).toList
        (0, t.map fun _ => f)).2[k]? = (t[k]?.filter keep).map f) ↔
      ∀ (k : κ) (v : μ), t[k]? = some v → gone (f v) = !keep v := by
  rw [scanErase_exact_iff]
  have hsnd := map_snd_statesAt (fun (_ : Unit) (_ : μ) => ()) () t.toList
  constructor
  · intro h k v hget
    have hin : (k, v) ∈ t.toList := mem_toList.mpr hget
    rw [← hsnd] at hin
    obtain ⟨x, hx, hkey⟩ := List.mem_map.mp hin
    have hdecides := h x hx
    rw [hkey] at hdecides
    exact hdecides
  · intro h x hx
    refine h x.2.1 x.2.2 (mem_toList.mp ?_)
    rw [← hsnd]
    exact List.mem_map_of_mem hx

/-! ### Rewriting entries -/

/-- One round of a loop that rewrites some of the entries and counts them. -/
def scanUpdate (changed : ν → Bool) (new : ν → ν) (acc : Nat × ExtTreeMap κ ν cmp) (e : κ × ν) :
    Nat × ExtTreeMap κ ν cmp :=
  if changed e.2 then (acc.1 + 1, acc.2.insert e.1 (new e.2)) else acc

variable {changed : ν → Bool} {new : ν → ν} {acc : Nat × ExtTreeMap κ ν cmp}

omit [LawfulEqCmp cmp] in
theorem count_foldl_scanUpdate (entries : List (κ × ν)) :
    (entries.foldl (scanUpdate changed new) acc).1 =
      acc.1 + entries.countP fun e => changed e.2 := by
  induction entries generalizing acc with
  | nil => rfl
  | cons e rest ih =>
    rw [List.foldl_cons, ih, List.countP_cons, scanUpdate]
    split
    · omega
    · rfl

theorem getElem?_scanUpdate_of_ne {e : κ × ν} {k : κ} (h : e.1 ≠ k) :
    (scanUpdate changed new acc e).2[k]? = acc.2[k]? := by
  unfold scanUpdate
  split
  · exact getElem?_insert_of_ne h
  · rfl

theorem getElem?_foldl_scanUpdate_of_ne {k : κ} (h : ∀ e ∈ entries, e.1 ≠ k) :
    (entries.foldl (scanUpdate changed new) acc).2[k]? = acc.2[k]? := by
  induction entries generalizing acc with
  | nil => rfl
  | cons e rest ih =>
    obtain ⟨hne, hrest⟩ := List.forall_mem_cons.mp h
    rw [List.foldl_cons, ih hrest, getElem?_scanUpdate_of_ne hne]

theorem getElem?_foldl_scanUpdate {k : κ} {v : ν} (hnodup : (entries.map Prod.fst).Nodup)
    (hmem : (k, v) ∈ entries) (hget : acc.2[k]? = some v) :
    (entries.foldl (scanUpdate changed new) acc).2[k]? = some (if changed v then new v else v) := by
  induction entries generalizing acc with
  | nil => cases hmem
  | cons e rest ih =>
    rw [List.map_cons, List.nodup_cons] at hnodup
    rw [List.foldl_cons]
    rcases List.mem_cons.mp hmem with rfl | hrest
    · have hothers : ∀ other ∈ rest, other.1 ≠ k := by
        intro other hother hkey
        have hin : other.1 ∈ rest.map Prod.fst := List.mem_map_of_mem hother
        rw [hkey] at hin
        exact hnodup.1 hin
      rw [getElem?_foldl_scanUpdate_of_ne hothers]
      simp only [scanUpdate]
      split
      · exact ExtTreeMap.getElem?_insert_self
      · exact hget
    · have hne : e.1 ≠ k := fun hkey => hnodup.1 (hkey ▸ List.mem_map_of_mem hrest)
      exact ih hnodup.2 hrest (by rw [getElem?_scanUpdate_of_ne hne, hget])

/-- **What a rewriting loop does**: it counts the changed entries, and each of them gets its new value. -/
theorem foldl_scanUpdate (t : ExtTreeMap κ ν cmp) :
    t.toList.foldl (scanUpdate changed new) (0, t) =
      (t.toList.countP fun e => changed e.2, t.map fun _ v => if changed v then new v else v) := by
  refine Prod.ext ?_ (ExtTreeMap.ext_getElem? fun k => ?_)
  · rw [count_foldl_scanUpdate, Nat.zero_add]
  · rw [ExtTreeMap.getElem?_map]
    cases hget : t[k]? with
    | none =>
      rw [getElem?_foldl_scanUpdate_of_ne fun e he hkey => ?_]
      · exact hget
      · have hfound := mem_toList.mp he
        rw [hkey, hget] at hfound
        cases hfound
    | some v =>
      have hmem : (k, v) ∈ t.toList := mem_toList.mpr hget
      exact getElem?_foldl_scanUpdate (nodup_keys_toList t) hmem hget

end HcOmni.Scan
