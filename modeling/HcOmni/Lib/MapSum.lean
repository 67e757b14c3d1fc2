import Mathlib

/-!
# Sums over ordered maps

An ordered map is `Std.ExtTreeMap`; this module adds the one operation the library does not
have, the sum of a weight over all entries, with the rules for following it through `insert`
and `erase`.  `weightAt` is the contribution of one key, so every rule is an equation between
sums and needs no case distinction on whether the key was present.
-/

namespace HcOmni.MapSum

open Std

universe u v w

variable {κ : Type u} {ν : Type v} {cmp : κ → κ → Ordering} [TransCmp cmp] [LawfulEqCmp cmp]

/-! ### The entries of a map -/

theorem mem_toList {t : ExtTreeMap κ ν cmp} {e : κ × ν} : e ∈ t.toList ↔ t[e.1]? = some e.2 :=
  ExtTreeMap.mem_toList_iff_getElem?_eq_some

theorem nodup_toList (t : ExtTreeMap κ ν cmp) : t.toList.Nodup := by
  refine t.distinct_keys_toList.imp ?_
  rintro a b hab rfl
  exact hab ReflCmp.compare_self

theorem nodup_keys_toList (t : ExtTreeMap κ ν cmp) : (t.toList.map Prod.fst).Nodup := by
  refine List.pairwise_map.mpr (t.distinct_keys_toList.imp ?_)
  intro a b hab heq
  exact hab (by rw [heq]; exact ReflCmp.compare_self)

theorem getElem?_insert_of_ne {t : ExtTreeMap κ ν cmp} {k k' : κ} {v : ν} (h : k ≠ k') :
    (t.insert k v)[k']? = t[k']? := by
  simp [ExtTreeMap.getElem?_insert, LawfulEqCmp.compare_eq_iff_eq, h]

theorem getElem?_erase_of_ne {t : ExtTreeMap κ ν cmp} {k k' : κ} (h : k ≠ k') :
    (t.erase k)[k']? = t[k']? := by
  simp [ExtTreeMap.getElem?_erase, LawfulEqCmp.compare_eq_iff_eq, h]

theorem insertMany_toList (t : ExtTreeMap κ ν cmp) :
    (∅ : ExtTreeMap κ ν cmp).insertMany t.toList = t := by
  rw [← ExtTreeMap.ofList_eq_insertMany_empty]
  refine ExtTreeMap.ext_getElem? fun k => ?_
  cases hk : t[k]? with
  | some v =>
    exact ExtTreeMap.getElem?_ofList_of_mem ReflCmp.compare_self t.distinct_keys_toList
      (mem_toList.mpr hk)
  | none =>
    classical
    refine ExtTreeMap.getElem?_ofList_of_contains_eq_false (Bool.eq_false_iff.mpr fun hmem => ?_)
    obtain ⟨entry, hentry, rfl⟩ := List.mem_map.mp (List.contains_iff_mem.mp hmem)
    rw [mem_toList.mp hentry] at hk
    cases hk

theorem getElem?_of_erase {t : ExtTreeMap κ ν cmp} {k k' : κ} {v : ν}
    (h : (t.erase k)[k']? = some v) : k ≠ k' ∧ t[k']? = some v := by
  have hne : k ≠ k' := by
    rintro rfl
    simp at h
  exact ⟨hne, by rwa [getElem?_erase_of_ne hne] at h⟩

theorem getElem?_of_insert {t : ExtTreeMap κ ν cmp} {k k' : κ} {v v' : ν}
    (h : (t.insert k v)[k']? = some v') : k = k' ∧ v = v' ∨ k ≠ k' ∧ t[k']? = some v' := by
  by_cases hne : k = k'
  · subst hne
    exact .inl ⟨rfl, by simpa using h⟩
  · exact .inr ⟨hne, by rwa [getElem?_insert_of_ne hne] at h⟩

theorem getElem?_filter_eq_some {t : ExtTreeMap κ ν cmp} {keep : κ → ν → Bool} {k : κ} {v : ν} :
    (t.filter keep)[k]? = some v ↔ t[k]? = some v ∧ keep k v = true := by
  have hmem := mem_toList (t := t.filter keep) (e := (k, v))
  rw [ExtTreeMap.toList_filter, List.mem_filter, mem_toList] at hmem
  exact hmem.symm

theorem getElem?_filter (t : ExtTreeMap κ ν cmp) (keep : κ → ν → Bool) (k : κ) :
    (t.filter keep)[k]? = t[k]?.filter (keep k) := by
  ext v
  rw [getElem?_filter_eq_some, Option.filter_eq_some_iff]

theorem toList_insert_perm {t : ExtTreeMap κ ν cmp} {k : κ} {v : ν} (hk : t[k]? = none) :
    (t.insert k v).toList.Perm ((k, v) :: t.toList) := by
  have hnot : (k, v) ∉ t.toList := by
    intro hmem
    rw [mem_toList, hk] at hmem
    cases hmem
  refine (List.perm_ext_iff_of_nodup (nodup_toList _)
    (List.nodup_cons.mpr ⟨hnot, nodup_toList t⟩)).mpr ?_
  rintro ⟨k', v'⟩
  simp only [mem_toList, List.mem_cons, Prod.mk.injEq, ExtTreeMap.getElem?_insert,
    LawfulEqCmp.compare_eq_iff_eq]
  by_cases h : k = k'
  · subst h
    simp only [ReflCmp.compare_self, if_true, true_and, hk, reduceCtorEq, or_false,
      Option.some.injEq]
    exact eq_comm
  · have h' : ¬k' = k := fun heq => h heq.symm
    simp [h, h']

theorem insert_erase_self (t : ExtTreeMap κ ν cmp) (k : κ) (v : ν) :
    (t.erase k).insert k v = t.insert k v := by
  refine ExtTreeMap.ext_getElem? fun k' => ?_
  simp only [ExtTreeMap.getElem?_insert, ExtTreeMap.getElem?_erase]
  by_cases h : cmp k k' = .eq <;> simp [h]

theorem erase_insert_self (t : ExtTreeMap κ ν cmp) (k : κ) (v : ν) :
    (t.insert k v).erase k = t.erase k := by
  refine ExtTreeMap.ext_getElem? fun k' => ?_
  simp only [ExtTreeMap.getElem?_insert, ExtTreeMap.getElem?_erase]
  by_cases h : cmp k k' = .eq <;> simp [h]

theorem insert_insert_self (t : ExtTreeMap κ ν cmp) (k : κ) (v v' : ν) :
    (t.insert k v).insert k v' = t.insert k v' := by
  refine ExtTreeMap.ext_getElem? fun k' => ?_
  simp only [ExtTreeMap.getElem?_insert]
  by_cases h : cmp k k' = .eq <;> simp [h]

theorem insertIfNew_of_none {t : ExtTreeMap κ ν cmp} {k : κ} {v : ν} (hk : t[k]? = none) :
    t.insertIfNew k v = t.insert k v := by
  have hnot : k ∉ t := by simp [ExtTreeMap.mem_iff_isSome_getElem?, hk]
  refine ExtTreeMap.ext_getElem? fun k' => ?_
  rw [ExtTreeMap.getElem?_insertIfNew, ExtTreeMap.getElem?_insert]
  by_cases h : cmp k k' = .eq
  · simp [h, hnot]
  · simp [h]

theorem insert_eq_self {t : ExtTreeMap κ ν cmp} {k : κ} {v : ν} (hk : t[k]? = some v) :
    t.insert k v = t := by
  refine ExtTreeMap.ext_getElem? fun k' => ?_
  simp only [ExtTreeMap.getElem?_insert, LawfulEqCmp.compare_eq_iff_eq]
  by_cases h : k = k'
  · subst h; simp [hk]
  · simp [h]

theorem erase_eq_self {t : ExtTreeMap κ ν cmp} {k : κ} (hk : t[k]? = none) : t.erase k = t := by
  refine ExtTreeMap.ext_getElem? fun k' => ?_
  simp only [ExtTreeMap.getElem?_erase, LawfulEqCmp.compare_eq_iff_eq]
  by_cases h : k = k'
  · subst h; simp [hk]
  · simp [h]

/-! ### The sum of a weight -/

section Sum

variable {M : Type w} [AddCommMonoid M]

/-- The sum of `f` over all entries of the map. -/
def mapSum (t : ExtTreeMap κ ν cmp) (f : κ → ν → M) : M :=
  (t.toList.map fun e => f e.1 e.2).sum

/-- What the entry at `k`, if there is one, contributes to the sum of `f`. -/
def weightAt (t : ExtTreeMap κ ν cmp) (f : κ → ν → M) (k : κ) : M :=
  match t[k]? with
  | some v => f k v
  | none => 0

omit [LawfulEqCmp cmp] in
theorem weightAt_some {t : ExtTreeMap κ ν cmp} {f : κ → ν → M} {k : κ} {v : ν}
    (h : t[k]? = some v) : weightAt t f k = f k v := by
  simp [weightAt, h]

omit [LawfulEqCmp cmp] in
theorem weightAt_none {t : ExtTreeMap κ ν cmp} {f : κ → ν → M} {k : κ}
    (h : t[k]? = none) : weightAt t f k = 0 := by
  simp [weightAt, h]

omit [LawfulEqCmp cmp] in
@[simp] theorem mapSum_empty (f : κ → ν → M) : mapSum (∅ : ExtTreeMap κ ν cmp) f = 0 := by
  unfold mapSum
  rw [ExtTreeMap.toList_eq_nil_iff.mpr rfl]
  rfl

theorem mapSum_insert_new {t : ExtTreeMap κ ν cmp} {f : κ → ν → M} {k : κ} {v : ν}
    (h : t[k]? = none) : mapSum (t.insert k v) f = f k v + mapSum t f := by
  unfold mapSum
  rw [((toList_insert_perm h).map _).sum_eq]
  simp

/-- **One entry splits off.**  The sum is the contribution of `k` plus the sum without it. -/
theorem mapSum_split (t : ExtTreeMap κ ν cmp) (f : κ → ν → M) (k : κ) :
    mapSum t f = weightAt t f k + mapSum (t.erase k) f := by
  cases h : t[k]? with
  | none => rw [weightAt_none h, zero_add, erase_eq_self h]
  | some v =>
    have herase : (t.erase k)[k]? = none := by simp
    rw [weightAt_some h, ← mapSum_insert_new herase, insert_erase_self, insert_eq_self h]

theorem mapSum_insert (t : ExtTreeMap κ ν cmp) (f : κ → ν → M) (k : κ) (v : ν) :
    mapSum (t.insert k v) f + weightAt t f k = mapSum t f + f k v := by
  have herase : (t.erase k)[k]? = none := by simp
  rw [← insert_erase_self, mapSum_insert_new herase, mapSum_split t f k]
  ac_rfl

omit [LawfulEqCmp cmp] in
theorem weightAt_getD (t : ExtTreeMap κ ν cmp) (f : κ → ν → M) (k : κ) (d : ν) (hd : f k d = 0) :
    weightAt t f k = f k (t.getD k d) := by
  rw [ExtTreeMap.getD_eq_getD_getElem?]
  cases h : t[k]? with
  | none => simp [weightAt_none h, hd]
  | some old => simp [weightAt_some h]

theorem mapSum_insert_getD (t : ExtTreeMap κ ν cmp) (f : κ → ν → M) (k : κ) (v d : ν)
    (hd : f k d = 0) : mapSum (t.insert k v) f + f k (t.getD k d) = mapSum t f + f k v := by
  rw [← weightAt_getD t f k d hd, mapSum_insert]

theorem mapSum_congr {t : ExtTreeMap κ ν cmp} {f g : κ → ν → M}
    (h : ∀ k v, t[k]? = some v → f k v = g k v) : mapSum t f = mapSum t g := by
  unfold mapSum
  refine congrArg List.sum (List.map_congr_left ?_)
  intro e he
  exact h e.1 e.2 (mem_toList.mp he)

theorem mapSum_eq_zero {t : ExtTreeMap κ ν cmp} {f : κ → ν → M}
    (h : ∀ k v, t[k]? = some v → f k v = 0) : mapSum t f = 0 := by
  rw [mapSum_congr (g := fun _ _ => 0) h]
  simp [mapSum]

end Sum

/-! ### Integer weights -/

section Bounds

variable {t : ExtTreeMap κ ν cmp} {f : κ → ν → ℤ}

theorem mapSum_nonneg (h : ∀ k v, t[k]? = some v → 0 ≤ f k v) : 0 ≤ mapSum t f := by
  refine List.sum_nonneg ?_
  intro x hx
  obtain ⟨e, he, rfl⟩ := List.mem_map.mp hx
  exact h e.1 e.2 (mem_toList.mp he)

theorem weightAt_le_mapSum (h : ∀ k v, t[k]? = some v → 0 ≤ f k v) (k : κ) :
    weightAt t f k ≤ mapSum t f := by
  rw [mapSum_split t f k]
  have hrest : 0 ≤ mapSum (t.erase k) f := by
    refine mapSum_nonneg fun k' v' hk' => ?_
    rw [ExtTreeMap.getElem?_erase] at hk'
    by_cases heq : cmp k k' = .eq
    · simp [heq] at hk'
    · exact h k' v' (by simpa [heq] using hk')
  omega

end Bounds

/-! ### Sums over parts of a list -/

theorem sum_filter_le {α : Type*} {l : List α} {f : α → ℤ} (keep : α → Bool)
    (h : ∀ x ∈ l, 0 ≤ f x) : ((l.filter keep).map f).sum ≤ (l.map f).sum := by
  induction l with
  | nil => simp
  | cons x rest ih =>
    obtain ⟨hx, hrest⟩ := List.forall_mem_cons.mp h
    have := ih hrest
    by_cases hk : keep x = true
    · simp [hk, this]
    · simp only [hk, List.filter_cons, Bool.false_eq_true, if_false, List.map_cons, List.sum_cons]
      omega

theorem sum_filter_pos {α : Type*} {l : List α} {f : α → ℤ} (h : ∀ x ∈ l, 0 ≤ f x) :
    ((l.filter fun x => decide (0 < f x)).map f).sum = (l.map f).sum := by
  induction l with
  | nil => simp
  | cons x rest ih =>
    obtain ⟨hx, hrest⟩ := List.forall_mem_cons.mp h
    have := ih hrest
    by_cases hpos : 0 < f x
    · simp [hpos, this]
    · simp only [hpos, decide_false, List.filter_cons, Bool.false_eq_true, if_false, List.map_cons,
        List.sum_cons]
      omega

end HcOmni.MapSum
