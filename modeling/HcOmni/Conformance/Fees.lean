import HcOmni.Conformance.Basic
import HcOmni.Lib.Shares

/-!
# Splitting amounts over owners, and the fee cache

An amount that is split over the owners of a property is given out completely: every share is
rounded up, and the last ones are cut.  Adding a fee to the cache, and the distribution that may
follow, is a `FeeStep`.
-/

namespace HcOmni

open Std MapSum Program CMPTally State Shares

variable {c : Ctx} {s s' : State} {env : Env} {p q : PropertyId}

/-! ### Shares -/

/-- What `splitAmount` gives out: positive shares, together at most the amount.  There is no
division by zero while the total is a positive `int64_t`. -/
theorem reads_splitAmount {amount total : Int} : ∀ (owners : List (Int × Address)) (sent : Int),
    Reads (splitAmount amount total owners sent)
      (fun receivers => (∀ r ∈ receivers, 0 < r.1) ∧
        (sent ≤ amount → sent + (receivers.map Prod.fst).sum ≤ amount))
      (CalcError (owners ≠ [] ∧ ¬(0 < total ∧ total ≤ MAX_INT_8_BYTES))) s
  | [], sent => .pure ⟨by simp, by simp⟩
  | (owned, address) :: rest, sent => by
    unfold splitAmount
    refine .bind reads_convertTo256 fun _ _ => .bind reads_convertTo256 fun _ _ =>
      .bind reads_convertTo256 fun total256 htotal => .bind (reads_divideAndRoundUp ?_) fun _ _ =>
        .bind reads_convertTo64 fun shouldReceive _ => ?_
    · rintro rfl
      refine ⟨by simp, fun hrange => ?_⟩
      have hnat := toNat_ofAmount ⟨htotal.1, hrange.2⟩
      rw [← htotal.2] at hnat
      have : total.toNat = 0 := hnat.symm
      omega
    refine .ite (fun hpos => ?_) fun _ => .pure ⟨by simp, by simp⟩
    refine .bind ((reads_splitAmount rest _).mono_error ?_) fun receivers h => .pure ?_
    · exact fun e he => he.imp_right fun h => ⟨⟨by simp, h.1.2⟩, h.2⟩
    obtain ⟨hall, hsum⟩ := h
    refine ⟨?_, fun hsent => ?_⟩
    · rintro r (_ | ⟨_, hr⟩)
      · exact hpos
      · exact hall r hr
    · have hle : (if amount - sent < shouldReceive then amount - sent else shouldReceive) ≤
          amount - sent := by split <;> omega
      have := hsum (by omega)
      simp only [List.map_cons, List.sum_cons]
      omega

theorem reads_share {owned amount total : Int} {E : Halt → Prop}
    (howned : 0 < owned ∧ owned ≤ total) (hamount : 0 < amount ∧ amount ≤ MAX_INT_8_BYTES)
    (htotal : total ≤ MAX_INT_8_BYTES) {β : Type} {P : β → Prop} {f : Int → Op β}
    (hf : Reads (f (due amount total owned)) P E s) :
    Reads (do
      let owns ← convertTo256 owned
      let amount256 ← convertTo256 amount
      let total256 ← convertTo256 total
      let piece ← divideAndRoundUp (owns * amount256) total256
      let should ← convertTo64 piece
      f should) P E s := by
  have howned' : 0 ≤ owned ∧ owned ≤ MAX_INT_8_BYTES := ⟨by omega, by omega⟩
  have hamount' : 0 ≤ amount ∧ amount ≤ MAX_INT_8_BYTES := ⟨by omega, hamount.2⟩
  have htotal' : 0 ≤ total ∧ total ≤ MAX_INT_8_BYTES := ⟨by omega, htotal⟩
  have hpos : 0 < total := by omega
  refine .bind (reads_convertTo256_of_nonneg howned'.1) fun owns howns =>
    .bind (reads_convertTo256_of_nonneg hamount'.1) fun amount256 hamount256 =>
    .bind (reads_convertTo256_of_nonneg htotal'.1) fun total256 htotal256 => ?_
  subst howns hamount256 htotal256
  refine .bind (reads_divideAndRoundUp_amounts howned' hamount' htotal' hpos fun _ =>
    due_le_iff hpos) fun piece hdue => ?_
  have hle : due amount total owned ≤ amount := due_le hpos hamount'.1 howned.2
  refine .bind (reads_convertTo64_of_le (by omega)) fun should hshould => ?_
  rw [hshould, hdue]
  exact hf

/-- **The loop gives the shares**, and nothing goes wrong. -/
theorem reads_splitAmount_shares {amount total : Int} {E : Halt → Prop}
    (hamount : 0 < amount ∧ amount ≤ MAX_INT_8_BYTES) (htotal : total ≤ MAX_INT_8_BYTES) :
    ∀ (owners : List (Int × Address)) (sent : Int),
      (∀ owner ∈ owners, 0 < owner.1 ∧ owner.1 ≤ total) →
      Reads (splitAmount amount total owners sent)
        (fun receivers => receivers = shares amount total owners sent) E s
  | [], _, _ => .pure rfl
  | (owned, address) :: rest, sent, howners => by
    obtain ⟨howned, hrest⟩ := List.forall_mem_cons.mp howners
    unfold splitAmount
    refine reads_share howned hamount htotal ?_
    have hmin : (if amount - sent < due amount total owned then amount - sent
        else due amount total owned) = min (due amount total owned) (amount - sent) := by
      rcases le_total (due amount total owned) (amount - sent) with hall | hcut
      · rw [if_neg (by omega), min_eq_left hall]
      · rw [min_eq_right hcut]
        split
        · rfl
        · omega
    dsimp only
    rw [hmin]
    refine .ite (fun hgive => ?_) fun hstop => .pure (shares_cons_of_nonpos hstop).symm
    refine .bind (reads_splitAmount_shares hamount htotal rest _ hrest) fun receivers h => .pure ?_
    rw [h, shares_cons_of_pos hgive]

/-! ### Receivers -/

theorem total_nonneg (hnonneg : ∀ a t, t ≠ TallyType.PENDING → 0 ≤ s.money a p t) :
    ∀ entry ∈ s.mpTallyMap.toList, 0 ≤ CMPTally.total entry.2 p := by
  intro entry hentry
  have hmoney : ∀ t, s.money entry.1 p t = entry.2.getMoney p t := fun t => by
    simp [money, mem_toList.mp hentry]
  have h₁ := hnonneg entry.1 .BALANCE (by decide)
  have h₂ := hnonneg entry.1 .SELLOFFER_RESERVE (by decide)
  have h₃ := hnonneg entry.1 .ACCEPT_RESERVE (by decide)
  have h₄ := hnonneg entry.1 .METADEX_RESERVE (by decide)
  simp only [hmoney] at h₁ h₂ h₃ h₄
  unfold CMPTally.total
  omega

theorem ownersOf_bounds (hnonneg : ∀ a t, t ≠ TallyType.PENDING → 0 ≤ s.money a p t)
    (sender : Address) :
    (∀ owner ∈ ownersOf s sender p, 0 ≤ owner.1) ∧
      ((ownersOf s sender p).map Prod.fst).sum ≤ s.held p := by
  constructor
  · intro owner howner
    obtain ⟨entry, hentry, rfl⟩ := List.mem_map.mp howner
    exact total_nonneg hnonneg entry (List.mem_of_mem_filter hentry)
  · unfold ownersOf
    rw [List.map_map]
    exact sum_filter_le _ (total_nonneg hnonneg)

theorem State.InRange.nonneg (h : s.InRange) (p : PropertyId) :
    ∀ a t, t ≠ TallyType.PENDING → 0 ≤ s.money a p t := fun a t ht => (h a p t ht).1

section Receivers

variable {sender : Address} {amount : Int}

theorem totalTokens_eq (hnonneg : ∀ a t, t ≠ TallyType.PENDING → 0 ≤ s.money a p t)
    (hheld : s.held p ≤ MAX_INT_8_BYTES) :
    toInt64 ((ownersOf s sender p).map Prod.fst).sum = ((ownersOf s sender p).map Prod.fst).sum := by
  obtain ⟨hall, hsum⟩ := ownersOf_bounds hnonneg sender
  have hpos : 0 ≤ ((ownersOf s sender p).map Prod.fst).sum :=
    List.sum_nonneg (List.forall_mem_map.mpr hall)
  exact toInt64_of_range (by unfold MIN_INT_8_BYTES; omega) (by omega)

theorem perm_owners (l : List (Int × Address)) :
    ((l.filter fun owner => 0 < owner.1).insertionSort SendToOwnersGE).Perm
      (l.filter fun owner => 0 < owner.1) :=
  List.perm_insertionSort _ _

theorem owned_le_total (hnonneg : ∀ a t, t ≠ TallyType.PENDING → 0 ≤ s.money a p t) :
    ∀ owner ∈ ownersOf s sender p, owner.1 ≤ ((ownersOf s sender p).map Prod.fst).sum := by
  intro owner howner
  have hall := (ownersOf_bounds hnonneg sender).1
  exact List.single_le_sum (List.forall_mem_map.mpr hall) _ (List.mem_map_of_mem howner)

theorem total_pos (hnonneg : ∀ a t, t ≠ TallyType.PENDING → 0 ≤ s.money a p t)
    (hne : ((ownersOf s sender p).filter fun owner => 0 < owner.1) ≠ []) :
    0 < ((ownersOf s sender p).map Prod.fst).sum := by
  obtain ⟨owner, howner⟩ := List.exists_mem_of_ne_nil _ hne
  obtain ⟨hmem, hpos⟩ := List.mem_filter.mp howner
  exact (of_decide_eq_true hpos).trans_le (owned_le_total hnonneg owner hmem)

/-- What `stoGetReceivers` returns. -/
theorem reads_stoGetReceivers (hrange : s.InRange) :
    Reads (stoGetReceivers sender p amount)
      (fun receivers => (∀ r ∈ receivers, 0 < r.1) ∧
        (0 ≤ amount → (receivers.map Prod.fst).sum ≤ amount))
      (CalcError ¬s.held p ≤ MAX_INT_8_BYTES) s := by
  unfold stoGetReceivers
  refine .get ?_
  refine .bind ((reads_splitAmount _ 0).mono_error fun e he => he.imp_right ?_) fun receivers h => ?_
  · rintro ⟨⟨hne, hrangeless⟩, rfl⟩
    refine ⟨fun hheld => hrangeless ?_, rfl⟩
    have hsum := (ownersOf_bounds (hrange.nonneg p) sender).2
    rw [totalTokens_eq (hrange.nonneg p) hheld]
    refine ⟨total_pos (hrange.nonneg p) fun hnil => hne ?_, by omega⟩
    rw [hnil]
    rfl
  · obtain ⟨hpos, hsum⟩ := h
    have hperm := List.perm_insertionSort SendToOwnersGE receivers
    refine .pure ⟨fun r hr => hpos r (hperm.mem_iff.mp hr), fun hamount => ?_⟩
    rw [(hperm.map Prod.fst).sum_eq]
    simpa using hsum hamount

/-- The owners but the sender, in the order in which they are served. -/
def servedOwners (s : State) (sender : Address) (p : PropertyId) : List (Int × Address) :=
  ((ownersOf s sender p).filter fun owner => 0 < owner.1).insertionSort SendToOwnersGE

/-- The shares of a send to owners, in the order in which they are given. -/
def sharesOf (s : State) (sender : Address) (p : PropertyId) (amount : Int) : List (Int × Address) :=
  shares amount ((ownersOf s sender p).map Prod.fst).sum (servedOwners s sender p) 0

theorem mem_servedOwners {owner : Int × Address} :
    owner ∈ servedOwners s sender p ↔ owner ∈ ownersOf s sender p ∧ 0 < owner.1 := by
  rw [servedOwners, List.mem_insertionSort, List.mem_filter, decide_eq_true_eq]

/-- **What is returned are the shares**, sorted. -/
theorem reads_stoGetReceivers_shares {E : Halt → Prop}
    (hnonneg : ∀ a t, t ≠ TallyType.PENDING → 0 ≤ s.money a p t)
    (hheld : s.held p ≤ MAX_INT_8_BYTES) (hamount : 0 < amount ∧ amount ≤ MAX_INT_8_BYTES) :
    Reads (stoGetReceivers sender p amount)
      (fun receivers => receivers = (sharesOf s sender p amount).insertionSort SendToOwnersGE) E s := by
  have hsum := (ownersOf_bounds hnonneg sender).2
  unfold stoGetReceivers
  refine .get ?_
  dsimp only
  rw [totalTokens_eq hnonneg hheld]
  refine .bind (reads_splitAmount_shares hamount (by omega) _ 0 fun owner howner => ?_)
    fun receivers h => .pure (by rw [h]; rfl)
  obtain ⟨hmem, hpos⟩ := mem_servedOwners.mp howner
  exact ⟨hpos, owned_le_total hnonneg owner hmem⟩

/-- Someone other than the sender owns tokens of the property. -/
def State.HasOwner (s : State) (sender : Address) (p : PropertyId) : Prop :=
  ∃ owner ∈ ownersOf s sender p, 0 < owner.1

theorem servedOwners_eq_nil : servedOwners s sender p = [] ↔ ¬s.HasOwner sender p := by
  rw [List.eq_nil_iff_forall_not_mem, State.HasOwner, not_exists]
  exact forall_congr' fun owner => by rw [mem_servedOwners]

/-- **A send to owners gives out the whole amount**, if there is an owner at all. -/
theorem sum_sharesOf (hnonneg : ∀ a t, t ≠ TallyType.PENDING → 0 ≤ s.money a p t)
    (hamount : 0 < amount) (howner : s.HasOwner sender p) :
    ((sharesOf s sender p amount).map Prod.fst).sum = amount := by
  have hne : ((ownersOf s sender p).filter fun owner => 0 < owner.1) ≠ [] := by
    obtain ⟨owner, hmem, howns⟩ := howner
    exact List.ne_nil_of_mem (List.mem_filter.mpr ⟨hmem, by simpa using howns⟩)
  have hsum : 0 + ((sharesOf s sender p amount).map Prod.fst).sum = amount := by
    refine sum_shares (total_pos hnonneg hne) hamount
      (fun owner howner => (mem_servedOwners.mp howner).2) hamount.le ?_
    rw [servedOwners, ((perm_owners _).map Prod.fst).sum_eq,
      sum_filter_pos (ownersOf_bounds hnonneg sender).1, sub_zero]
  rw [zero_add] at hsum
  exact hsum

theorem reads_stoGetReceivers_sum {E : Halt → Prop} (hrange : s.InRange)
    (hheld : s.held p ≤ MAX_INT_8_BYTES) (hamount : 0 < amount ∧ amount ≤ MAX_INT_8_BYTES) :
    Reads (stoGetReceivers sender p amount)
      (fun receivers => (s.HasOwner sender p → (receivers.map Prod.fst).sum = amount) ∧
        (¬s.HasOwner sender p → receivers = [])) E s := by
  refine (reads_stoGetReceivers_shares (hrange.nonneg p) hheld hamount).mono fun receivers h => ?_
  rw [h]
  constructor
  · intro howner
    rw [((List.perm_insertionSort SendToOwnersGE _).map Prod.fst).sum_eq]
    exact sum_sharesOf (hrange.nonneg p) hamount.1 howner
  · intro hnone
    rw [sharesOf, servedOwners_eq_nil.mpr hnone]
    rfl

end Receivers

/-! ### The item of the most recent block -/

/-- The amount of the most recent block of a history. -/
def latest (history : ExtTreeMap Int Int compare) : Int :=
  match history.maxKey? with
  | some block => history.getD block 0
  | none => 0

theorem getCachedAmount_eq (s : State) (p : PropertyId) :
    s.getCachedAmount p = latest (s.feecache.getD p ∅) := by
  unfold getCachedAmount
  rw [ExtTreeMap.getD_eq_getD_getElem?]
  cases s.feecache[p]? with
  | none => simp [latest]
  | some history => rfl

section Latest

variable {history : ExtTreeMap Int Int compare} {block v : Int}

theorem latest_of_max {m : Int} (hmax : history.maxKey? = some m) :
    latest history = history.getD m 0 := by
  simp [latest, hmax]

theorem latest_insert_of_le (h : ∀ b w : Int, history[b]? = some w → b ≤ block) :
    latest (history.insert block v) = v := by
  have hmax : (history.insert block v).maxKey? = some block := by
    rw [ExtTreeMap.maxKey?_eq_some_iff_mem_and_forall]
    refine ⟨by simp, fun b hb => ?_⟩
    rw [Std.isLE_compare]
    obtain ⟨w, hw⟩ := Option.isSome_iff_exists.mp (ExtTreeMap.mem_iff_isSome_getElem?.mp hb)
    rcases getElem?_of_insert hw with ⟨rfl, -⟩ | ⟨-, hold⟩
    · exact le_rfl
    · exact h b w hold
  rw [latest_of_max hmax]
  simp

theorem latest_insert_zero (h : latest history = 0) : latest (history.insert block 0) = 0 := by
  cases hmax : (history.insert block 0).maxKey? with
  | none => simp [latest, hmax]
  | some m =>
    rw [latest_of_max hmax]
    by_cases hm : block = m
    · simp [hm]
    · obtain ⟨hmem, hle⟩ := ExtTreeMap.maxKey?_eq_some_iff_mem_and_forall.mp hmax
      have hold : history.maxKey? = some m := by
        rw [ExtTreeMap.maxKey?_eq_some_iff_mem_and_forall]
        refine ⟨?_, fun b hb => hle b (by simp [hb])⟩
        simpa [hm] using hmem
      rw [ExtTreeMap.getD_insert]
      simp only [Std.compare_eq_iff_eq, hm, if_false]
      rw [← latest_of_max hold]
      exact h

theorem latest_filter {keep : Int → Int → Bool} (hkeep : ∀ b b' w w' : Int, b ≤ b' →
      keep b w = true → keep b' w' = true) (hne : history.filter keep ≠ ∅) :
    latest (history.filter keep) = latest history := by
  have hmax : ∀ {h : ExtTreeMap Int Int compare}, h ≠ ∅ → ∃ m, h.maxKey? = some m := by
    intro h hne
    rwa [← Option.isSome_iff_exists, Option.isSome_iff_ne_none, Ne, ExtTreeMap.maxKey?_eq_none_iff]
  -- some item is kept, so the most recent one is
  obtain ⟨k, hk⟩ := hmax hne
  obtain ⟨v, hv⟩ := Option.isSome_iff_exists.mp
    (ExtTreeMap.mem_iff_isSome_getElem?.mp (ExtTreeMap.maxKey?_mem hk))
  obtain ⟨hkold, hkeepk⟩ := getElem?_filter_eq_some.mp hv
  obtain ⟨m, hm⟩ := hmax (h := history) (by rintro rfl; simp at hkold)
  obtain ⟨hmem, hle⟩ := ExtTreeMap.maxKey?_eq_some_iff_mem_and_forall.mp hm
  obtain ⟨w, hw⟩ := Option.isSome_iff_exists.mp (ExtTreeMap.mem_iff_isSome_getElem?.mp hmem)
  have hkm : k ≤ m := by
    have := hle k (by simp [ExtTreeMap.mem_iff_isSome_getElem?, hkold])
    rwa [Std.isLE_compare] at this
  have hkept : (history.filter keep)[m]? = some w :=
    getElem?_filter_eq_some.mpr ⟨hw, hkeep k m v w hkm hkeepk⟩
  have hmax : (history.filter keep).maxKey? = some m := by
    rw [ExtTreeMap.maxKey?_eq_some_iff_mem_and_forall]
    refine ⟨by simp [ExtTreeMap.mem_iff_isSome_getElem?, hkept], fun b hb => hle b ?_⟩
    obtain ⟨v', hv'⟩ := Option.isSome_iff_exists.mp (ExtTreeMap.mem_iff_isSome_getElem?.mp hb)
    simp [ExtTreeMap.mem_iff_isSome_getElem?, (getElem?_filter_eq_some.mp hv').1]
  rw [latest_of_max hmax, latest_of_max hm, ExtTreeMap.getD_eq_getD_getElem?,
    ExtTreeMap.getD_eq_getD_getElem?, hkept, hw]

end Latest

/-! ### Writing to the cache -/

/-- What a writer of the cache does: the item of the block is replaced, and the history pruned. -/
def State.setFee (env : Env) (s : State) (p : PropertyId) (block v : Int) : State :=
  (s.putFee p block v).pruneFees env p block

section SetFee

variable {block v : Int}

theorem setFee_frame (env : Env) (s : State) (p : PropertyId) (block v : Int) :
    s.setFee env p block v = { s with feecache := (s.setFee env p block v).feecache } := by
  unfold State.setFee State.pruneFees
  dsimp only
  split <;> rfl

/-- The history after the write: the other properties keep theirs, and the most recent amount is
that before the pruning. -/
theorem feecache_setFee (env : Env) (s : State) (p : PropertyId) (block v : Int) :
    ∃ history, (s.setFee env p block v).feecache = s.feecache.insert p history ∧
      latest history = latest ((s.feecache.getD p ∅).insert block v) ∧
      ∀ b w : Int, history[b]? = some w → ((s.feecache.getD p ∅).insert block v)[b]? = some w := by
  unfold State.setFee State.pruneFees putFee
  dsimp only
  simp only [ExtTreeMap.getD_insert_self, insert_insert_self]
  cases hmax : ((s.feecache.getD p ∅).insert block v).maxKey? with
  | none => simp [ExtTreeMap.maxKey?_eq_none_iff] at hmax
  | some m =>
    refine ⟨_, rfl, ?_⟩
    generalize (s.feecache.getD p ∅).insert block v = history at hmax
    have hkept : ∀ kept : ExtTreeMap Int Int compare, (kept ≠ ∅ → latest kept = latest history) →
        (∀ b w : Int, kept[b]? = some w → history[b]? = some w) →
        latest (if kept.isEmpty then (∅ : ExtTreeMap Int Int compare).insert m (history.getD m 0)
          else kept) = latest history ∧
        ∀ b w : Int, (if kept.isEmpty then
          (∅ : ExtTreeMap Int Int compare).insert m (history.getD m 0) else kept)[b]? = some w →
          history[b]? = some w := by
      intro kept hlatest hsub
      by_cases hempty : kept.isEmpty = true
      · -- everything was old: only the most recent item stays
        rw [if_pos hempty]
        refine ⟨(latest_insert_of_le (by simp)).trans (latest_of_max hmax).symm, fun b w hget => ?_⟩
        rcases getElem?_of_insert hget with ⟨rfl, rfl⟩ | ⟨-, hnone⟩
        · obtain ⟨w, hw⟩ := Option.isSome_iff_exists.mp
            (ExtTreeMap.mem_iff_isSome_getElem?.mp (ExtTreeMap.maxKey?_mem hmax))
          rw [ExtTreeMap.getD_eq_getD_getElem?, hw]
          rfl
        · simp at hnone
      · rw [if_neg hempty]
        exact ⟨hlatest fun hnil => hempty (ExtTreeMap.isEmpty_iff.mpr hnil), hsub⟩
    split
    · refine hkept _ (latest_filter fun b b' _ _ hle hkeep => ?_) fun b w hget =>
        (getElem?_filter_eq_some.mp hget).1
      simp only [decide_eq_true_eq] at hkeep ⊢
      omega
    · exact hkept _ (fun _ => rfl) fun _ _ hget => hget

theorem getCachedAmount_setFee_of_ne (hq : q ≠ p) :
    (s.setFee env p block v).getCachedAmount q = s.getCachedAmount q := by
  obtain ⟨history, hcache, -⟩ := feecache_setFee env s p block v
  rw [getCachedAmount_eq, getCachedAmount_eq, hcache, ExtTreeMap.getD_insert]
  simp [Ne.symm hq]

theorem getCachedAmount_setFee :
    (s.setFee env p block v).getCachedAmount p = latest ((s.feecache.getD p ∅).insert block v) := by
  obtain ⟨history, hcache, hlatest, -⟩ := feecache_setFee env s p block v
  rw [getCachedAmount_eq, hcache, ExtTreeMap.getD_insert_self, hlatest]

theorem FeesOrdered.le (hs : s.FeesOrdered block) (p : PropertyId) :
    ∀ b w : Int, (s.feecache.getD p ∅)[b]? = some w → b ≤ block := by
  intro b w hget
  rw [ExtTreeMap.getD_eq_getD_getElem?] at hget
  cases hhistory : s.feecache[p]? with
  | none => simp [hhistory] at hget
  | some history =>
    rw [hhistory] at hget
    exact hs p history hhistory b w hget

theorem FeesOrdered.setFee (hs : s.FeesOrdered block) :
    (s.setFee env p block v).FeesOrdered block := by
  obtain ⟨history, hcache, -, hitems⟩ := feecache_setFee env s p block v
  intro q history' hget b w hitem
  rw [hcache] at hget
  rcases getElem?_of_insert hget with ⟨rfl, rfl⟩ | ⟨-, hold⟩
  · rcases getElem?_of_insert (hitems b w hitem) with ⟨rfl, -⟩ | ⟨-, hold⟩
    · exact le_rfl
    · exact FeesOrdered.le hs p b w hold
  · exact hs q history' hold b w hitem

theorem getCachedAmount_setFee_add {amount : Int} (hordered : s.FeesOrdered block)
    (hnonneg : 0 ≤ s.getCachedAmount p + amount)
    (hmax : s.getCachedAmount p + amount ≤ MAX_INT_8_BYTES) :
    (s.setFee env p block (toInt64 (s.getCachedAmount p + amount))).getCachedAmount p =
      s.getCachedAmount p + amount := by
  rw [getCachedAmount_setFee, latest_insert_of_le (FeesOrdered.le hordered p)]
  exact toInt64_of_range (by unfold MIN_INT_8_BYTES; omega) hmax

end SetFee

/-! ### Fee steps -/

/-- What following a distribution needs. -/
structure FeesReady (c : Ctx) (s : State) : Prop where
  ordered : s.FeesOrdered c.block
  cached : ∀ q, 0 ≤ s.getCachedAmount q
  owned : ∀ q, q ≤ 2 → s.held q ≤ MAX_INT_8_BYTES

namespace FeeStep

theorem refl (hready : c.Tracks s → FeesReady c s) : FeeStep c p 0 s s where
  frame := rfl
  params := rfl
  vested := rfl
  credited _ _ _ := .inl rfl
  other _ _ := rfl
  idle _ hzero := ⟨rfl, hzero⟩
  ordered h := h
  total _ _ := by simp
  cached htracks := (hready htracks).cached

theorem setFee {amount : Int} (hready : c.Tracks s → FeesReady c s ∧ 0 ≤ amount ∧
      s.getCachedAmount p + amount ≤ MAX_INT_8_BYTES) :
    FeeStep c p amount s
      (s.setFee env p c.block (toInt64 (s.getCachedAmount p + amount))) := by
  have hframe := setFee_frame env s p c.block (toInt64 (s.getCachedAmount p + amount))
  have hcached : c.Tracks s → ∀ q, (s.setFee env p c.block
      (toInt64 (s.getCachedAmount p + amount))).getCachedAmount q =
        s.getCachedAmount q + if q = p then amount else 0 := by
    intro htracks q
    obtain ⟨hfees, hamount, hmax⟩ := hready htracks
    by_cases hq : q = p
    · subst hq
      have hnonneg := hfees.cached q
      rw [getCachedAmount_setFee_add hfees.ordered (by omega) hmax, if_pos rfl]
    · rw [getCachedAmount_setFee_of_ne hq, if_neg hq, Int.add_zero]
  refine ⟨?_, ?_, ?_, ?_, ?_, ?_, ?_, ?_, ?_⟩
  · rw [hframe]
  · rw [hframe]
  · rw [hframe]
  · intro a q t
    rw [hframe]
    exact .inl rfl
  · exact fun q hq => getCachedAmount_setFee_of_ne hq
  · rintro rfl hzero
    refine ⟨by rw [hframe], ?_⟩
    rw [getCachedAmount_setFee, hzero]
    rw [getCachedAmount_eq] at hzero
    exact latest_insert_zero hzero
  · exact fun hordered => FeesOrdered.setFee hordered
  · intro htracks q
    rw [hcached htracks, hframe]
    change s.held q + _ = _
    omega
  · intro htracks q
    obtain ⟨hfees, hamount, -⟩ := hready htracks
    have := hfees.cached q
    rw [hcached htracks]
    split <;> omega

theorem trans {fee : Int} {s₁ s₂ : State} (h : FeeStep c p fee s s₁) (h' : FeeStep c p 0 s₁ s₂) :
    FeeStep c p fee s s₂ := by
  have htracks : c.Tracks s → c.Tracks s₁ := by
    unfold Ctx.Tracks Overrun
    rw [h.mySps_eq]
    exact id
  refine ⟨?_, h'.params.trans h.params, h'.vested.trans h.vested, ?_, ?_, ?_,
    fun ho => h'.ordered (h.ordered ho), ?_, fun ht => h'.cached (htracks ht)⟩
  · rw [h'.frame, h.frame]
  · intro a q t
    rcases h.credited a q t with h₁ | ⟨hq, ht, h₁, hmax₁⟩ <;>
      rcases h'.credited a q t with h₂ | ⟨hq', ht', h₂, hmax₂⟩
    · exact .inl (h₂.trans h₁)
    · exact .inr ⟨hq', ht', by omega, hmax₂⟩
    · exact .inr ⟨hq, ht, by omega, by omega⟩
    · exact .inr ⟨hq, ht, by omega, hmax₂⟩
  · exact fun q hq => (h'.other q hq).trans (h.other q hq)
  · intro hzero hcached
    obtain ⟨htally, hcached₁⟩ := h.idle hzero hcached
    obtain ⟨htally', hcached₂⟩ := h'.idle rfl hcached₁
    exact ⟨htally'.trans htally, hcached₂⟩
  · intro ht q
    have h₁ := h.total ht q
    have h₂ := h'.total (htracks ht) q
    simp only [ite_self, Int.add_zero] at h₂
    omega

end FeeStep

/-! ### Distribution -/

/-- `n` tokens of `p` have been credited to balances. -/
structure Credited (p : PropertyId) (n : Int) (s s' : State) : Prop where
  nonneg : 0 ≤ n
  frame : s' = { s with mpTallyMap := s'.mpTallyMap }
  credited : ∀ a q t, s'.money a q t = s.money a q t ∨
    (q = p ∧ t = .BALANCE ∧ s.money a q t ≤ s'.money a q t ∧ s'.money a q t ≤ MAX_INT_8_BYTES)
  held : ∀ q, s'.held q = s.held q + if q = p then n else 0
  idle : n = 0 → s'.mpTallyMap = s.mpTallyMap

namespace Credited

theorem refl : Credited p 0 s s :=
  ⟨le_rfl, rfl, fun _ _ _ => .inl rfl, fun _ => by simp, fun _ => rfl⟩

theorem credit {n m : Int} {a : Address} (h : Credited p n s s') (hpos : 0 < m)
    (hroom : s'.money a p .BALANCE + m ≤ MAX_INT_8_BYTES) :
    Credited p (n + m) s (s'.addTally a p m .BALANCE) := by
  have hnonneg := h.nonneg
  refine ⟨by omega, ?_, fun b q t => ?_, fun q => ?_, fun hzero => by omega⟩
  · rw [h.frame]
    rfl
  · rw [money_addTally]
    by_cases hsame : a = b ∧ p = q ∧ TallyType.BALANCE = t
    · obtain ⟨rfl, rfl, rfl⟩ := hsame
      rw [if_pos ⟨rfl, rfl, rfl⟩]
      rcases h.credited a p .BALANCE with hold | ⟨-, -, hold, -⟩
      · exact .inr ⟨rfl, rfl, by omega, hroom⟩
      · exact .inr ⟨rfl, rfl, by omega, hroom⟩
    · rw [if_neg hsame, Int.add_zero]
      exact h.credited b q t
  · rw [held_addTally, h.held]
    by_cases hq : q = p
    · simp [hq]
      omega
    · simp [hq, Ne.symm hq]

end Credited

theorem wp_creditReceivers {P : State → Prop} (hloose : ¬c.Strict) (receivers : List (Int × Address))
    (hpos : ∀ r ∈ receivers, 0 < r.1) :
    wp (receivers.forM fun r => assertUpdateTallyMap r.2 p r.1 .BALANCE)
      (fun _ s' => Credited p (receivers.map Prod.fst).sum s s') (Fails c P) s := by
  refine wp_mono (wp_forM (I := fun rest s' => (∀ r ∈ rest, 0 < r.1) ∧
    ∃ n, n + (rest.map Prod.fst).sum = (receivers.map Prod.fst).sum ∧ Credited p n s s')
    ⟨hpos, 0, by simp, Credited.refl⟩ ?_) ?_ fun _ _ h => h
  · rintro r rest s' ⟨hpos, n, hsum, hcredited⟩
    obtain ⟨hr, hrest⟩ := List.forall_mem_cons.mp hpos
    refine wp_assertUpdateTallyMap (by decide) (fun _ hneg => by omega)
      (fun hstrict => absurd hstrict hloose) fun hadmits => ⟨hrest, n + r.1, ?_, ?_⟩
    · simp only [List.map_cons, List.sum_cons] at hsum
      omega
    · exact hcredited.credit hr (hadmits.2.2 hr)
  · rintro _ s' ⟨-, n, hsum, hcredited⟩
    simp only [List.map_nil, List.sum_nil, Int.add_zero] at hsum
    rwa [hsum] at hcredited

theorem Credited.emptied {s₁ : State} {aux : Aux} {n block : Int} (h : Credited p n s s₁)
    (hempty : s.FeesOrdered block ∨ s.getCachedAmount p = 0) :
    (State.setFee env { s₁ with aux := aux } p block 0).getCachedAmount p = 0 := by
  have hcache : s₁.feecache = s.feecache := by rw [h.frame]
  rw [getCachedAmount_setFee]
  change latest ((s₁.feecache.getD p ∅).insert block 0) = 0
  rw [hcache]
  rcases hempty with hordered | hzero
  · exact latest_insert_of_le (FeesOrdered.le hordered p)
  · rw [getCachedAmount_eq] at hzero
    exact latest_insert_zero hzero

/-- **Nothing is lost between the cache and the owners.** -/
theorem Credited.total {s₁ : State} {aux : Aux} {block : Int} (hordered : s.FeesOrdered block)
    (h : Credited p (s.getCachedAmount p) s s₁) (q : PropertyId) :
    (State.setFee env { s₁ with aux := aux } p block 0).held q +
      (State.setFee env { s₁ with aux := aux } p block 0).getCachedAmount q =
        s.held q + s.getCachedAmount q := by
  have hcache : s₁.feecache = s.feecache := by rw [h.frame]
  have hheld : (State.setFee env { s₁ with aux := aux } p block 0).held q = s₁.held q := by
    rw [setFee_frame]
    rfl
  rw [hheld, h.held]
  by_cases hq : q = p
  · subst hq
    rw [h.emptied (.inl hordered), if_pos rfl, Int.add_zero]
  · rw [getCachedAmount_setFee_of_ne hq, if_neg hq, Int.add_zero]
    exact congrArg _ (getCachedAmount_congr (by exact hcache) q)

theorem FeeStep.of_credited {s₁ : State} {aux : Aux} (hready : c.Tracks s → FeesReady c s)
    (h : Credited p (s.getCachedAmount p) s s₁) (hparams : aux.params = s₁.aux.params)
    (hvested : aux.exodusPrev = s₁.aux.exodusPrev) :
    FeeStep c p 0 s (State.setFee env { s₁ with aux := aux } p c.block 0) := by
  have hframe := setFee_frame env { s₁ with aux := aux } p c.block 0
  have hcache : s₁.feecache = s.feecache := by rw [h.frame]
  have hother : ∀ q, q ≠ p → (State.setFee env { s₁ with aux := aux } p c.block 0).getCachedAmount q =
      s.getCachedAmount q := fun q hq =>
    (getCachedAmount_setFee_of_ne hq).trans (getCachedAmount_congr (by exact hcache) q)
  refine ⟨?_, ?_, ?_, ?_, hother, ?_, ?_, ?_, ?_⟩
  · rw [hframe, h.frame]
  · rw [hframe, h.frame] at *
    exact hparams
  · rw [hframe, h.frame] at *
    exact hvested
  · intro a q t
    rw [hframe]
    exact h.credited a q t
  · intro _ hzero
    refine ⟨?_, h.emptied (.inr hzero)⟩
    rw [hframe]
    exact h.idle hzero
  · exact fun hordered => FeesOrdered.setFee (s := { s₁ with aux := aux }) (hordered.congr hcache)
  · intro htracks q
    rw [h.total (hready htracks).ordered, ite_self, Int.add_zero]
  · intro htracks q
    by_cases hq : q = p
    · subst hq
      rw [h.emptied (.inl (hready htracks).ordered)]
    · rw [hother q hq]
      exact (hready htracks).cached q

theorem wp_distributeCache (hloose : ¬c.Strict) (hrange : s.InRange)
    (hready : c.Tracks s → FeesReady c s) :
    wp (distributeCache env p c.block) (fun _ s' => FeeStep c p 0 s s')
      (Fails c fun s' => ¬c.Tracks s ∧ s' = s) s := by
  unfold distributeCache
  rw [wp_bind, wp_get]
  dsimp only
  refine (reads_stoGetReceivers hrange).wp_bind (fun receivers h => ?_) fun e he => ?_
  · simp only [wp_bind, wp_record]
    refine wp_mono (wp_creditReceivers hloose receivers h.1) (fun _ s₁ hcredited => ?_) fun _ _ h => h
    refine wp_assertThat (fun _ => id) fun hsum => ?_
    unfold clearCache pruneCache
    simp only [wp_bind, wp_modify]
    rw [of_decide_eq_true hsum] at hcredited
    exact FeeStep.of_credited hready hcredited rfl rfl
  · refine ⟨fun hlive => ⟨fun htracks => ?_, rfl⟩, he.not_bad⟩
    rcases he with rfl | ⟨hunheld, -⟩
    · exact hlive
    · refine hunheld ((hready htracks).owned _ ?_)
      unfold OMNI_PROPERTY_TMSC OMNI_PROPERTY_MSC
      split <;> lia

theorem wp_evalCache (hloose : ¬c.Strict) (hrange : s.InRange)
    (hready : c.Tracks s → FeesReady c s) :
    wp (evalCache env p c.block) (fun _ s' => FeeStep c p 0 s s')
      (Fails c fun s' => ¬c.Tracks s ∧ s' = s) s := by
  unfold evalCache
  rw [wp_bind, wp_get, wp_ite]
  exact ⟨fun _ => wp_distributeCache hloose hrange hready, fun _ => FeeStep.refl hready⟩

/-- **A fee goes to the cache**, and from there perhaps to the owners.  Only where the supply is
not followed can the calculation of a distribution throw. -/
theorem wp_addFee {amount : Int} (hloose : ¬c.Strict) (hrange : s.InRange)
    (hready : c.Tracks s → FeesReady c s ∧ 0 ≤ amount ∧
      s.getCachedAmount p + amount ≤ MAX_INT_8_BYTES) :
    wp (addFee env p c.block amount) (fun _ s' => FeeStep c p amount s s')
      (Fails c fun s' => ¬c.Tracks s ∧ FeeStep c p amount s s') s := by
  have hstep : FeeStep c p amount s (s.setFee env p c.block _) := .setFee hready
  have hframe := setFee_frame env s p c.block (toInt64 (s.getCachedAmount p + amount))
  unfold addFee pruneCache
  simp only [wp_bind, wp_modify]
  change wp (evalCache env p c.block) _ _
    (s.setFee env p c.block (toInt64 (s.getCachedAmount p + amount)))
  generalize s.setFee env p c.block (toInt64 (s.getCachedAmount p + amount)) = s₁ at *
  have htracks : c.Tracks s₁ → c.Tracks s := by rw [hframe]; exact id
  refine wp_mono (wp_evalCache hloose (hstep.inRange hrange) fun ht => ?_)
    (fun _ s' h => hstep.trans h) fun e s' h => ⟨fun hlive => ?_, h.2⟩
  · obtain ⟨hfees, -⟩ := hready (htracks ht)
    refine ⟨hstep.ordered hfees.ordered, hstep.cached (htracks ht), fun q hq => ?_⟩
    rw [hframe]
    exact hfees.owned q hq
  · obtain ⟨hnot, rfl⟩ := h.1 hlive
    exact ⟨fun ht => hnot (by rw [hframe]; exact ht), hstep⟩

theorem Sound.feesReady (hs : Sound c s) (htracks : c.Tracks s) : FeesReady c s := by
  have hsupply := hs.supply htracks
  refine ⟨hsupply.ordered, hsupply.cached, fun q _ => ?_⟩
  have := hs.held_le htracks q
  have := hsupply.cached q
  omega

theorem conforms_notifyTotalTokensChanged (hs : Sound c s) :
    Conforms c.contract (notifyTotalTokensChanged env p c.block) (fun _ _ => True) s := by
  unfold notifyTotalTokensChanged
  refine Conforms.bind (Q := fun _ s' =>
    1 ≤ s'.aux.distributionThresholds.getD p 0) ?_ fun _ s' hsteps hthreshold => ?_
  · refine Conforms.modify (.single (.aux _ rfl rfl)) ?_
    simp only [ExtTreeMap.getD_insert_self]
    split <;> omega
  · have hs' := Steps.sound hsteps hs
    by_cases hstrict : c.Strict
    · -- without fees the threshold is not reached
      unfold evalCache
      refine Conforms.get ?_
      rw [(hs'.strict hstrict).cached, if_neg (by omega)]
      exact Conforms.pure trivial
    · rw [conforms_iff]
      refine wp_mono (wp_evalCache hstrict hs'.range hs'.feesReady) (fun _ s'' hfee => ?_)
        fun e s'' h => ⟨fun hlive => ?_, h.2⟩
      · exact ⟨.single (.distribute hstrict hfee (.inl rfl)), trivial⟩
      · obtain ⟨-, rfl⟩ := h.1 hlive
        exact .refl

end HcOmni
