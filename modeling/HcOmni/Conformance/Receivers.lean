import HcOmni.Conformance.Fees

/-!
# Who receives what

`STO_GetReceivers` collects the owners from a hash map, whose order of iteration is not known, and serves
them from the largest holding to the smallest.  Here is all that its result promises, for every order in
which the map may be gone through.
-/

namespace HcOmni

open MapSum Program CMPTally State Shares

variable {s : State} {sender : Address} {p : PropertyId} {amount : Int}

/-! ### The order in which owners are served -/

instance instTotalSendToOwnersGE : Std.Total SendToOwnersGE := by
  refine ⟨fun q r => ?_⟩
  unfold SendToOwnersGE
  rcases lt_trichotomy q.1 r.1 with h | h | h
  · exact .inr (.inl h)
  · rcases le_total q.2 r.2 with haddress | haddress
    · exact .inl (.inr ⟨h.symm, haddress⟩)
    · exact .inr (.inr ⟨h, haddress⟩)
  · exact .inl (.inl h)

instance instIsTransSendToOwnersGE : IsTrans (Int × Address) SendToOwnersGE := by
  refine ⟨fun q r t hqr hrt => ?_⟩
  rcases hqr with hqr | ⟨hqr, haddress⟩
  · rcases hrt with hrt | ⟨hrt, -⟩
    · exact .inl (hrt.trans hqr)
    · exact .inl (hrt.trans_lt hqr)
  · rcases hrt with hrt | ⟨hrt, haddress'⟩
    · exact .inl (hrt.trans_eq hqr)
    · exact .inr ⟨hrt.trans hqr, haddress.trans haddress'⟩

instance instAntisymmSendToOwnersGE : Std.Antisymm SendToOwnersGE := by
  refine ⟨fun q r hqr hrq => ?_⟩
  rcases hqr with hqr | ⟨hqr, haddress⟩
  · rcases hrq with hrq | ⟨hrq, -⟩
    · omega
    · omega
  · rcases hrq with hrq | ⟨-, haddress'⟩
    · omega
    · exact Prod.ext hqr.symm (le_antisymm haddress haddress')

theorem insertionSort_congr {l l' : List (Int × Address)} (h : l.Perm l') :
    l.insertionSort SendToOwnersGE = l'.insertionSort SendToOwnersGE := by
  refine List.Perm.eq_of_pairwise' (r := SendToOwnersGE) (List.pairwise_insertionSort _ _)
    (List.pairwise_insertionSort _ _) ?_
  exact (List.perm_insertionSort _ _).trans (h.trans (List.perm_insertionSort _ _).symm)

/-! ### Orders of iteration -/

/-- `STO_GetReceivers`, when its first loop meets the entries of the tally map in the given order. -/
def stoGetReceiversIn (entries : List (Address × CMPTally)) (sender : Address) (property : PropertyId)
    (amount : Int) : Op (List (Int × Address)) := do
  let others := (entries.filter (fun entry => entry.1 ≠ sender)).map
    fun entry => (CMPTally.total entry.2 property, entry.1)
  let totalTokens := toInt64 (others.map Prod.fst).sum
  let owners := (others.filter (fun owner => 0 < owner.1)).insertionSort SendToOwnersGE
  let receivers ← splitAmount amount totalTokens owners 0
  pure (receivers.insertionSort SendToOwnersGE)

theorem stoGetReceivers_eq (s : State) :
    stoGetReceivers sender p amount s = stoGetReceiversIn s.mpTallyMap.toList sender p amount s := rfl

/-- **The order of iteration does not matter**: the tokens are added up, and the owners are sorted. -/
theorem stoGetReceiversIn_congr {entries entries' : List (Address × CMPTally)}
    (h : entries.Perm entries') :
    stoGetReceiversIn entries sender p amount = stoGetReceiversIn entries' sender p amount := by
  have hothers := (h.filter fun entry => entry.1 ≠ sender).map
    fun entry => (CMPTally.total entry.2 p, entry.1)
  simp only [stoGetReceiversIn]
  rw [(hothers.map Prod.fst).sum_eq, insertionSort_congr (hothers.filter _)]

/-! ### What an address holds -/

/-- The tokens an address holds; pending amounts are not among them. -/
def State.tokens (s : State) (address : Address) (propertyId : PropertyId) : Int :=
  s.money address propertyId .BALANCE + s.money address propertyId .SELLOFFER_RESERVE +
    s.money address propertyId .ACCEPT_RESERVE + s.money address propertyId .METADEX_RESERVE

theorem weightAt_tokens (s : State) (a : Address) (p : PropertyId) :
    weightAt s.mpTallyMap (fun _ tally => CMPTally.total tally p) a = s.tokens a p := by
  unfold tokens money
  cases hget : s.mpTallyMap[a]? with
  | none => simp [weightAt_none hget]
  | some tally => simp [weightAt_some hget, CMPTally.total]

theorem tokens_of_ownersOf {owner : Int × Address} (h : owner ∈ ownersOf s sender p) :
    owner.1 = s.tokens owner.2 p ∧ owner.2 ≠ sender := by
  obtain ⟨entry, hentry, rfl⟩ := List.mem_map.mp h
  obtain ⟨hstored, hne⟩ := List.mem_filter.mp hentry
  refine ⟨?_, of_decide_eq_true hne⟩
  rw [← weightAt_tokens, weightAt_some (mem_toList.mp hstored)]

theorem hasOwner_iff_tokens : s.HasOwner sender p ↔ ∃ a, a ≠ sender ∧ 0 < s.tokens a p := by
  constructor
  · rintro ⟨owner, hmem, hpos⟩
    obtain ⟨htokens, hne⟩ := tokens_of_ownersOf hmem
    exact ⟨owner.2, hne, htokens ▸ hpos⟩
  · rintro ⟨a, hne, hpos⟩
    cases htally : s.mpTallyMap[a]? with
    | none =>
      rw [← weightAt_tokens, weightAt_none htally] at hpos
      exact absurd hpos (Int.lt_irrefl 0)
    | some tally =>
      rw [← weightAt_tokens, weightAt_some htally] at hpos
      have hmem : (a, tally) ∈ s.mpTallyMap.toList := mem_toList.mpr htally
      exact ⟨_, List.mem_map_of_mem (List.mem_filter.mpr ⟨hmem, decide_eq_true hne⟩), hpos⟩

theorem sum_ownersOf (s : State) (sender : Address) (p : PropertyId) :
    ((ownersOf s sender p).map Prod.fst).sum = s.held p - s.tokens sender p := by
  have hperm : (s.mpTallyMap.toList.filter fun entry => entry.1 ≠ sender).Perm
      (s.mpTallyMap.erase sender).toList := by
    refine (List.perm_ext_iff_of_nodup ((nodup_toList _).filter _) (nodup_toList _)).mpr fun e => ?_
    rw [List.mem_filter, mem_toList, mem_toList, decide_eq_true_eq]
    constructor
    · rintro ⟨hget, hne⟩
      rw [getElem?_erase_of_ne (Ne.symm hne), hget]
    · intro hget
      obtain ⟨hne, hold⟩ := getElem?_of_erase hget
      exact ⟨hold, Ne.symm hne⟩
  have hsplit := mapSum_split s.mpTallyMap (fun _ tally => CMPTally.total tally p) sender
  rw [weightAt_tokens] at hsplit
  have hothers : ((ownersOf s sender p).map Prod.fst).sum =
      mapSum (s.mpTallyMap.erase sender) fun _ tally => CMPTally.total tally p := by
    unfold ownersOf mapSum
    rw [List.map_map, (hperm.map _).sum_eq]
    rfl
  rw [hothers]
  unfold held
  omega

/-! ### The owners that are served -/

theorem nodup_servedOwners (s : State) (sender : Address) (p : PropertyId) :
    ((servedOwners s sender p).map Prod.snd).Nodup := by
  have howners : ((ownersOf s sender p).map Prod.snd).Nodup := by
    unfold ownersOf
    rw [List.map_map]
    exact (nodup_keys_toList s.mpTallyMap).sublist (List.filter_sublist.map Prod.fst)
  refine (((perm_owners _).map Prod.snd).nodup_iff).mpr ?_
  exact howners.sublist (List.filter_sublist.map Prod.snd)

theorem tokens_of_servedOwners {owner : Int × Address} (h : owner ∈ servedOwners s sender p) :
    owner.1 = s.tokens owner.2 p := (tokens_of_ownersOf (mem_servedOwners.mp h).1).1

theorem pairwise_servedOwners (s : State) (sender : Address) (p : PropertyId) :
    ((servedOwners s sender p).map Prod.snd).Pairwise fun a b =>
      SendToOwnersGE (s.tokens a p, a) (s.tokens b p, b) := by
  refine List.pairwise_map.mpr ((List.pairwise_insertionSort SendToOwnersGE _).imp_of_mem ?_)
  intro first later hfirst hlater h
  rw [← tokens_of_servedOwners hfirst, ← tokens_of_servedOwners hlater]
  exact h

theorem map_snd_sharesOf_sublist (s : State) (sender : Address) (p : PropertyId) (amount : Int) :
    ((sharesOf s sender p amount).map Prod.snd).Sublist ((servedOwners s sender p).map Prod.snd) :=
  map_snd_shares_sublist _ _

/-! ### The result -/

/-- **How an amount is split over the owners of a property.**  Nothing fails, and the order in which the
tally map is gone through does not matter.  There is a receiver exactly if another address holds tokens.
The shares are then positive and make up the amount.  They go to distinct addresses other than the
sender, and none is more than the exact share, rounded up.  All but the one of the last receiver, by
holding and address, are equal to it. -/
theorem stoGetReceivers_split (hnonneg : ∀ a t, t ≠ TallyType.PENDING → 0 ≤ s.money a p t)
    (hheld : s.held p ≤ MAX_INT_8_BYTES) (hamount : 1 ≤ amount ∧ amount ≤ MAX_INT_8_BYTES) :
    ∃ receivers : List (Int × Address),
      stoGetReceivers sender p amount s = .ok receivers s ∧
      (∀ entries, entries.Perm s.mpTallyMap.toList →
        stoGetReceiversIn entries sender p amount s = .ok receivers s) ∧
      (receivers = [] ↔ ¬∃ a, a ≠ sender ∧ 0 < s.tokens a p) ∧
      (receivers ≠ [] →
        (∀ r ∈ receivers, 0 < r.1 ∧ r.2 ≠ sender ∧
          r.1 ≤ ⌈((s.tokens r.2 p * amount : ℤ) : ℚ) / ((s.held p - s.tokens sender p : ℤ) : ℚ)⌉) ∧
        (receivers.map Prod.snd).Nodup ∧
        (receivers.map Prod.fst).sum = amount ∧
        ∃ last ∈ receivers,
          (∀ r ∈ receivers, SendToOwnersGE (s.tokens r.2 p, r.2) (s.tokens last.2 p, last.2)) ∧
          ∀ r ∈ receivers, r ≠ last →
            r.1 = ⌈((s.tokens r.2 p * amount : ℤ) : ℚ) /
              ((s.held p - s.tokens sender p : ℤ) : ℚ)⌉) := by
  have hperm : ((sharesOf s sender p amount).insertionSort SendToOwnersGE).Perm
      (sharesOf s sender p amount) := List.perm_insertionSort _ _
  have hok : stoGetReceivers sender p amount s =
      .ok ((sharesOf s sender p amount).insertionSort SendToOwnersGE) s :=
    (reads_stoGetReceivers_shares hnonneg hheld hamount).eq_ok
  refine ⟨_, hok, fun entries hentries => ?_, ?_, fun hsome => ?_⟩
  · rw [stoGetReceiversIn_congr hentries, ← stoGetReceivers_eq, hok]
  · rw [← hasOwner_iff_tokens]
    constructor
    · intro hnil howner
      have hsum := sum_sharesOf hnonneg hamount.1 howner
      rw [← (hperm.map Prod.fst).sum_eq, hnil] at hsum
      exact absurd hamount.1 (by rw [← hsum]; decide)
    · intro hnone
      rw [sharesOf, servedOwners_eq_nil.mpr hnone]
      rfl
  · have hweights : ∀ o ∈ servedOwners s sender p, o.1 = s.tokens o.2 p :=
      fun o ho => tokens_of_servedOwners ho
    have hsub := map_snd_sharesOf_sublist s sender p amount
    have howner : s.HasOwner sender p := by
      by_contra hnone
      refine hsome ?_
      rw [sharesOf, servedOwners_eq_nil.mpr hnone]
      rfl
    simp only [← sum_ownersOf]
    refine ⟨fun r hr => ?_, ?_, ?_, ?_⟩
    · have hshare := hperm.mem_iff.mp hr
      obtain ⟨hpos, hle⟩ := bounds_of_mem_shares (fun a => s.tokens a p) hweights hshare
      obtain ⟨o, ho, hname⟩ := List.mem_map.mp (hsub.subset (List.mem_map_of_mem hshare))
      refine ⟨hpos, ?_, hle⟩
      rw [← hname]
      exact (tokens_of_ownersOf (mem_servedOwners.mp ho).1).2
    · exact ((hperm.map Prod.snd).nodup_iff).mpr ((nodup_servedOwners s sender p).sublist hsub)
    · rw [(hperm.map Prod.fst).sum_eq]
      exact sum_sharesOf hnonneg hamount.1 howner
    · -- the receivers in the order in which they were served
      have hne : sharesOf s sender p amount ≠ [] := fun hnil => hsome (by rw [hnil]; rfl)
      obtain ⟨before, last, hlist⟩ := (List.eq_nil_or_concat _).resolve_left hne
      rw [List.concat_eq_append] at hlist
      have hexact : (sharesOf s sender p amount).Pairwise _ :=
        pairwise_shares (fun a => s.tokens a p) hweights 0
      have horder := (pairwise_servedOwners s sender p).sublist hsub
      rw [List.pairwise_map] at horder
      rw [hlist] at hexact horder hperm
      obtain ⟨-, -, hexact⟩ := List.pairwise_append.mp hexact
      obtain ⟨-, -, horder⟩ := List.pairwise_append.mp horder
      have hcases : ∀ r ∈ (sharesOf s sender p amount).insertionSort SendToOwnersGE,
          r ∈ before ∨ r = last := by
        intro r hr
        rw [hlist, hperm.mem_iff, List.mem_append, List.mem_singleton] at hr
        exact hr
      refine ⟨last, ?_, fun r hr => ?_, fun r hr hother => ?_⟩
      · rw [hlist, hperm.mem_iff]
        exact List.mem_append_right _ List.mem_cons_self
      · rcases hcases r hr with hbefore | rfl
        · exact horder r hbefore last List.mem_cons_self
        · exact .inr ⟨rfl, le_refl _⟩
      · exact hexact r ((hcases r hr).resolve_right hother) last List.mem_cons_self

/-- A sender with seven tokens, and two other owners, one of them with an order on the exchange. -/
def threeOwners : State :=
  ((State.addTally { aux := { params := mainConsensusParams } } "first".toList 3 10 .BALANCE).addTally
    "second".toList 3 4 .METADEX_RESERVE).addTally "sender".toList 3 7 .BALANCE

theorem money_threeOwners_nonneg (a : Address) (t : TallyType) : 0 ≤ threeOwners.money a 3 t := by
  have hempty : (State.mk ∅ ∅ ∅ ∅ ∅ {} ∅ ∅ ∅ { params := mainConsensusParams }).money a 3 t = 0 := by
    unfold money
    rw [Std.ExtTreeMap.getElem?_empty]
  unfold threeOwners
  rw [money_addTally, money_addTally, money_addTally, hempty]
  split_ifs <;> omega

/-- Nine tokens are given out to the other two. -/
theorem stoGetReceivers_split_threeOwners :
    ∃ receivers : List (Int × Address),
      stoGetReceivers "sender".toList 3 9 threeOwners = .ok receivers threeOwners ∧
      (receivers.map Prod.fst).sum = 9 := by
  have hamount : 1 ≤ (9 : Int) ∧ 9 ≤ MAX_INT_8_BYTES := by decide
  obtain ⟨receivers, hok, -, hnone, hspec⟩ := stoGetReceivers_split
    (fun a t _ => money_threeOwners_nonneg a t) (by decide +kernel) hamount
  refine ⟨receivers, hok, (hspec fun hnil => hnone.mp hnil ⟨"first".toList, ?_⟩).2.2.1⟩
  decide +kernel

end HcOmni
