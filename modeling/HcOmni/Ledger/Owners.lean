import HcOmni.Ledger.Balances

/-!
# Counting owners

`getTotalTokens` with a second result: how many addresses own tokens of the property.  An owner is
counted whenever the running total differs from the one before, so an address is missed if what it
holds does not change a total of 64 bits.
-/

namespace HcOmni

open Std MapSum

/-- The variables of the loop. -/
structure OwnerCount where
  prev : Int := 0
  owners : Nat := 0
  totalTokens : Int := 0
  deriving DecidableEq, Repr

namespace OwnerCount

/-- One round of the loop: the four amounts of an address are added in `int64_t`. -/
def visit (propertyId : PropertyId) (count : OwnerCount) (tally : CMPTally) : OwnerCount :=
  let totalTokens := toInt64 (count.totalTokens + tally.getMoney propertyId .BALANCE)
  let totalTokens := toInt64 (totalTokens + tally.getMoney propertyId .SELLOFFER_RESERVE)
  let totalTokens := toInt64 (totalTokens + tally.getMoney propertyId .ACCEPT_RESERVE)
  let totalTokens := toInt64 (totalTokens + tally.getMoney propertyId .METADEX_RESERVE)
  if count.prev ≠ totalTokens then
    { prev := totalTokens, owners := count.owners + 1, totalTokens := totalTokens }
  else
    { count with totalTokens := totalTokens }

end OwnerCount

namespace State

/-- `getTotalTokens(propertyId, &n)`: the total, and the number of owners if the property exists.  The
tallies are visited in the order of an `unordered_map`, which is a parameter here. -/
def getTotalTokensOwners (s : State) (order : List (Address × CMPTally))
    (propertyId : PropertyId) : Int × Option Nat :=
  match s.mySps.getSP propertyId with
  | none => (0, none)
  | some property =>
      let count := (order.map Prod.snd).foldl (OwnerCount.visit propertyId) {}
      let totalTokens := toInt64 (count.totalTokens + s.getCachedAmount propertyId)
      (if property.fixed then property.numTokens else totalTokens, some count.owners)

/-- The tokens of a property that an address holds; pending amounts are not among them. -/
def holding (s : State) (address : Address) (propertyId : PropertyId) : Int :=
  s.money address propertyId .BALANCE + s.money address propertyId .SELLOFFER_RESERVE +
    s.money address propertyId .ACCEPT_RESERVE + s.money address propertyId .METADEX_RESERVE

/-- The number of addresses that hold tokens of a property. -/
noncomputable def ownerCount (s : State) (propertyId : PropertyId) : Nat :=
  Set.ncard {address | 0 < s.holding address propertyId}

end State

/-! ### Sums of 64 bits -/

theorem toInt64_add_toInt64 (a b : Int) : toInt64 (toInt64 a + b) = toInt64 (a + b) := by
  simp [toInt64]

theorem toInt64_add_eq_iff (a b : Int) : toInt64 a = toInt64 (a + b) ↔ (2 : Int) ^ 64 ∣ b := by
  unfold toInt64
  rw [Int.bmod_eq_bmod_iff_bmod_sub_eq_zero, show a - (a + b) = -b by omega,
    ← Int.dvd_iff_bmod_eq_zero, Int.dvd_neg]
  rfl

namespace OwnerCount

variable {propertyId : PropertyId} {tallies : List CMPTally}

/-- What a round does: the total grows by what the address holds, and the address counts unless that
is a multiple of 2^64. -/
theorem visit_eq (n : Nat) (total : Int) (tally : CMPTally) :
    visit propertyId ⟨toInt64 total, n, toInt64 total⟩ tally =
      ⟨toInt64 (total + tally.total propertyId),
        n + if ¬(2 : Int) ^ 64 ∣ tally.total propertyId then 1 else 0,
        toInt64 (total + tally.total propertyId)⟩ := by
  have hsum : toInt64 (toInt64 (toInt64 (toInt64 (toInt64 total +
      tally.getMoney propertyId .BALANCE) + tally.getMoney propertyId .SELLOFFER_RESERVE) +
      tally.getMoney propertyId .ACCEPT_RESERVE) + tally.getMoney propertyId .METADEX_RESERVE) =
      toInt64 (total + tally.total propertyId) := by
    simp only [toInt64_add_toInt64]
    unfold CMPTally.total
    simp only [Int.add_assoc]
  unfold visit
  simp only [hsum, ne_eq, toInt64_add_eq_iff]
  by_cases hwraps : (2 : Int) ^ 64 ∣ tally.total propertyId
  · have hsame := (toInt64_add_eq_iff total (tally.total propertyId)).mpr hwraps
    simp only [hwraps, not_true, if_false, ← hsame, Nat.add_zero]
  · simp only [hwraps, not_false_eq_true, if_true]

theorem foldl_visit (tallies : List CMPTally) (n : Nat) (total : Int) :
    tallies.foldl (visit propertyId) ⟨toInt64 total, n, toInt64 total⟩ =
      ⟨toInt64 (total + (tallies.map (·.total propertyId)).sum),
        n + tallies.countP (fun tally => ¬(2 : Int) ^ 64 ∣ tally.total propertyId),
        toInt64 (total + (tallies.map (·.total propertyId)).sum)⟩ := by
  induction tallies generalizing n total with
  | nil => simp
  | cons tally rest ih =>
    rw [List.foldl_cons, visit_eq, ih, List.map_cons, List.sum_cons, List.countP_cons,
      Int.add_assoc]
    simp only [decide_eq_true_eq]
    congr 1
    omega

end OwnerCount

namespace State

variable {s : State} {order : List (Address × CMPTally)} {p : PropertyId} {property : Entry}

/-! ### What is held -/

theorem total_of_getElem? {address : Address} {tally : CMPTally}
    (htally : s.mpTallyMap[address]? = some tally) : tally.total p = s.holding address p := by
  simp only [holding, money, htally, CMPTally.total]

theorem holding_of_none {address : Address} (hnone : s.mpTallyMap[address]? = none) :
    s.holding address p = 0 := by
  simp only [holding, money, hnone, Int.add_zero]

theorem InRange.holding_nonneg (hrange : s.InRange) (address : Address) :
    0 ≤ s.holding address p ∧ s.holding address p < 2 ^ 65 := by
  have hbalance := hrange address p .BALANCE (by decide)
  have hoffer := hrange address p .SELLOFFER_RESERVE (by decide)
  have haccept := hrange address p .ACCEPT_RESERVE (by decide)
  have hmetadex := hrange address p .METADEX_RESERVE (by decide)
  unfold MAX_INT_8_BYTES at hbalance hoffer haccept hmetadex
  unfold holding
  omega

theorem ownerCount_eq (s : State) (p : PropertyId) :
    s.ownerCount p = s.mpTallyMap.toList.countP (fun entry => 0 < entry.2.total p) := by
  have howners : {address | 0 < s.holding address p} =
      (((s.mpTallyMap.toList.filter (fun entry => 0 < entry.2.total p)).map
        Prod.fst).toFinset : Set Address) := by
    ext address
    simp only [Set.mem_ofPred_eq, List.coe_toFinset, List.mem_map, List.mem_filter, mem_toList,
      decide_eq_true_eq, Prod.exists, exists_and_right, exists_eq_right]
    constructor
    · intro hpos
      cases htally : s.mpTallyMap[address]? with
      | none =>
        rw [holding_of_none htally] at hpos
        exact absurd hpos (Int.lt_irrefl 0)
      | some tally => exact ⟨tally, rfl, (total_of_getElem? htally).symm ▸ hpos⟩
    · rintro ⟨tally, htally, hpos⟩
      rwa [total_of_getElem? htally] at hpos
  have hnodup : ((s.mpTallyMap.toList.filter (fun entry => 0 < entry.2.total p)).map
      Prod.fst).Nodup :=
    (nodup_keys_toList s.mpTallyMap).sublist (List.filter_sublist.map Prod.fst)
  rw [ownerCount, howners, Set.ncard_coe_finset, List.toFinset_card_of_nodup hnodup,
    List.length_map, List.countP_eq_length_filter]

/-! ### What is counted -/

theorem getTotalTokensOwners_eq (hproperty : s.mySps.getSP p = some property)
    (horder : order.Perm s.mpTallyMap.toList) :
    s.getTotalTokensOwners order p =
      (s.getTotalTokens p,
        some (s.mpTallyMap.toList.countP fun entry => ¬(2 : Int) ^ 64 ∣ entry.2.total p)) := by
  have hloop : (order.map Prod.snd).foldl (OwnerCount.visit p) {} =
      ⟨toInt64 (s.held p),
        s.mpTallyMap.toList.countP fun entry => ¬(2 : Int) ^ 64 ∣ entry.2.total p,
        toInt64 (s.held p)⟩ := by
    have hsum : ((order.map Prod.snd).map (·.total p)).sum = s.held p := by
      rw [List.map_map]
      exact (horder.map _).sum_eq
    have hcount : (order.map Prod.snd).countP (fun tally => ¬(2 : Int) ^ 64 ∣ tally.total p) =
        s.mpTallyMap.toList.countP fun entry => ¬(2 : Int) ^ 64 ∣ entry.2.total p := by
      rw [List.countP_map]
      exact horder.countP_eq _
    have hrun := @OwnerCount.foldl_visit p (order.map Prod.snd) 0 0
    rwa [hsum, hcount, Int.zero_add, Nat.zero_add] at hrun
  unfold getTotalTokensOwners getTotalTokens
  simp only [hproperty, hloop, toInt64_add_toInt64]

/-- A state in which one address has four equal amounts of the first property. -/
def fourAmounts (amount : Int) : State :=
  let s : State :=
    { mySps := { exodusAddress := "exodus".toList }
      aux := { params := mainConsensusParams } }
  ((((s.addTally "whale".toList 1 amount .BALANCE).addTally "whale".toList 1 amount
    .SELLOFFER_RESERVE).addTally "whale".toList 1 amount .ACCEPT_RESERVE).addTally "whale".toList 1
    amount .METADEX_RESERVE)

theorem money_fourAmounts (amount : Int) (address : Address) (p : PropertyId) (t : TallyType) :
    (fourAmounts amount).money address p t =
      if "whale".toList = address ∧ 1 = p ∧ t ≠ .PENDING then amount else 0 := by
  simp only [fourAmounts, money_addTally]
  cases t <;> simp [money]

theorem inRange_fourAmounts {amount : Int} (hnonneg : 0 ≤ amount)
    (hmax : amount ≤ MAX_INT_8_BYTES) : (fourAmounts amount).InRange := by
  intro address p t ht
  rw [money_fourAmounts]
  split_ifs
  · exact ⟨hnonneg, hmax⟩
  · exact ⟨Int.le_refl 0, by decide⟩

theorem holding_fourAmounts (amount : Int) (address : Address) :
    (fourAmounts amount).holding address 1 = if "whale".toList = address then 4 * amount else 0 := by
  simp only [holding, money_fourAmounts]
  split_ifs <;> simp_all
  omega

end State

end HcOmni
