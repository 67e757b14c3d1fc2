import HcOmni.Core.Arith

/-!
# Sending to owners and the fee cache

`sto.cpp` decides who receives how much of an amount split over all owners of a property;
`dbfees.cpp` collects trading fees and pays them out that way.
-/

namespace HcOmni

open Std

def TRANSFER_FEE_PER_OWNER : Int := 1
def TRANSFER_FEE_PER_OWNER_V1 : Int := 1000
def MAX_STATE_HISTORY : Int := 50

/-! ### Receivers -/

/-- `p` is not below `q` in the order of `SendToOwners_compare`: by amount, and for equal
amounts by address in reverse. -/
def SendToOwnersGE (p q : Int × Address) : Prop :=
  q.1 < p.1 ∨ (q.1 = p.1 ∧ p.2 ≤ q.2)

instance : DecidableRel SendToOwnersGE :=
  fun p q => inferInstanceAs (Decidable (q.1 < p.1 ∨ (q.1 = p.1 ∧ p.2 ≤ q.2)))

/-- The tokens every address but the sender holds, in the order of the tally map. -/
def ownersOf (s : State) (sender : Address) (property : PropertyId) : List (Int × Address) :=
  (s.mpTallyMap.toList.filter (fun entry => entry.1 ≠ sender)).map
    fun entry => (CMPTally.total entry.2 property, entry.1)

/-- The second loop of `STO_GetReceivers`, over the owners from the largest to the smallest: the
amounts are rounded up and the last ones cut, so that never more than the amount is given. -/
def splitAmount (amount totalTokens : Int) :
    List (Int × Address) → (sentSoFar : Int) → Op (List (Int × Address))
  | [], _ => pure []
  | (owned, address) :: rest, sentSoFar => do
      let owns ← convertTo256 owned
      let amount256 ← convertTo256 amount
      let total256 ← convertTo256 totalTokens
      let piece ← divideAndRoundUp (owns * amount256) total256
      let shouldReceive ← convertTo64 piece
      let willReallyReceive :=
        if amount - sentSoFar < shouldReceive then amount - sentSoFar else shouldReceive
      if willReallyReceive > 0 then
        let receivers ← splitAmount amount totalTokens rest (sentSoFar + willReallyReceive)
        pure ((willReallyReceive, address) :: receivers)
      else
        pure []

/-- `STO_GetReceivers`, as the list in which the receivers set is walked: from the largest
amount down. -/
def stoGetReceivers (sender : Address) (property : PropertyId) (amount : Int) :
    Op (List (Int × Address)) := do
  let s ← get
  let others := ownersOf s sender property
  let totalTokens := toInt64 (others.map Prod.fst).sum
  let owners := (others.filter (fun owner => 0 < owner.1)).insertionSort SendToOwnersGE
  let receivers ← splitAmount amount totalTokens owners 0
  pure (receivers.insertionSort SendToOwnersGE)

/-! ### The fee cache -/

/-- The history of a property with the item of a block replaced. -/
def State.putFee (s : State) (propertyId : PropertyId) (block amount : Int) : State :=
  { s with
    feecache := s.feecache.insert propertyId ((s.feecache.getD propertyId ∅).insert block amount) }

/-- What `PruneCache` leaves: the items older than fifty blocks are dropped in debug mode only,
since the `continue` that skips them stands inside the debug branch; the most recent item always
stays. -/
def State.pruneFees (env : Env) (s : State) (propertyId : PropertyId) (block : Int) : State :=
  let pruneBlock := block - MAX_STATE_HISTORY
  let history := s.feecache.getD propertyId ∅
  let kept :=
    if env.mscDebugFees then history.filter (fun itemBlock _ => decide (pruneBlock ≤ itemBlock))
    else history
  match history.maxKey? with
  | none => s
  | some mostRecent =>
      let pruned :=
        if kept.isEmpty then
          (∅ : ExtTreeMap Int Int compare).insert mostRecent (history.getD mostRecent 0)
        else
          kept
      { s with feecache := s.feecache.insert propertyId pruned }

/-- `PruneCache` -/
def pruneCache (env : Env) (propertyId : PropertyId) (block : Int) : Op Unit :=
  modify fun s => s.pruneFees env propertyId block

/-- `ClearCache`: a zero item for the block. -/
def clearCache (env : Env) (propertyId : PropertyId) (block : Int) : Op Unit := do
  modify fun s => s.putFee propertyId block 0
  pruneCache env propertyId block

/-- `DistributeCache`: the cached amount goes to the owners of property 1 or 2. -/
def distributeCache (env : Env) (propertyId : PropertyId) (block : Int) : Op Unit := do
  let s ← get
  let cachedAmount := s.getCachedAmount propertyId
  let ownedProperty :=
    if isTestEcosystemProperty propertyId then OMNI_PROPERTY_TMSC else OMNI_PROPERTY_MSC
  let receivers ← stoGetReceivers "FEEDISTRIBUTION".toList ownedProperty cachedAmount
  receivers.forM fun receiver =>
    assertUpdateTallyMap receiver.2 propertyId receiver.1 .BALANCE
  let sentSoFar := (receivers.map Prod.fst).sum
  record (.feeDistribution propertyId block sentSoFar (receivers.map fun r => (r.2, r.1)))
  assertThat .other (decide (sentSoFar = cachedAmount))
  clearCache env propertyId block

/-- `EvalCache`; an unset threshold reads as zero. -/
def evalCache (env : Env) (propertyId : PropertyId) (block : Int) : Op Unit := do
  let s ← get
  if s.aux.distributionThresholds.getD propertyId 0 ≤ s.getCachedAmount propertyId then
    distributeCache env propertyId block
  else
    pure ()

/-- `AddFee`.  An overflow asks for a shutdown and continues with the wrapped amount. -/
def addFee (env : Env) (propertyId : PropertyId) (block amount : Int) : Op Unit := do
  modify fun s =>
    s.putFee propertyId block (toInt64 (s.getCachedAmount propertyId + amount))
  pruneCache env propertyId block
  evalCache env propertyId block

/-- `UpdateDistributionThresholds`; the quotient of `int64_t` rounds toward zero. -/
def updateDistributionThresholds (propertyId : PropertyId) : Op Unit :=
  modify fun s =>
    let distributionThreshold := (s.getTotalTokens propertyId).tdiv OMNI_FEE_THRESHOLD
    { s with
      aux.distributionThresholds := s.aux.distributionThresholds.insert propertyId
        (if distributionThreshold ≤ 0 then 1 else distributionThreshold) }

def notifyTotalTokensChanged (env : Env) (propertyId : PropertyId) (block : Int) : Op Unit := do
  updateDistributionThresholds propertyId
  evalCache env propertyId block

end HcOmni
