import HcOmni.Core.Rules
import HcOmni.Core.SPInfo
import HcOmni.Core.Tally
import HcOmni.Lib.Program

/-!
# The state of the token engine

The global collections of the engine in one record: the tallies, the offers and accepts of the
classic exchange, the order book of the token exchange, the active crowdsales, the property
database, the fee cache and the freeze sets.  What the engine keeps for its own scheduling or
only ever writes is collected in `Aux`.

The engine's functions run in `Op`, state passing with early exits.
-/

namespace HcOmni

open Std MapSum

/-! ### The objects of the exchanges and crowdsales -/

/-- `CMPOffer`: an outstanding offer of one seller for one property. -/
structure CMPOffer where
  offerBlock : Int
  offerAmountOriginal : Int
  property : PropertyId
  btcDesiredOriginal : Int
  minFee : Int
  blocktimelimit : Nat
  txid : Hash
  subaction : Nat := 0
  deriving DecidableEq, Repr

/-- `CMPAccept`: an accepted offer, waiting for payment. -/
structure CMPAccept where
  acceptAmountOriginal : Int
  acceptAmountRemaining : Int
  blocktimelimit : Nat
  property : PropertyId
  offerAmountOriginal : Int
  btcDesiredOriginal : Int
  offerTxid : Hash
  block : Int
  deriving DecidableEq, Repr

/-- `CMPMetaDEx`: an order of the token exchange. -/
structure CMPMetaDEx where
  block : Int
  txid : Hash
  idx : Nat
  property : PropertyId
  amountForsale : Int
  desiredProperty : PropertyId
  amountDesired : Int
  amountRemaining : Int
  subaction : Nat
  addr : Address
  deriving DecidableEq, Repr

namespace CMPMetaDEx

def unitPrice (order : CMPMetaDEx) : ℚ :=
  if order.amountForsale ≠ 0 then (order.amountDesired : ℚ) / order.amountForsale else 0

def inversePrice (order : CMPMetaDEx) : ℚ :=
  if order.amountDesired ≠ 0 then (order.amountForsale : ℚ) / order.amountDesired else 0

/-- What `MetaDEx_compare` compares. -/
def key (order : CMPMetaDEx) : OrderKey := toLex (order.block, order.idx)

end CMPMetaDEx

/-- `md_Set`: the orders of one price level, sorted by block and index. -/
abbrev MdSet := ExtTreeMap OrderKey CMPMetaDEx compare

/-- `md_PricesMap`: the price levels of one property. -/
abbrev MdPricesMap := ExtTreeMap ℚ MdSet compare

/-- `md_PropertiesMap`: the whole order book. -/
abbrev MdPropertiesMap := ExtTreeMap PropertyId MdPricesMap compare

/-- `CMPCrowd`: a live crowdsale. -/
structure CMPCrowd where
  propertyId : PropertyId
  nValue : Int
  propertyDesired : PropertyId
  deadline : Int
  earlyBird : Nat
  percentage : Nat
  uCreated : Int
  iCreated : Int
  /-- amount invested, blocktime, tokens for the user, tokens for the issuer -/
  txFundraiserData : ExtTreeMap Hash (List Int) compare := ∅

/-! ### Bookkeeping that no token amount depends on -/

structure FeatureActivation where
  featureId : Nat
  activationBlock : Int
  minClientVersion : Nat
  deriving DecidableEq, Repr

/-- The records the engine writes to its other databases and never reads back. -/
inductive DbRecord where
  | metaDExCancelTX (txid txidSub : Hash) (block : Int) (propertyId : PropertyId) (amount : Int)
  | matchedTrade (txid1 txid2 : Hash) (address1 address2 : Address) (prop1 prop2 : PropertyId)
      (amount1 amount2 : Int) (block : Int) (fee : Int)
  | newTrade (txid : Hash) (address : Address) (forSale desired : PropertyId) (block : Int)
      (idx : Nat)
  | paymentTX (txid : Hash) (block : Int) (vout : Nat) (propertyId : PropertyId) (amount : Int)
      (buyer seller : Address)
  | stoReceive (receiver : Address) (txid : Hash) (block : Int) (propertyId : PropertyId)
      (amount : Int)
  | sendAllSubRecord (txid : Hash) (subRecord : Nat) (propertyId : PropertyId) (amount : Int)
  | feeDistribution (propertyId : PropertyId) (block : Int) (total : Int)
      (recipients : List (Address × Int))
  | agreement (txid : Hash) (sender receiver : Address) (agreementId : Str) (block : Int) (idx : Nat)
  deriving DecidableEq, Repr

/-- `AlertData`.  The texts the node writes itself are not kept. -/
structure AlertData where
  alertSender : Address
  alertType : Nat
  alertExpiry : Nat
  alertMessage : Option Str
  deriving DecidableEq, Repr

/-- Consensus parameters, distribution thresholds, alerts and write-only records. -/
structure Aux where
  params : ConsensusParams
  distributionThresholds : ExtTreeMap PropertyId Int compare := ∅
  exodusPrev : Int := 0
  vecPendingActivations : List FeatureActivation := []
  vecCompletedActivations : List FeatureActivation := []
  /-- `AbortNode` was called for an activation the client does not support -/
  activationAborted : Bool := false
  currentOmniAlerts : List AlertData := []
  records : List DbRecord := []

/-- The state of the engine. -/
structure State where
  mpTallyMap : ExtTreeMap Address CMPTally compare := ∅
  myOffers : ExtTreeMap Str CMPOffer compare := ∅
  myAccepts : ExtTreeMap Str CMPAccept compare := ∅
  myCrowds : ExtTreeMap Address CMPCrowd compare := ∅
  metadex : MdPropertiesMap := ∅
  mySps : CMPSPInfo := {}
  /-- `COmniFeeCache`: for every property the cached amount at each block that changed it.  Both
  writers drop the older item of their block, so a block has at most one item. -/
  feecache : ExtTreeMap PropertyId (ExtTreeMap Int Int compare) compare := ∅
  setFreezingEnabledProperties : Finset (PropertyId × Int) := ∅
  setFrozenAddresses : Finset (Address × PropertyId) := ∅
  aux : Aux

/-- How decoding the body of an agreement ends.  The decoded text is not used. -/
inductive AgreementDecoding where
  | decoded
  | thrown
  | crashed
  deriving DecidableEq, Repr

/-- What the engine takes from the surrounding node: its command line options, the active chain,
and the calculations done in floating point or by other libraries, which are left
uninterpreted. -/
structure Env where
  /-- `legacy::calculateDesiredBTC(amountOffered, amountDesired, amountAvailable)` -/
  legacyCalculateDesiredBTC : Int → Int → Int → Int
  /-- `legacy::calculateDExPurchase(amountOffered, amountDesired, amountPaid)` -/
  legacyCalculateDExPurchase : Int → Int → Int → Int
  /-- `rounduint64(all_reward * part_available)` for a block time after the fundraiser -/
  devmscAvailable : Nat → Int
  /-- the hash of `chainActive[height]`, if the node knows that block -/
  chainActive : Int → Option Hash
  exodusAddress : Address
  mscDebugFees : Bool
  checkActivationAuthorization : Address → Bool
  checkDeactivationAuthorization : Address → Bool
  checkAlertAuthorization : Address → Bool
  /-- `Decompress` and `AesDecryptEnhance` on the packet of an agreement -/
  decodeAgreement : List UInt8 → AgreementDecoding

/-! ### Programs -/

/-- A function of the engine. -/
abbrev Op := EStateM Halt State

/-- `if (cond) return rc;` -/
def rejectIf (cond : Bool) (rc : Int) : Op Unit :=
  if cond then throw (.ret rc) else pure ()

/-- `assert(cond);` -/
def assertThat (what : Assertion) (cond : Bool) : Op Unit :=
  if cond then pure () else throw (.abort what)

/-- Appends to one of the write-only databases. -/
def record (entry : DbRecord) : Op Unit :=
  modify fun s => { s with aux.records := s.aux.records ++ [entry] }

/-! ### Reading balances -/

/-- The four kinds of tokens an address holds; pending amounts are not among them. -/
def CMPTally.total (tally : CMPTally) (propertyId : PropertyId) : Int :=
  tally.getMoney propertyId .BALANCE + tally.getMoney propertyId .SELLOFFER_RESERVE +
    tally.getMoney propertyId .ACCEPT_RESERVE + tally.getMoney propertyId .METADEX_RESERVE

namespace State

/-- `GetTally(address)->getMoney(...)`, zero for an unknown address. -/
def money (s : State) (address : Address) (propertyId : PropertyId) (ttype : TallyType) : Int :=
  match s.mpTallyMap[address]? with
  | some tally => tally.getMoney propertyId ttype
  | none => 0

def getTokenBalance (s : State) (address : Address) (propertyId : PropertyId) (ttype : TallyType) :
    Int :=
  -- the accept reserve is always empty, except for properties 1 and 2
  if ttype = .ACCEPT_RESERVE ∧ propertyId > OMNI_PROPERTY_TMSC then 0
  else s.money address propertyId ttype

/-- All tokens of a property that addresses hold. -/
def held (s : State) (propertyId : PropertyId) : Int :=
  mapSum s.mpTallyMap fun _ tally => CMPTally.total tally propertyId

def isAddressFrozen (s : State) (address : Address) (propertyId : PropertyId) : Bool :=
  decide ((address, propertyId) ∈ s.setFrozenAddresses)

def isFreezingEnabled (s : State) (propertyId : PropertyId) (block : Int) : Bool :=
  decide (∃ item ∈ s.setFreezingEnabledProperties, item.1 = propertyId ∧ item.2 ≤ block)

/-- `GetCachedAmount`: the item of the most recent block. -/
def getCachedAmount (s : State) (propertyId : PropertyId) : Int :=
  match s.feecache[propertyId]? with
  | some history =>
      match history.maxKey? with
      | some block => history.getD block 0
      | none => 0
  | none => 0

/-- `getTotalTokens`: the stored amount for a fixed property, otherwise everything held or
cached, summed in `int64_t`. -/
def getTotalTokens (s : State) (propertyId : PropertyId) : Int :=
  match s.mySps.getSP propertyId with
  | none => 0
  | some property =>
      if property.fixed then property.numTokens
      else toInt64 (s.held propertyId + s.getCachedAmount propertyId)

/-- The tally of an address with the amount added, whatever the result. -/
def addTally (s : State) (who : Address) (propertyId : PropertyId) (amount : Int)
    (ttype : TallyType) : State :=
  { s with
    mpTallyMap := s.mpTallyMap.insert who ((s.mpTallyMap.getD who {}).add propertyId amount ttype) }

/-- The empty state of a network with the given parameters. -/
def empty (env : Env) (params : ConsensusParams) : State :=
  { mySps := { exodusAddress := env.exodusAddress }
    aux := { params := params } }

end State

/-- `update_tally_map`: returns whether the amount could be added.  A missing tally or record is
created even when the update itself is refused. -/
def updateTallyMap (who : Address) (propertyId : PropertyId) (amount : Int) (ttype : TallyType) :
    Op Bool := do
  if amount = 0 then
    pure false
  else
    let s ← get
    assertThat .notFrozen
      (!(decide (ttype = .BALANCE) && decide (amount < 0) && s.isAddressFrozen who propertyId))
    let updated := (s.mpTallyMap.getD who {}).updateMoney propertyId amount ttype
    set { s with mpTallyMap := s.mpTallyMap.insert who updated.2 }
    pure updated.1

/-- `assert(update_tally_map(who, propertyId, amount, ttype))` -/
def assertUpdateTallyMap (who : Address) (propertyId : PropertyId) (amount : Int)
    (ttype : TallyType) : Op Unit := do
  let updated ← updateTallyMap who propertyId amount ttype
  assertThat .tallyUpdated updated

/-- `if (amount > 0) assert(update_tally_map(who, propertyId, amount, BALANCE))` -/
def assertCredit (who : Address) (propertyId : PropertyId) (amount : Int) : Op Unit :=
  if amount > 0 then assertUpdateTallyMap who propertyId amount .BALANCE else pure ()

end HcOmni
