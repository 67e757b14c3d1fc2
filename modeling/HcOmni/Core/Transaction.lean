import HcOmni.Core.Crowdsale
import HcOmni.Core.DEx
import HcOmni.Core.MetaDEx
import HcOmni.Core.Payload

/-!
# The transaction logic

The executing half of `CMPTransaction` (`tx.cpp`): `interpretPacket` parses the payload, refuses
a sender that is frozen for the property, and hands over to the logic of the transaction type.
A rejected transaction returns a negative code.
-/

namespace HcOmni

open Std

/-! ### Checks shared by several types -/

/-- `nValue <= 0 || MAX_INT_8_BYTES < nValue` -/
def valueOutOfRange (value : Nat) : Bool :=
  value == 0 || decide (MAX_INT_8_BYTES < value)

/-- `!IsTransactionTypeAllowed(block, property, type, version)` -/
def typeNotAllowed (s : State) (tx : CMPTransaction) (property : PropertyId) : Bool :=
  !s.aux.params.isTransactionTypeAllowed tx.block property tx.type tx.version

/-- The checks with which the three transactions about a trading pair begin. -/
def checkTradingPair (tx : CMPTransaction) : Op Unit := do
  let s ← get
  rejectIf (typeNotAllowed s tx tx.property) (PKT_ERROR_METADEX - 22)
  rejectIf (tx.property == tx.desiredProperty) (PKT_ERROR_METADEX - 29)
  rejectIf (isTestEcosystemProperty tx.property != isTestEcosystemProperty tx.desiredProperty)
    (PKT_ERROR_METADEX - 30)
  rejectIf (!s.isPropertyIdValid tx.property) (PKT_ERROR_METADEX - 31)
  rejectIf (!s.isPropertyIdValid tx.desiredProperty) (PKT_ERROR_METADEX - 32)

/-- The checks on the amounts of an order. -/
def checkOrderAmounts (tx : CMPTransaction) : Op Unit := do
  rejectIf (valueOutOfRange tx.nNewValue) (PKT_ERROR_METADEX - 33)
  rejectIf (valueOutOfRange tx.desiredValue) (PKT_ERROR_METADEX - 34)

/-- The checks with which the transactions about freezing begin: the property must be managed,
and the sender its issuer. -/
def checkManagedIssuer (tx : CMPTransaction) : Op Unit := do
  let s ← get
  rejectIf (typeNotAllowed s tx tx.property) (PKT_ERROR_TOKENS - 22)
  rejectIf (!s.isPropertyIdValid tx.property) (PKT_ERROR_TOKENS - 24)
  let sp ← assertGetSP tx.property
  rejectIf (!sp.manual) (PKT_ERROR_TOKENS - 42)
  rejectIf (tx.sender != sp.issuer) (PKT_ERROR_TOKENS - 43)

/-- The fields every new property takes from its transaction. -/
def newEntry (tx : CMPTransaction) : Entry :=
  { issuer := tx.sender
    txid := tx.txid
    propType := tx.propType
    category := tx.category
    subcategory := tx.subcategory
    name := tx.name
    url := tx.url
    data := tx.data
    creationBlock := tx.blockHash
    updateBlock := tx.blockHash }

/-- Stores a new property and returns its identifier, which must not be zero. -/
def putNewProperty (ecosystem : Nat) (info : Entry) : Op PropertyId := do
  let s ← get
  let stored := s.mySps.putSP ecosystem info
  set { s with mySps := stored.2 }
  assertThat .other (decide (stored.1 > 0))
  pure stored.1

/-! ### Crowdsale participation -/

/-- `logicHelper_CrowdsaleParticipation`: the passive effect of sending to an address with an
active crowdsale that accepts the property. -/
def logicHelperCrowdsaleParticipation (env : Env) (tx : CMPTransaction) : Op Int := do
  let s ← get
  match s.myCrowds[tx.receiver]? with
  | none => throw (.ret (PKT_ERROR_CROWD - 1))
  | some crowd =>
      rejectIf (crowd.propertyDesired != tx.property) (PKT_ERROR_CROWD - 2)
      let sp ← assertGetSP crowd.propertyId
      let inflateAmount := !s.isPropertyDivisible tx.property
      let tokens ← calculateFundraiser inflateAmount (toInt64 tx.nValue) sp.earlyBird sp.deadline
        tx.blockTime sp.numTokens sp.percentage (s.getTotalTokens crowd.propertyId)
      let txData := [toInt64 tx.nValue, tx.blockTime, tokens.1, tokens.2.1]
      modify fun s =>
        { s with
          myCrowds := s.myCrowds.insert tx.receiver
            (crowd.invest tx.txid txData tokens.1 tokens.2.1) }
      assertCredit tx.sender crowd.propertyId tokens.1
      assertCredit tx.receiver crowd.propertyId tokens.2.1
      notifyTotalTokensChanged env crowd.propertyId tx.block
      if tokens.2.2 then
        eraseMaxedCrowdsale env tx.receiver tx.blockTime tx.block
      else
        pure ()
      pure (if tokens.1 = 0 ∧ tokens.2.1 = 0 then PKT_ERROR_CROWD - 3 else 0)

/-! ### Sending -/

/-- Tx 0 -/
def logicMathSimpleSend (env : Env) (tx : CMPTransaction) : Op Int := do
  let s ← get
  rejectIf (typeNotAllowed s tx tx.property) (PKT_ERROR_SEND - 22)
  rejectIf (valueOutOfRange tx.nValue) (PKT_ERROR_SEND - 23)
  rejectIf (!s.isPropertyIdValid tx.property) (PKT_ERROR_SEND - 24)
  rejectIf (decide (s.getTokenBalance tx.sender tx.property .BALANCE < tx.nValue))
    (PKT_ERROR_SEND - 25)
  assertUpdateTallyMap tx.sender tx.property (-tx.nValue) .BALANCE
  assertUpdateTallyMap tx.receiver tx.property tx.nValue .BALANCE
  let _ ← callRc (logicHelperCrowdsaleParticipation env tx)
  pure 0

/-- The loop of a send to owners, over the receivers from the largest amount down. -/
def sendToReceivers (tx : CMPTransaction) (receivers : List (Int × Address)) : Op Unit :=
  receivers.forM fun receiver => do
    assertUpdateTallyMap tx.sender tx.property (-receiver.1) .BALANCE
    assertUpdateTallyMap receiver.2 tx.property receiver.1 .BALANCE
    record (.stoReceive receiver.2 tx.txid tx.block tx.property receiver.1)

/-- The property in which the fee of a send to owners is paid. -/
def CMPTransaction.feeProperty (tx : CMPTransaction) : PropertyId :=
  if isTestEcosystemProperty tx.property then OMNI_PROPERTY_TMSC else OMNI_PROPERTY_MSC

/-- The fee of a send to owners.  The source multiplies in `uint64_t` and stores an `int64_t`.  The
receivers are a set in memory, so there are never the 2 ^ 53 of them that it takes to leave that
range, and the product is taken as it is. -/
def CMPTransaction.transferFee (tx : CMPTransaction) (numberOfReceivers : Nat) : Int :=
  let feePerOwner :=
    if tx.version = MP_TX_PKT_V0 then TRANSFER_FEE_PER_OWNER else TRANSFER_FEE_PER_OWNER_V1
  feePerOwner * numberOfReceivers

/-- The payment of that fee: version 0 burns it, version 1 adds it to the fee cache. -/
def payTransferFee (env : Env) (tx : CMPTransaction) (feeProperty : PropertyId)
    (transferFee : Int) : Op Unit := do
  assertUpdateTallyMap tx.sender feeProperty (-transferFee) .BALANCE
  if tx.version = MP_TX_PKT_V0 then pure () else addFee env feeProperty tx.block transferFee

/-- Tx 3 -/
def logicMathSendToOwners (env : Env) (tx : CMPTransaction) : Op Int := do
  let s ← get
  rejectIf (typeNotAllowed s tx tx.property) (PKT_ERROR_STO - 22)
  rejectIf (valueOutOfRange tx.nValue) (PKT_ERROR_STO - 23)
  rejectIf (!s.isPropertyIdValid tx.property) (PKT_ERROR_STO - 24)
  rejectIf (decide (tx.version > MP_TX_PKT_V0) && !s.isPropertyIdValid tx.distributionProperty)
    (PKT_ERROR_STO - 24)
  rejectIf (decide (s.getTokenBalance tx.sender tx.property .BALANCE < tx.nValue))
    (PKT_ERROR_STO - 25)
  let distributeTo := if tx.version = MP_TX_PKT_V0 then tx.property else tx.distributionProperty
  let receivers ← stoGetReceivers tx.sender distributeTo tx.nValue
  rejectIf receivers.isEmpty (PKT_ERROR_STO - 26)
  let feeProperty := tx.feeProperty
  let transferFee := tx.transferFee receivers.length
  let balanceFee := s.getTokenBalance tx.sender feeProperty .BALANCE
  rejectIf (feeProperty != tx.property && decide (balanceFee < transferFee)) (PKT_ERROR_STO - 27)
  rejectIf (feeProperty == tx.property &&
    decide (balanceFee < toInt64 (tx.nValue + transferFee))) (PKT_ERROR_STO - 28)
  payTransferFee env tx feeProperty transferFee
  sendToReceivers tx receivers
  assertThat .allSent (decide ((receivers.map Prod.fst).sum = tx.nValue))
  if tx.version = MP_TX_PKT_V0 then
    notifyTotalTokensChanged env OMNI_PROPERTY_MSC tx.block
  else
    pure ()
  pure 0

/-- The loop of a send all, over the properties of the sender's tally: those of the other
ecosystem and those for which the sender is frozen stay.  Returns the number of properties
sent. -/
def sendAllProperties (tx : CMPTransaction) : List PropertyId → Nat → Op Nat
  | [], numberOfPropertiesSent => pure numberOfPropertiesSent
  | propertyId :: rest, numberOfPropertiesSent => do
      let s ← get
      if tx.ecosystem = OMNI_PROPERTY_MSC ∧ isTestEcosystemProperty propertyId = true then
        sendAllProperties tx rest numberOfPropertiesSent
      else if tx.ecosystem = OMNI_PROPERTY_TMSC ∧ isMainEcosystemProperty propertyId = true then
        sendAllProperties tx rest numberOfPropertiesSent
      else if s.isAddressFrozen tx.sender propertyId then
        sendAllProperties tx rest numberOfPropertiesSent
      else if s.money tx.sender propertyId .BALANCE > 0 then
        let moneyAvailable := s.money tx.sender propertyId .BALANCE
        assertUpdateTallyMap tx.sender propertyId (-moneyAvailable) .BALANCE
        assertUpdateTallyMap tx.receiver propertyId moneyAvailable .BALANCE
        record (.sendAllSubRecord tx.txid (numberOfPropertiesSent + 1) propertyId moneyAvailable)
        sendAllProperties tx rest (numberOfPropertiesSent + 1)
      else
        sendAllProperties tx rest numberOfPropertiesSent

/-- Tx 4 -/
def logicMathSendAll (tx : CMPTransaction) : Op Int := do
  let s ← get
  rejectIf (typeNotAllowed s tx tx.ecosystem) (PKT_ERROR_SEND_ALL - 22)
  match s.mpTallyMap[tx.sender]? with
  | none => throw (.ret (PKT_ERROR_SEND_ALL - 54))
  | some tally =>
      let numberOfPropertiesSent ← sendAllProperties tx tally.properties 0
      rejectIf (numberOfPropertiesSent == 0) (PKT_ERROR_SEND_ALL - 55)
      pure 0

/-! ### The classic exchange -/

/-- `CMPTransaction::ActionTypes` -/
def NEW : Nat := 1
def UPDATE : Nat := 2
def CANCEL : Nat := 3

/-- Tx 20.  In version 0 the action follows from the amount and from whether there is an offer,
in version 1 it is explicit. -/
def logicMathTradeOffer (env : Env) (tx : CMPTransaction) : Op Int := do
  let s ← get
  rejectIf (typeNotAllowed s tx tx.property) (PKT_ERROR_TRADEOFFER - 22)
  rejectIf (decide (MAX_INT_8_BYTES < tx.nValue)) (PKT_ERROR_TRADEOFFER - 23)
  rejectIf (tx.property != OMNI_PROPERTY_TMSC && tx.property != OMNI_PROPERTY_MSC)
    (PKT_ERROR_TRADEOFFER - 47)
  let offerExists := (s.dexGetOffer tx.sender tx.property).isSome
  let create := dexOfferCreate env tx.sender tx.property tx.nValue tx.block
    (toInt64 tx.amountDesired) (toInt64 tx.minFee) tx.blocktimelimit tx.txid
  let update := dexOfferUpdate env tx.sender tx.property tx.nValue tx.block
    (toInt64 tx.amountDesired) (toInt64 tx.minFee) tx.blocktimelimit tx.txid
  if tx.version = MP_TX_PKT_V0 then
    if tx.nValue ≠ 0 then
      if offerExists then
        let updated ← update
        pure updated.1
      else
        let created ← create
        pure created.1
    else if offerExists then
      dexOfferDestroy tx.sender tx.property
    else
      pure (PKT_ERROR_TRADEOFFER - 49)
  else if tx.version = MP_TX_PKT_V1 then
    rejectIf (offerExists && tx.subaction != CANCEL && tx.subaction != UPDATE)
      (PKT_ERROR_TRADEOFFER - 48)
    rejectIf (!offerExists && tx.subaction != NEW) (PKT_ERROR_TRADEOFFER - 49)
    if tx.subaction = NEW then
      let created ← create
      pure created.1
    else if tx.subaction = UPDATE then
      let updated ← update
      pure updated.1
    else if tx.subaction = CANCEL then
      dexOfferDestroy tx.sender tx.property
    else
      pure (PKT_ERROR - 999)
  else
    pure (PKT_ERROR - 500)

/-- Tx 22: the sender buys from the receiver. -/
def logicMathAcceptOfferBTC (tx : CMPTransaction) : Op Int := do
  let s ← get
  rejectIf (typeNotAllowed s tx tx.property) (DEX_ERROR_ACCEPT - 22)
  rejectIf (valueOutOfRange tx.nValue) (DEX_ERROR_ACCEPT - 23)
  let accepted ← dexAcceptCreate tx.sender tx.receiver tx.property tx.nValue tx.block
    (toInt64 tx.txFeePaid)
  pure accepted.1

/-! ### The token exchange -/

/-- Tx 25 -/
def logicMathMetaDExTrade (env : Env) (tx : CMPTransaction) : Op Int := do
  checkTradingPair tx
  checkOrderAmounts tx
  let s ← get
  rejectIf (!s.aux.params.isFeatureActivated FEATURE_TRADEALLPAIRS tx.block &&
    tx.property != OMNI_PROPERTY_MSC && tx.desiredProperty != OMNI_PROPERTY_MSC &&
    tx.property != OMNI_PROPERTY_TMSC && tx.desiredProperty != OMNI_PROPERTY_TMSC)
    (PKT_ERROR_METADEX - 35)
  rejectIf (decide (s.getTokenBalance tx.sender tx.property .BALANCE < tx.nNewValue))
    (PKT_ERROR_METADEX - 25)
  record (.newTrade tx.txid tx.sender tx.property tx.desiredProperty tx.block tx.txIdx)
  metaDExAdd env tx.sender tx.property tx.nNewValue tx.block tx.desiredProperty tx.desiredValue
    tx.txid tx.txIdx

/-- Tx 26 -/
def logicMathMetaDExCancelPrice (tx : CMPTransaction) : Op Int := do
  checkTradingPair tx
  checkOrderAmounts tx
  metaDExCancelAtPrice tx.txid tx.block tx.sender tx.property tx.nNewValue tx.desiredProperty
    tx.desiredValue

/-- Tx 27 -/
def logicMathMetaDExCancelPair (tx : CMPTransaction) : Op Int := do
  checkTradingPair tx
  metaDExCancelAllForPair tx.txid tx.block tx.sender tx.property tx.desiredProperty

/-- Tx 28 -/
def logicMathMetaDExCancelEcosystem (tx : CMPTransaction) : Op Int := do
  let s ← get
  rejectIf (typeNotAllowed s tx tx.ecosystem) (PKT_ERROR_METADEX - 22)
  rejectIf (tx.ecosystem != OMNI_PROPERTY_MSC && tx.ecosystem != OMNI_PROPERTY_TMSC)
    (PKT_ERROR_METADEX - 21)
  metaDExCancelEverything tx.txid tx.block tx.sender tx.ecosystem

/-! ### Creating properties -/

/-- The check that a new property is of one of the two supported types. -/
def propertyTypeInvalid (propType : Nat) : Bool :=
  propType != MSC_PROPERTY_TYPE_INDIVISIBLE && propType != MSC_PROPERTY_TYPE_DIVISIBLE

/-- Tx 50 -/
def logicMathCreatePropertyFixed (env : Env) (tx : CMPTransaction) : Op Int := do
  let s ← get
  rejectIf (tx.ecosystem != OMNI_PROPERTY_MSC && tx.ecosystem != OMNI_PROPERTY_TMSC)
    (PKT_ERROR_SP - 21)
  rejectIf (typeNotAllowed s tx tx.ecosystem) (PKT_ERROR_SP - 22)
  rejectIf (valueOutOfRange tx.nValue) (PKT_ERROR_SP - 23)
  rejectIf (propertyTypeInvalid tx.propType) (PKT_ERROR_SP - 36)
  rejectIf tx.name.isEmpty (PKT_ERROR_SP - 37)
  let propertyId ← putNewProperty tx.ecosystem
    { newEntry tx with numTokens := tx.nValue, fixed := true }
  assertUpdateTallyMap tx.sender propertyId tx.nValue .BALANCE
  notifyTotalTokensChanged env propertyId tx.block
  pure 0

/-- Tx 51 -/
def logicMathCreatePropertyVariable (tx : CMPTransaction) : Op Int := do
  let s ← get
  rejectIf (tx.ecosystem != OMNI_PROPERTY_MSC && tx.ecosystem != OMNI_PROPERTY_TMSC)
    (PKT_ERROR_SP - 21)
  rejectIf (s.aux.params.isFeatureActivated FEATURE_SPCROWDCROSSOVER tx.block &&
    isTestEcosystemProperty tx.ecosystem != isTestEcosystemProperty tx.property)
    (PKT_ERROR_SP - 50)
  rejectIf (typeNotAllowed s tx tx.ecosystem) (PKT_ERROR_SP - 22)
  rejectIf (valueOutOfRange tx.nValue) (PKT_ERROR_SP - 23)
  rejectIf (!s.isPropertyIdValid tx.property) (PKT_ERROR_SP - 24)
  rejectIf (propertyTypeInvalid tx.propType) (PKT_ERROR_SP - 36)
  rejectIf tx.name.isEmpty (PKT_ERROR_SP - 37)
  rejectIf (tx.deadline == 0 || decide (toInt64 tx.deadline < tx.blockTime)) (PKT_ERROR_SP - 38)
  rejectIf (s.myCrowds[tx.sender]?).isSome (PKT_ERROR_SP - 39)
  let propertyId ← putNewProperty tx.ecosystem
    { newEntry tx with
      numTokens := tx.nValue
      propertyDesired := tx.property
      deadline := toInt64 tx.deadline
      earlyBird := tx.earlyBird
      percentage := tx.percentage }
  let crowd : CMPCrowd :=
    { propertyId := propertyId, nValue := tx.nValue, propertyDesired := tx.property,
      deadline := toInt64 tx.deadline, earlyBird := tx.earlyBird, percentage := tx.percentage,
      uCreated := 0, iCreated := 0 }
  modify fun s => { s with myCrowds := s.myCrowds.insertIfNew tx.sender crowd }
  pure 0

/-- Tx 53 -/
def logicMathCloseCrowdsale (tx : CMPTransaction) : Op Int := do
  let s ← get
  rejectIf (typeNotAllowed s tx tx.property) (PKT_ERROR_SP - 22)
  rejectIf (!s.isPropertyIdValid tx.property) (PKT_ERROR_SP - 24)
  match s.myCrowds[tx.sender]? with
  | none => throw (.ret (PKT_ERROR_SP - 40))
  | some crowd =>
      rejectIf (tx.property != crowd.propertyId) (PKT_ERROR_SP - 41)
      let sp ← assertGetSP tx.property
      let missedTokens ← getMissedIssuerBonus sp crowd
      closeCrowdsale tx.sender tx.property
        { sp with
          historicalData := crowd.txFundraiserData
          updateBlock := tx.blockHash
          closeEarly := true
          timeclosed := tx.blockTime
          txidClose := tx.txid
          missedTokens := missedTokens }
      pure 0

/-- Tx 54 -/
def logicMathCreatePropertyManaged (tx : CMPTransaction) : Op Int := do
  let s ← get
  rejectIf (tx.ecosystem != OMNI_PROPERTY_MSC && tx.ecosystem != OMNI_PROPERTY_TMSC)
    (PKT_ERROR_SP - 21)
  rejectIf (typeNotAllowed s tx tx.ecosystem) (PKT_ERROR_SP - 22)
  rejectIf (propertyTypeInvalid tx.propType) (PKT_ERROR_SP - 36)
  rejectIf tx.name.isEmpty (PKT_ERROR_SP - 37)
  let _ ← putNewProperty tx.ecosystem { newEntry tx with manual := true }
  pure 0

/-! ### Managed properties -/

/-- Tx 55.  Until the side effects of granting are disabled, a grant may count as a crowdsale
participation. -/
def logicMathGrantTokens (env : Env) (tx : CMPTransaction) : Op Int := do
  let s ← get
  rejectIf (typeNotAllowed s tx tx.property) (PKT_ERROR_TOKENS - 22)
  rejectIf (valueOutOfRange tx.nValue) (PKT_ERROR_TOKENS - 23)
  rejectIf (!s.isPropertyIdValid tx.property) (PKT_ERROR_TOKENS - 24)
  let sp ← assertGetSP tx.property
  rejectIf (!sp.manual) (PKT_ERROR_TOKENS - 42)
  rejectIf (tx.sender != sp.issuer) (PKT_ERROR_TOKENS - 43)
  rejectIf (decide ((tx.nValue : Int) > MAX_INT_8_BYTES - s.getTotalTokens tx.property))
    (PKT_ERROR_TOKENS - 44)
  assertUpdateSP tx.property
    { sp with
      historicalData := sp.historicalData.insertIfNew tx.txid [(tx.nValue : Int), 0]
      updateBlock := tx.blockHash }
  assertUpdateTallyMap tx.receiver tx.property tx.nValue .BALANCE
  if s.aux.params.isFeatureActivated FEATURE_GRANTEFFECTS tx.block then
    pure ()
  else
    let _ ← callRc (logicHelperCrowdsaleParticipation env tx)
    pure ()
  notifyTotalTokensChanged env tx.property tx.block
  pure 0

/-- Tx 56: any holder may revoke, not only the issuer. -/
def logicMathRevokeTokens (env : Env) (tx : CMPTransaction) : Op Int := do
  let s ← get
  rejectIf (typeNotAllowed s tx tx.property) (PKT_ERROR_TOKENS - 22)
  rejectIf (valueOutOfRange tx.nValue) (PKT_ERROR_TOKENS - 23)
  rejectIf (!s.isPropertyIdValid tx.property) (PKT_ERROR_TOKENS - 24)
  let sp ← assertGetSP tx.property
  rejectIf (!sp.manual) (PKT_ERROR_TOKENS - 42)
  rejectIf (decide (s.getTokenBalance tx.sender tx.property .BALANCE < tx.nValue))
    (PKT_ERROR_TOKENS - 25)
  assertUpdateTallyMap tx.sender tx.property (-tx.nValue) .BALANCE
  assertUpdateSP tx.property
    { sp with
      historicalData := sp.historicalData.insertIfNew tx.txid [0, (tx.nValue : Int)]
      updateBlock := tx.blockHash }
  notifyTotalTokensChanged env tx.property tx.block
  pure 0

/-- Tx 70: for every kind of property, while neither side runs a crowdsale. -/
def logicMathChangeIssuer (tx : CMPTransaction) : Op Int := do
  let s ← get
  rejectIf (typeNotAllowed s tx tx.property) (PKT_ERROR_TOKENS - 22)
  rejectIf (!s.isPropertyIdValid tx.property) (PKT_ERROR_TOKENS - 24)
  let sp ← assertGetSP tx.property
  rejectIf (tx.sender != sp.issuer) (PKT_ERROR_TOKENS - 43)
  rejectIf (s.myCrowds[tx.sender]?).isSome (PKT_ERROR_TOKENS - 39)
  rejectIf tx.receiver.isEmpty (PKT_ERROR_TOKENS - 45)
  rejectIf (s.myCrowds[tx.receiver]?).isSome (PKT_ERROR_TOKENS - 46)
  assertUpdateSP tx.property { sp with issuer := tx.receiver, updateBlock := tx.blockHash }
  pure 0

/-- Tx 71 -/
def logicMathEnableFreezing (tx : CMPTransaction) : Op Int := do
  checkManagedIssuer tx
  let s ← get
  rejectIf (s.isFreezingEnabled tx.property tx.block) (PKT_ERROR_TOKENS - 49)
  let liveBlock :=
    if s.aux.params.isFeatureActivated FEATURE_FREEZENOTICE tx.block then
      s.aux.params.omniFreezeWaitPeriod + tx.block
    else
      tx.block
  -- the assertion of enableFreezing, that freezing is enabled at the live block, always holds
  set { s with
    setFreezingEnabledProperties :=
      insert (tx.property, liveBlock) s.setFreezingEnabledProperties }
  pure 0

/-- The live block `disableFreezing` finds: the last one stored for the property, or zero.  Its
assertion refuses zero and negative blocks alike. -/
def State.freezingLiveBlock (s : State) (propertyId : PropertyId) : Int :=
  (s.setFreezingEnabledProperties.filter (fun item => item.1 = propertyId)).fold max 0 Prod.snd

/-- Tx 72: all addresses of the property are unfrozen. -/
def logicMathDisableFreezing (tx : CMPTransaction) : Op Int := do
  checkManagedIssuer tx
  let s ← get
  rejectIf (!s.isFreezingEnabled tx.property tx.block) (PKT_ERROR_TOKENS - 47)
  let liveBlock := s.freezingLiveBlock tx.property
  assertThat .other (decide (liveBlock > 0))
  set { s with
    setFreezingEnabledProperties := s.setFreezingEnabledProperties.erase (tx.property, liveBlock)
    setFrozenAddresses := s.setFrozenAddresses.filter (fun item => item.2 ≠ tx.property) }
  pure 0

/-- Tx 185 -/
def logicMathFreezeTokens (tx : CMPTransaction) : Op Int := do
  checkManagedIssuer tx
  let s ← get
  rejectIf (!s.isFreezingEnabled tx.property tx.block) (PKT_ERROR_TOKENS - 47)
  rejectIf (s.isAddressFrozen tx.receiver tx.property) (PKT_ERROR_TOKENS - 50)
  set { s with setFrozenAddresses := insert (tx.receiver, tx.property) s.setFrozenAddresses }
  pure 0

/-- Tx 186 -/
def logicMathUnfreezeTokens (tx : CMPTransaction) : Op Int := do
  checkManagedIssuer tx
  let s ← get
  rejectIf (!s.isFreezingEnabled tx.property tx.block) (PKT_ERROR_TOKENS - 47)
  rejectIf (!s.isAddressFrozen tx.receiver tx.property) (PKT_ERROR_TOKENS - 48)
  set { s with setFrozenAddresses := s.setFrozenAddresses.erase (tx.receiver, tx.property) }
  pure 0

/-! ### Activations and alerts -/

def OMNICORE_VERSION : Nat := 30001000

def ALERT_BLOCK_EXPIRY : Nat := 1
def ALERT_CLIENT_VERSION_EXPIRY : Nat := 3

/-- `AddAlert`: a broadcast alert must be of a known type; alerts of the node itself are not
checked. -/
def Aux.addAlert (aux : Aux) (alert : AlertData) : Aux :=
  if alert.alertSender ≠ "omnicore".toList ∧
      (alert.alertType < ALERT_BLOCK_EXPIRY ∨ ALERT_CLIENT_VERSION_EXPIRY < alert.alertType) then
    aux
  else
    { aux with currentOmniAlerts := aux.currentOmniAlerts ++ [alert] }

/-- The alert the node raises itself, until the given height. -/
def nodeAlert (expiry : Int) : AlertData :=
  { alertSender := "omnicore".toList, alertType := ALERT_BLOCK_EXPIRY,
    alertExpiry := (expiry % 2 ^ 32).toNat, alertMessage := none }

/-- `ActivateFeature`, if it succeeds.  An unknown feature is only announced. -/
def Aux.activateFeature (aux : Aux) (featureId : Nat) (activationBlock : Int)
    (minClientVersion : Nat) (transactionBlock : Int) : Option Aux :=
  if activationBlock < transactionBlock + aux.params.minActivationBlocks ∨
      activationBlock > transactionBlock + aux.params.maxActivationBlocks then
    none
  else if aux.params.isFeatureActivated featureId transactionBlock then
    none
  else
    let supported := (aux.params.featureBlock featureId).isSome && decide (minClientVersion ≤ OMNICORE_VERSION)
    let pending := aux.vecPendingActivations.filter (fun activation => activation.featureId ≠ featureId)
    let activated :=
      { aux with
        params := aux.params.setFeatureBlock featureId activationBlock
        vecPendingActivations := pending ++ [⟨featureId, activationBlock, minClientVersion⟩] }
    some (if supported then activated else activated.addAlert (nodeAlert activationBlock))

/-- `DeactivateFeature`, if it succeeds. -/
def Aux.deactivateFeature (aux : Aux) (featureId : Nat) (transactionBlock : Int) : Option Aux :=
  if aux.params.isFeatureActivated featureId transactionBlock then
    some { aux.addAlert (nodeAlert (transactionBlock + 1024)) with
      params := aux.params.setFeatureBlock featureId 999999 }
  else
    none

/-- `PendingActivationCompleted`: everything pending for the feature is dropped. -/
def Aux.pendingActivationCompleted (aux : Aux) (activation : FeatureActivation) : Aux :=
  { aux with
    vecPendingActivations :=
      aux.vecPendingActivations.filter (fun other => other.featureId ≠ activation.featureId)
    vecCompletedActivations := aux.vecCompletedActivations ++ [activation] }

/-- `CheckLiveActivations`: goes through a copy of the pending activations. -/
def Aux.checkLiveActivations (overrideForcedShutdown : Bool) (blockHeight : Int) (aux : Aux) : Aux :=
  aux.vecPendingActivations.foldl (fun aux liveActivation =>
    if liveActivation.activationBlock > blockHeight then aux
    else
      let unsupported := decide (OMNICORE_VERSION < liveActivation.minClientVersion)
      { aux.pendingActivationCompleted liveActivation with
        activationAborted := aux.activationAborted || (unsupported && !overrideForcedShutdown) }) aux

/-- Tx 65533: with the token exchange itself or its trading of all pairs, the orders go. -/
def logicMathDeactivation (env : Env) (tx : CMPTransaction) : Op Int := do
  let s ← get
  rejectIf (typeNotAllowed s tx tx.property) (PKT_ERROR - 22)
  rejectIf (!env.checkDeactivationAuthorization tx.sender) (PKT_ERROR - 51)
  match s.aux.deactivateFeature tx.featureId tx.block with
  | none => throw (.ret (PKT_ERROR - 54))
  | some aux =>
      set { s with aux := aux }
      if tx.featureId = FEATURE_METADEX then
        let _ ← metaDExShutdown
        pure 0
      else if tx.featureId = FEATURE_TRADEALLPAIRS then
        let _ ← metaDExShutdownAllpair
        pure 0
      else
        pure 0

/-- Tx 65534 -/
def logicMathActivation (env : Env) (tx : CMPTransaction) : Op Int := do
  let s ← get
  rejectIf (typeNotAllowed s tx tx.property) (PKT_ERROR - 22)
  rejectIf (!env.checkActivationAuthorization tx.sender) (PKT_ERROR - 51)
  match s.aux.activateFeature tx.featureId (toInt32 tx.activationBlock) tx.minClientVersion
      tx.block with
  | none => throw (.ret (PKT_ERROR - 54))
  | some aux =>
      set { s with aux := aux }
      pure 0

/-- Tx 65535: type 65535 clears the alerts of the sender. -/
def logicMathAlert (env : Env) (tx : CMPTransaction) : Op Int := do
  let s ← get
  rejectIf (typeNotAllowed s tx tx.property) (PKT_ERROR - 22)
  rejectIf (!env.checkAlertAuthorization tx.sender) (PKT_ERROR - 51)
  if tx.alertType = 65535 then
    set { s with
      aux.currentOmniAlerts :=
        s.aux.currentOmniAlerts.filter (fun alert => alert.alertSender ≠ tx.sender) }
  else
    set { s with
      aux := s.aux.addAlert
        { alertSender := tx.sender, alertType := tx.alertType, alertExpiry := tx.alertExpiry,
          alertMessage := some tx.alertText } }
  pure 0

/-- Tx 202 -/
def logicMathSendAgreement (tx : CMPTransaction) : Op Int := do
  record (.agreement tx.txid tx.sender tx.receiver tx.agreementId tx.block tx.txIdx)
  pure 0

/-! ### The interpreter -/

/-- Decoding the body of an agreement, which happens while it is parsed. -/
def decodeAgreement (env : Env) (tx : CMPTransaction) : Op Unit :=
  if tx.type = MSC_TYPE_SEND_AGREEMENT then
    match env.decodeAgreement tx.pkt with
    | .decoded => pure ()
    | .thrown => throw .thrown
    | .crashed => throw .crash
  else
    pure ()

/-- The logic of a parsed transaction, by its type. -/
def logicMath (env : Env) (tx : CMPTransaction) : Op Int :=
  if tx.type = MSC_TYPE_SIMPLE_SEND then logicMathSimpleSend env tx
  else if tx.type = MSC_TYPE_SEND_TO_OWNERS then logicMathSendToOwners env tx
  else if tx.type = MSC_TYPE_SEND_ALL then logicMathSendAll tx
  else if tx.type = MSC_TYPE_TRADE_OFFER then logicMathTradeOffer env tx
  else if tx.type = MSC_TYPE_ACCEPT_OFFER_BTC then logicMathAcceptOfferBTC tx
  else if tx.type = MSC_TYPE_METADEX_TRADE then logicMathMetaDExTrade env tx
  else if tx.type = MSC_TYPE_METADEX_CANCEL_PRICE then logicMathMetaDExCancelPrice tx
  else if tx.type = MSC_TYPE_METADEX_CANCEL_PAIR then logicMathMetaDExCancelPair tx
  else if tx.type = MSC_TYPE_METADEX_CANCEL_ECOSYSTEM then logicMathMetaDExCancelEcosystem tx
  else if tx.type = MSC_TYPE_CREATE_PROPERTY_FIXED then logicMathCreatePropertyFixed env tx
  else if tx.type = MSC_TYPE_CREATE_PROPERTY_VARIABLE then logicMathCreatePropertyVariable tx
  else if tx.type = MSC_TYPE_CLOSE_CROWDSALE then logicMathCloseCrowdsale tx
  else if tx.type = MSC_TYPE_CREATE_PROPERTY_MANUAL then logicMathCreatePropertyManaged tx
  else if tx.type = MSC_TYPE_GRANT_PROPERTY_TOKENS then logicMathGrantTokens env tx
  else if tx.type = MSC_TYPE_REVOKE_PROPERTY_TOKENS then logicMathRevokeTokens env tx
  else if tx.type = MSC_TYPE_CHANGE_ISSUER_ADDRESS then logicMathChangeIssuer tx
  else if tx.type = MSC_TYPE_ENABLE_FREEZING then logicMathEnableFreezing tx
  else if tx.type = MSC_TYPE_DISABLE_FREEZING then logicMathDisableFreezing tx
  else if tx.type = MSC_TYPE_FREEZE_PROPERTY_TOKENS then logicMathFreezeTokens tx
  else if tx.type = MSC_TYPE_UNFREEZE_PROPERTY_TOKENS then logicMathUnfreezeTokens tx
  else if tx.type = OMNICORE_MESSAGE_TYPE_DEACTIVATION then logicMathDeactivation env tx
  else if tx.type = OMNICORE_MESSAGE_TYPE_ACTIVATION then logicMathActivation env tx
  else if tx.type = OMNICORE_MESSAGE_TYPE_ALERT then logicMathAlert env tx
  else if tx.type = MSC_TYPE_SEND_AGREEMENT then logicMathSendAgreement tx
  else pure (PKT_ERROR - 100)

/-- `interpretPacket` -/
def interpretPacket (env : Env) (tx : CMPTransaction) : Op Int := do
  rejectIf tx.rpcOnly (PKT_ERROR - 1)
  match tx.interpretTransaction with
  | none => throw (.ret (PKT_ERROR - 2))
  | some tx =>
      decodeAgreement env tx
      let s ← get
      rejectIf (s.isAddressFrozen tx.sender tx.property) (PKT_ERROR - 3)
      logicMath env tx

end HcOmni
