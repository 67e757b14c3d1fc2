import HcOmni.Core.Fees

/-!
# Crowdsales

`sp.cpp`: validity of property identifiers, the tokens created by a crowdsale purchase, the
tokens an issuer missed by rounding, and the closing of a crowdsale that reached the maximum.
-/

namespace HcOmni

open Std

namespace State

def isPropertyIdValid (s : State) (propertyId : PropertyId) : Bool :=
  propertyId != 0 &&
    decide (propertyId < s.mySps.peekNextSPID (if propertyId < TEST_ECO_PROPERTY_1 then 1 else 2))

def isPropertyDivisible (s : State) (propertyId : PropertyId) : Bool :=
  match s.mySps.getSP propertyId with
  | some sp => sp.isDivisible
  | none => true

end State

/-- The crowdsale after a purchase: `incTokensUserCreated`, `incTokensIssuerCreated` and
`insertDatabase`, which keeps an entry that is already there. -/
def CMPCrowd.invest (crowd : CMPCrowd) (txid : Hash) (txData : List Int)
    (forUser forIssuer : Int) : CMPCrowd :=
  { crowd with
    uCreated := toInt64 (crowd.uCreated + forUser)
    iCreated := toInt64 (crowd.iCreated + forIssuer)
    txFundraiserData := crowd.txFundraiserData.insertIfNew txid txData }

/-- `uint256_const::max_int64`. -/
def maxInt64 : ArithUint256 := BitVec.ofNat 256 MAX_INT_8_BYTES.toNat

/-- `GetMissedIssuerBonus`: the bonus for all tokens created by users, less what the issuer was
credited already. -/
def getMissedIssuerBonus (sp : Entry) (crowdsale : CMPCrowd) : Op Int := do
  let s ← get
  assertThat .other
    (decide (s.getTotalTokens crowdsale.propertyId =
      toInt64 (crowdsale.iCreated + crowdsale.uCreated)))
  let bonusPercentForIssuer ← convertTo256 sp.percentage
  let amountAlreadyCreditedToIssuer ← convertTo256 crowdsale.iCreated
  let amountCreditedToUsers ← convertTo256 crowdsale.uCreated
  let amountTotal := amountCreditedToUsers + amountAlreadyCreditedToIssuer
  let exactBonus ← divide256 (amountCreditedToUsers * bonusPercentForIssuer) 100
  -- there shall be no negative missing amount
  if exactBonus < amountAlreadyCreditedToIssuer then
    pure 0
  else
    let amountMissing := exactBonus - amountAlreadyCreditedToIssuer
    -- reduce to max. possible amount
    if amountTotal + amountMissing > maxInt64 then
      convertTo64 (maxInt64 - amountTotal)
    else
      convertTo64 amountMissing

/-- The seconds of the early bird bonus that are left. -/
def earlyBirdSeconds (fundraiserSecs currentSecs : Int) : Op ArithUint256 :=
  if currentSecs < fundraiserSecs then do
    let deadline256 ← convertTo256 fundraiserSecs
    let current256 ← convertTo256 currentSecs
    pure (deadline256 - current256)
  else
    pure 0

/-- The tokens a purchase creates before the limit is applied: those for the user and those for
the issuer.  All products wrap at 256 bits. -/
def fundraiserTokens (inflateAmount : Bool) (amtTransfer : Int) (bonusPerc : Nat)
    (fundraiserSecs currentSecs numProps : Int) (issuerPerc : Nat) :
    Op (ArithUint256 × ArithUint256) := do
  let weeksSec : ArithUint256 := 604800
  let precision : ArithUint256 := 1000000000000
  let percentagePrecision : ArithUint256 := 100
  let satoshiPrecision : ArithUint256 := 100000000
  let bonusSeconds ← earlyBirdSeconds fundraiserSecs currentSecs
  -- whole weeks, then the fraction of a week
  let wholeWeeks ← divide256 bonusSeconds weeksSec
  let restSeconds ← modulo256 bonusSeconds weeksSec
  let partWeek ← divide256 (restSeconds * precision) weeksSec
  let weeks := wholeWeeks * precision + partWeek
  let ebPercentage := weeks * BitVec.ofNat 256 bonusPerc
  let bonusPercentage ← divide256 (precision * percentagePrecision + ebPercentage) percentagePrecision
  let issuerPercentage ← divide256 (BitVec.ofNat 256 issuerPerc * precision) percentagePrecision
  let amount256 ← convertTo256 amtTransfer
  let numProps256 ← convertTo256 numProps
  let createdTokens :=
    (if inflateAmount then amount256 * 100000000 else amount256) * numProps256 * bonusPercentage
  let issuerBase ← divide256 createdTokens satoshiPrecision
  let issuerBase ← divide256 issuerBase precision
  let issuerShare ← divide256 issuerPercentage 100
  let issuerTokens := issuerBase * issuerShare * precision
  let createdInt ← divide256 createdTokens precision
  let createdInt ← divide256 createdInt satoshiPrecision
  let issuerInt ← divide256 issuerTokens precision
  let issuerInt ← divide256 issuerInt satoshiPrecision
  let issuerInt ← divide256 issuerInt 100
  pure (createdInt, issuerInt)

/-- `calculateFundraiser`: the tokens for user and issuer, and whether the maximum was reached,
in which case what can still be created is shared between them. -/
def calculateFundraiser (inflateAmount : Bool) (amtTransfer : Int) (bonusPerc : Nat)
    (fundraiserSecs currentSecs numProps : Int) (issuerPerc : Nat) (totalTokens : Int) :
    Op (Int × Int × Bool) := do
  let tokens ←
    fundraiserTokens inflateAmount amtTransfer bonusPerc fundraiserSecs currentSecs numProps issuerPerc
  let total256 ← convertTo256 totalTokens
  if total256 + tokens.1 + tokens.2 > maxInt64 then
    let maxCreatable := maxInt64 - total256
    let ratio ← divide256 ((tokens.1 + tokens.2) * 1000000000000 * 100000000) maxCreatable
    let issuerCut ← divide256 (tokens.2 * 1000000000000 * 100000000) ratio
    assertThat .other (decide (issuerCut ≤ maxCreatable))
    let forUser ← convertTo64 (maxCreatable - issuerCut)
    let forIssuer ← convertTo64 issuerCut
    pure (forUser, forIssuer, true)
  else
    let forUser ← convertTo64 tokens.1
    let forIssuer ← convertTo64 tokens.2
    pure (forUser, forIssuer, false)

/-- `assert(_my_sps->getSP(propertyId, sp))` -/
def assertGetSP (propertyId : PropertyId) : Op Entry := do
  let s ← get
  match s.mySps.getSP propertyId with
  | some sp => pure sp
  | none => throw (.abort .other)

/-- `assert(_my_sps->updateSP(propertyId, sp))` -/
def assertUpdateSP (propertyId : PropertyId) (sp : Entry) : Op Unit := do
  let s ← get
  let updated := s.mySps.updateSP propertyId sp
  assertThat .other updated.1
  set { s with mySps := updated.2 }

/-- `eraseMaxedCrowdsale`: the crowdsale of the address is closed and its purchases are stored
with the property.  The block is looked up in the active chain of the node. -/
def eraseMaxedCrowdsale (env : Env) (address : Address) (blockTime block : Int) : Op Unit := do
  let s ← get
  match s.myCrowds[address]? with
  | none => pure ()
  | some crowdsale =>
      let sp ← assertGetSP crowdsale.propertyId
      match env.chainActive block with
      | none => throw .crash
      | some blockHash =>
          assertUpdateSP crowdsale.propertyId
            { sp with
              historicalData := crowdsale.txFundraiserData
              closeEarly := true
              maxTokens := true
              timeclosed := blockTime
              updateBlock := blockHash }
          modify fun s => { s with myCrowds := s.myCrowds.erase address }

/-- The end of a crowdsale that is closed by its issuer or has expired: the property is updated,
the missed tokens go to the issuer. -/
def closeCrowdsale (address : Address) (propertyId : PropertyId) (sp : Entry) : Op Unit := do
  assertUpdateSP propertyId sp
  assertCredit sp.issuer propertyId sp.missedTokens
  modify fun s => { s with myCrowds := s.myCrowds.erase address }

/-- One round of the loop of `eraseExpiredCrowdsale`. -/
def eraseExpiredCrowd (blockTime : Int) (blockHash : Hash) (address : Address)
    (crowdsale : CMPCrowd) : Op Unit :=
  if blockTime > crowdsale.deadline then do
    let sp ← assertGetSP crowdsale.propertyId
    let missedTokens ← getMissedIssuerBonus sp crowdsale
    closeCrowdsale address crowdsale.propertyId
      { sp with
        historicalData := crowdsale.txFundraiserData
        missedTokens := missedTokens
        updateBlock := blockHash }
  else
    pure ()

/-- `eraseExpiredCrowdsale`: every crowdsale whose deadline has passed is closed. -/
def eraseExpiredCrowdsale (blockTime : Int) (blockHash : Hash) : Op Unit := do
  let s ← get
  s.myCrowds.toList.forM fun entry => eraseExpiredCrowd blockTime blockHash entry.1 entry.2

end HcOmni
