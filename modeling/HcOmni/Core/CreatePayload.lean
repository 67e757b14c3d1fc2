import HcOmni.Core.OmniHelper
import HcOmni.Core.Payload

/-!
# Making payloads

The encoders of `createpayload.cpp`, the other side of the layouts.  Numbers are written most
significant byte first, and strings end with a zero byte.
-/

namespace HcOmni

/-- `SwapByteOrder` and `PUSH_BACK_BYTES` on a number of `size` bytes. -/
def pushBackBytes (size value : Nat) : List UInt8 :=
  (List.range size).map fun i => UInt8.ofNat (value / 256 ^ (size - 1 - i))

/-- The characters of a string. -/
def stringBytes (text : Str) : List UInt8 := text.map fun ch => UInt8.ofNat ch.toNat

/-- A string field: at most 255 characters and the zero behind them. -/
def pushBackString (text : Str) : List UInt8 := stringBytes (text.take 255) ++ [0]

/-- Version and type of the message. -/
def messageHead (messageVer messageType : UInt16) : List UInt8 :=
  pushBackBytes 2 messageVer.toNat ++ pushBackBytes 2 messageType.toNat

/-! ### Payloads with a property and an amount -/

def createPayloadSimpleSend (propertyId : UInt32) (amount : UInt64) : List UInt8 :=
  messageHead 0 0 ++ pushBackBytes 4 propertyId.toNat ++ pushBackBytes 8 amount.toNat

/-- Version 0 if the owners of the property itself receive, otherwise version 1. -/
def createPayloadSendToOwners (propertyId : UInt32) (amount : UInt64)
    (distributionProperty : UInt32) : List UInt8 :=
  if propertyId = distributionProperty then
    messageHead 0 3 ++ pushBackBytes 4 propertyId.toNat ++ pushBackBytes 8 amount.toNat
  else
    messageHead 1 3 ++ pushBackBytes 4 propertyId.toNat ++ pushBackBytes 8 amount.toNat ++
      pushBackBytes 4 distributionProperty.toNat

def createPayloadSendAll (ecosystem : UInt8) : List UInt8 := messageHead 0 4 ++ [ecosystem]

def createPayloadDExAccept (propertyId : UInt32) (amount : UInt64) : List UInt8 :=
  messageHead 0 22 ++ pushBackBytes 4 propertyId.toNat ++ pushBackBytes 8 amount.toNat

def createPayloadGrant (propertyId : UInt32) (amount : UInt64) (memo : Str) : List UInt8 :=
  messageHead 0 55 ++ pushBackBytes 4 propertyId.toNat ++ pushBackBytes 8 amount.toNat ++
    pushBackString memo

def createPayloadRevoke (propertyId : UInt32) (amount : UInt64) (memo : Str) : List UInt8 :=
  messageHead 0 56 ++ pushBackBytes 4 propertyId.toNat ++ pushBackBytes 8 amount.toNat ++
    pushBackString memo

/-- The address is written as it is, without its length or a zero behind it. -/
def createPayloadFreezeTokens (propertyId : UInt32) (amount : UInt64) (address : Address) :
    List UInt8 :=
  messageHead 0 185 ++ pushBackBytes 4 propertyId.toNat ++ pushBackBytes 8 amount.toNat ++
    stringBytes address

def createPayloadUnfreezeTokens (propertyId : UInt32) (amount : UInt64) (address : Address) :
    List UInt8 :=
  messageHead 0 186 ++ pushBackBytes 4 propertyId.toNat ++ pushBackBytes 8 amount.toNat ++
    stringBytes address

/-! ### Payloads with a property only -/

def createPayloadCloseCrowdsale (propertyId : UInt32) : List UInt8 :=
  messageHead 0 53 ++ pushBackBytes 4 propertyId.toNat

def createPayloadChangeIssuer (propertyId : UInt32) : List UInt8 :=
  messageHead 0 70 ++ pushBackBytes 4 propertyId.toNat

def createPayloadEnableFreezing (propertyId : UInt32) : List UInt8 :=
  messageHead 0 71 ++ pushBackBytes 4 propertyId.toNat

def createPayloadDisableFreezing (propertyId : UInt32) : List UInt8 :=
  messageHead 0 72 ++ pushBackBytes 4 propertyId.toNat

/-! ### The exchanges -/

def createPayloadDExSell (propertyId : UInt32) (amountForSale amountDesired : UInt64)
    (timeLimit : UInt8) (minFee : UInt64) (subAction : UInt8) : List UInt8 :=
  messageHead 1 20 ++ pushBackBytes 4 propertyId.toNat ++ pushBackBytes 8 amountForSale.toNat ++
    pushBackBytes 8 amountDesired.toNat ++ [timeLimit] ++ pushBackBytes 8 minFee.toNat ++ [subAction]

def createPayloadMetaDExTrade (propertyIdForSale : UInt32) (amountForSale : UInt64)
    (propertyIdDesired : UInt32) (amountDesired : UInt64) : List UInt8 :=
  messageHead 0 25 ++ pushBackBytes 4 propertyIdForSale.toNat ++
    pushBackBytes 8 amountForSale.toNat ++ pushBackBytes 4 propertyIdDesired.toNat ++
    pushBackBytes 8 amountDesired.toNat

def createPayloadMetaDExCancelPrice (propertyIdForSale : UInt32) (amountForSale : UInt64)
    (propertyIdDesired : UInt32) (amountDesired : UInt64) : List UInt8 :=
  messageHead 0 26 ++ pushBackBytes 4 propertyIdForSale.toNat ++
    pushBackBytes 8 amountForSale.toNat ++ pushBackBytes 4 propertyIdDesired.toNat ++
    pushBackBytes 8 amountDesired.toNat

def createPayloadMetaDExCancelPair (propertyIdForSale propertyIdDesired : UInt32) : List UInt8 :=
  messageHead 0 27 ++ pushBackBytes 4 propertyIdForSale.toNat ++
    pushBackBytes 4 propertyIdDesired.toNat

def createPayloadMetaDExCancelEcosystem (ecosystem : UInt8) : List UInt8 :=
  messageHead 0 28 ++ [ecosystem]

/-! ### Features and alerts -/

def createPayloadDeactivateFeature (featureId : UInt16) : List UInt8 :=
  messageHead 65535 65533 ++ pushBackBytes 2 featureId.toNat

def createPayloadActivateFeature (featureId : UInt16) (activationBlock minClientVersion : UInt32) :
    List UInt8 :=
  messageHead 65535 65534 ++ pushBackBytes 2 featureId.toNat ++
    pushBackBytes 4 activationBlock.toNat ++ pushBackBytes 4 minClientVersion.toNat

/-- The text is not cut. -/
def createPayloadOmniCoreAlert (alertType : UInt16) (expiryValue : UInt32) (alertMessage : Str) :
    List UInt8 :=
  messageHead 65535 65535 ++ pushBackBytes 2 alertType.toNat ++ pushBackBytes 4 expiryValue.toNat ++
    stringBytes alertMessage ++ [0]

/-! ### Agreements -/

/-- The length of the compressed content, the identifier, the compressed content, and the encrypted
content if there is a key. -/
def agreementPayload (codecs : Codecs) (messageType : UInt16) (agreementid : Str)
    (nonencryptedcontent key encryptedcontent : List UInt8) : List UInt8 :=
  messageHead 0 messageType ++ pushBackBytes 4 (codecs.compress nonencryptedcontent).length ++
    (stringBytes agreementid ++ [0]) ++ codecs.compress nonencryptedcontent ++ [0] ++
    if key = [] then [] else codecs.aesEncryptEnhance encryptedcontent key ++ [0]

def createPayloadOmniAgreement (codecs : Codecs) (agreementid : Str)
    (nonencryptedcontent key encryptedcontent : List UInt8) : List UInt8 :=
  agreementPayload codecs 201 agreementid nonencryptedcontent key encryptedcontent

/-! ### New properties -/

/-- What the payloads for new properties begin with. -/
def issuanceHead (messageType : UInt16) (ecosystem : UInt8) (propertyType : UInt16)
    (previousPropertyId : UInt32) (category subcategory name url data : Str) : List UInt8 :=
  messageHead 0 messageType ++ [ecosystem] ++ pushBackBytes 2 propertyType.toNat ++
    pushBackBytes 4 previousPropertyId.toNat ++ pushBackString category ++
    pushBackString subcategory ++ pushBackString name ++ pushBackString url ++ pushBackString data

def createPayloadIssuanceFixed (ecosystem : UInt8) (propertyType : UInt16)
    (previousPropertyId : UInt32) (category subcategory name url data : Str) (amount : UInt64) :
    List UInt8 :=
  issuanceHead 50 ecosystem propertyType previousPropertyId category subcategory name url data ++
    pushBackBytes 8 amount.toNat

def createPayloadIssuanceVariable (ecosystem : UInt8) (propertyType : UInt16)
    (previousPropertyId : UInt32) (category subcategory name url data : Str)
    (propertyIdDesired : UInt32) (amountPerUnit deadline : UInt64)
    (earlyBonus issuerPercentage : UInt8) : List UInt8 :=
  issuanceHead 51 ecosystem propertyType previousPropertyId category subcategory name url data ++
    pushBackBytes 4 propertyIdDesired.toNat ++ pushBackBytes 8 amountPerUnit.toNat ++
    pushBackBytes 8 deadline.toNat ++ pushBackBytes 1 earlyBonus.toNat ++
    pushBackBytes 1 issuerPercentage.toNat

def createPayloadIssuanceManaged (ecosystem : UInt8) (propertyType : UInt16)
    (previousPropertyId : UInt32) (category subcategory name url data : Str) : List UInt8 :=
  issuanceHead 54 ecosystem propertyType previousPropertyId category subcategory name url data

end HcOmni
