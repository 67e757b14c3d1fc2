import HcOmni.Core.State

/-!
# Transactions and their payload

The parsing half of `CMPTransaction` (`tx.h`, `tx.cpp`): a transaction carries a payload of
bytes, and every type has its own layout.  A parser returns the transaction with the fields it
sets, or nothing if the payload is too short for the type.
-/

namespace HcOmni

/-- `CMPTransaction`: what the caller sets, then the fields read from the payload. -/
structure CMPTransaction where
  txid : Hash
  block : Int
  blockTime : Int
  txIdx : Nat
  txFeePaid : Nat
  blockHash : Hash
  payload : List UInt8
  /-- what the packet buffer holds behind the payload, zeros if the transaction is fresh -/
  pktRest : List UInt8 := []
  sender : Address
  receiver : Address
  rpcOnly : Bool := false
  type : Nat := 0
  version : Nat := 0
  nValue : Nat := 0
  nNewValue : Nat := 0
  property : PropertyId := 0
  distributionProperty : PropertyId := 0
  ecosystem : Nat := 0
  propType : Nat := 0
  prevPropId : Nat := 0
  category : Str := []
  subcategory : Str := []
  name : Str := []
  url : Str := []
  data : Str := []
  deadline : Nat := 0
  earlyBird : Nat := 0
  percentage : Nat := 0
  desiredProperty : PropertyId := 0
  desiredValue : Nat := 0
  action : Nat := 0
  amountDesired : Nat := 0
  blocktimelimit : Nat := 0
  minFee : Nat := 0
  subaction : Nat := 0
  alertType : Nat := 0
  alertExpiry : Nat := 0
  alertText : Str := []
  featureId : Nat := 0
  activationBlock : Nat := 0
  minClientVersion : Nat := 0
  agreementId : Str := []
  deriving DecidableEq, Repr

namespace CMPTransaction

/-! ### Reading the packet buffer -/

/-- `1 + MAX_PACKETS * PACKET_SIZE`, the size of the packet buffer. -/
def PKT_BUFFER_SIZE : Nat := 1 + 255 * 31

/-- The packet buffer: as much of the payload as fits. -/
def pkt (tx : CMPTransaction) : List UInt8 := tx.payload.take PKT_BUFFER_SIZE

def pktSize (tx : CMPTransaction) : Nat := tx.pkt.length

/-- The buffer with what it holds behind the payload, and zeros after that. -/
def buffer (tx : CMPTransaction) : List UInt8 := tx.pkt ++ tx.pktRest

/-- An unsigned number of `size` bytes, most significant first. -/
def readUInt (tx : CMPTransaction) (pos size : Nat) : Nat :=
  (List.range size).foldl (fun acc i => 256 * acc + (tx.buffer.getD (pos + i) 0).toNat) 0

/-- `std::string(p)`: the bytes up to the next zero. -/
def readCString (tx : CMPTransaction) (pos : Nat) : Str :=
  ((tx.buffer.drop pos).takeWhile (· ≠ 0)).map fun byte => Char.ofNat byte.toNat

/-- `std::string(p, size)`: that many bytes. -/
def readBytes (tx : CMPTransaction) (pos size : Nat) : List UInt8 :=
  (List.range size).map fun i => tx.buffer.getD (pos + i) 0

/-- What a buffer of `SP_STRING_FIELD_LEN` characters keeps of a string. -/
def stringField (text : Str) : Str := text.take 255

/-- Whether a position is past the payload. -/
def isOverrun (tx : CMPTransaction) (pos : Nat) : Bool := decide (pos > tx.pktSize)

/-! ### Fields shared by several layouts -/

/-- The property at offset 4. -/
def readProperty (tx : CMPTransaction) : CMPTransaction :=
  { tx with property := tx.readUInt 4 4 }

/-- The property at offset 4 and the amount at offset 8. -/
def readPropertyValue (tx : CMPTransaction) : CMPTransaction :=
  { tx with property := tx.readUInt 4 4, nValue := tx.readUInt 8 8, nNewValue := tx.readUInt 8 8 }

/-- If there is no receiver, the transaction goes to the sender. -/
def receiverOrSelf (tx : CMPTransaction) : CMPTransaction :=
  { tx with receiver := if tx.receiver.isEmpty then tx.sender else tx.receiver }

/-- The common head of the layouts that create a property, with the position behind its five
strings. -/
def readNewProperty (tx : CMPTransaction) : CMPTransaction × Nat :=
  let category := tx.readCString 11
  let pos := 11 + category.length + 1
  let subcategory := tx.readCString pos
  let pos := pos + subcategory.length + 1
  let name := tx.readCString pos
  let pos := pos + name.length + 1
  let url := tx.readCString pos
  let pos := pos + url.length + 1
  let data := tx.readCString pos
  let pos := pos + data.length + 1
  ({ tx with
      ecosystem := tx.readUInt 4 1
      propType := tx.readUInt 5 2
      prevPropId := tx.readUInt 7 4
      category := stringField category
      subcategory := stringField subcategory
      name := stringField name
      url := stringField url
      data := stringField data }, pos)

/-- `interpret_TransactionType` -/
def interpretTransactionType (tx : CMPTransaction) : Option CMPTransaction :=
  if tx.pktSize < 4 then none
  else some { tx with version := tx.readUInt 0 2, type := tx.readUInt 2 2 }

/-! ### The layouts -/

/-- Tx 0 -/
def interpretSimpleSend (tx : CMPTransaction) : Option CMPTransaction :=
  if tx.pktSize < 16 then none else some tx.readPropertyValue.receiverOrSelf

/-- Tx 3 -/
def interpretSendToOwners (tx : CMPTransaction) : Option CMPTransaction :=
  if tx.pktSize < (if tx.version = MP_TX_PKT_V0 then 16 else 20) then none
  else some { tx.readPropertyValue with
    distributionProperty :=
      if tx.version > MP_TX_PKT_V0 then tx.readUInt 16 4 else tx.distributionProperty }

/-- Tx 4 -/
def interpretSendAll (tx : CMPTransaction) : Option CMPTransaction :=
  if tx.pktSize < 5 then none
  else some (receiverOrSelf { tx with ecosystem := tx.readUInt 4 1, property := tx.readUInt 4 1 })

/-- Tx 20 -/
def interpretTradeOffer (tx : CMPTransaction) : Option CMPTransaction :=
  if tx.pktSize < (if tx.version = MP_TX_PKT_V0 then 33 else 34) then none
  else some { tx.readPropertyValue with
    amountDesired := tx.readUInt 16 8
    blocktimelimit := tx.readUInt 24 1
    minFee := tx.readUInt 25 8
    subaction := if tx.version > MP_TX_PKT_V0 then tx.readUInt 33 1 else tx.subaction }

/-- Tx 22 -/
def interpretAcceptOfferBTC (tx : CMPTransaction) : Option CMPTransaction :=
  if tx.pktSize < 16 then none else some tx.readPropertyValue

/-- The layout of an order: Tx 25 and Tx 26 differ in the action they stand for. -/
def interpretOrder (action : Nat) (tx : CMPTransaction) : Option CMPTransaction :=
  if tx.pktSize < 28 then none
  else some { tx.readPropertyValue with
    desiredProperty := tx.readUInt 16 4
    desiredValue := tx.readUInt 20 8
    action := action }

/-- Tx 25 -/
def interpretMetaDExTrade (tx : CMPTransaction) : Option CMPTransaction := interpretOrder 1 tx

/-- Tx 26 -/
def interpretMetaDExCancelPrice (tx : CMPTransaction) : Option CMPTransaction := interpretOrder 2 tx

/-- Tx 27 -/
def interpretMetaDExCancelPair (tx : CMPTransaction) : Option CMPTransaction :=
  if tx.pktSize < 12 then none
  else some { tx.readProperty with
    desiredProperty := tx.readUInt 8 4, nValue := 0, nNewValue := 0, desiredValue := 0, action := 3 }

/-- Tx 28 -/
def interpretMetaDExCancelEcosystem (tx : CMPTransaction) : Option CMPTransaction :=
  if tx.pktSize < 5 then none
  else some { tx with
    ecosystem := tx.readUInt 4 1, property := tx.readUInt 4 1, desiredProperty := tx.readUInt 4 1,
    nValue := 0, nNewValue := 0, desiredValue := 0, action := 4 }

/-- Tx 50 -/
def interpretCreatePropertyFixed (tx : CMPTransaction) : Option CMPTransaction :=
  if tx.pktSize < 25 then none
  else
    let head := tx.readNewProperty
    if tx.isOverrun (head.2 + 8) then none
    else some { head.1 with nValue := tx.readUInt head.2 8, nNewValue := tx.readUInt head.2 8 }

/-- Tx 51 -/
def interpretCreatePropertyVariable (tx : CMPTransaction) : Option CMPTransaction :=
  if tx.pktSize < 39 then none
  else
    let head := tx.readNewProperty
    if tx.isOverrun (head.2 + 22) then none
    else some { head.1 with
      property := tx.readUInt head.2 4
      nValue := tx.readUInt (head.2 + 4) 8
      nNewValue := tx.readUInt (head.2 + 4) 8
      deadline := tx.readUInt (head.2 + 12) 8
      earlyBird := tx.readUInt (head.2 + 20) 1
      percentage := tx.readUInt (head.2 + 21) 1 }

/-- The layout of a transaction that names only a property. -/
def interpretProperty (tx : CMPTransaction) : Option CMPTransaction :=
  if tx.pktSize < 8 then none else some tx.readProperty

/-- Tx 53 -/
def interpretCloseCrowdsale (tx : CMPTransaction) : Option CMPTransaction := interpretProperty tx

/-- Tx 54 -/
def interpretCreatePropertyManaged (tx : CMPTransaction) : Option CMPTransaction :=
  if tx.pktSize < 17 then none
  else
    let head := tx.readNewProperty
    if tx.isOverrun head.2 then none else some head.1

/-- Tx 55 -/
def interpretGrantTokens (tx : CMPTransaction) : Option CMPTransaction :=
  if tx.pktSize < 16 then none else some tx.readPropertyValue.receiverOrSelf

/-- Tx 56 -/
def interpretRevokeTokens (tx : CMPTransaction) : Option CMPTransaction :=
  if tx.pktSize < 16 then none else some tx.readPropertyValue

/-- Tx 70 -/
def interpretChangeIssuer (tx : CMPTransaction) : Option CMPTransaction := interpretProperty tx

/-- Tx 71 -/
def interpretEnableFreezing (tx : CMPTransaction) : Option CMPTransaction := interpretProperty tx

/-- Tx 72 -/
def interpretDisableFreezing (tx : CMPTransaction) : Option CMPTransaction := interpretProperty tx

/-- The layout of a freeze or unfreeze: the address is read from the payload, always 35 bytes,
and replaces the receiver. -/
def interpretFrozenAddress (tx : CMPTransaction) : Option CMPTransaction :=
  if tx.pktSize < 37 then none
  else some { tx.readPropertyValue with
    receiver := (List.range 35).map fun i => Char.ofNat (tx.buffer.getD (16 + i) 0).toNat }

/-- Tx 185 -/
def interpretFreezeTokens (tx : CMPTransaction) : Option CMPTransaction := interpretFrozenAddress tx

/-- Tx 186 -/
def interpretUnfreezeTokens (tx : CMPTransaction) : Option CMPTransaction :=
  interpretFrozenAddress tx

/-- Tx 65533 -/
def interpretDeactivation (tx : CMPTransaction) : Option CMPTransaction :=
  if tx.pktSize < 6 then none else some { tx with featureId := tx.readUInt 4 2 }

/-- Tx 65534 -/
def interpretActivation (tx : CMPTransaction) : Option CMPTransaction :=
  if tx.pktSize < 14 then none
  else some { tx with
    featureId := tx.readUInt 4 2
    activationBlock := tx.readUInt 6 4
    minClientVersion := tx.readUInt 10 4 }

/-- Tx 65535 -/
def interpretAlert (tx : CMPTransaction) : Option CMPTransaction :=
  if tx.pktSize < 11 then none
  else some { tx with
    alertType := tx.readUInt 4 2
    alertExpiry := tx.readUInt 6 4
    alertText := stringField (tx.readCString 10) }

/-- Tx 202 -/
def interpretSendAgreement (tx : CMPTransaction) : Option CMPTransaction :=
  some { tx with agreementId := tx.readCString 8 }

/-- The two strings `interpret_SendAgreement` takes apart, before it decompresses the first and
decrypts the second.  If the first does not end before the payload does, the unsigned length of the
second wraps around and its constructor throws. -/
def agreementBody (tx : CMPTransaction) : Option (List UInt8 × List UInt8) :=
  let length := tx.readUInt 4 4
  let pos := 8 + (tx.readCString 8).length + 1
  if tx.pktSize < pos + length + 1 then none
  else some (tx.readBytes pos length,
    tx.readBytes (pos + length + 1) (tx.pktSize - (pos + length + 1)))

/-- `interpret_Transaction` -/
def interpretTransaction (tx : CMPTransaction) : Option CMPTransaction := do
  let tx ← tx.interpretTransactionType
  if tx.type = MSC_TYPE_SIMPLE_SEND then tx.interpretSimpleSend
  else if tx.type = MSC_TYPE_SEND_TO_OWNERS then tx.interpretSendToOwners
  else if tx.type = MSC_TYPE_SEND_ALL then tx.interpretSendAll
  else if tx.type = MSC_TYPE_TRADE_OFFER then tx.interpretTradeOffer
  else if tx.type = MSC_TYPE_ACCEPT_OFFER_BTC then tx.interpretAcceptOfferBTC
  else if tx.type = MSC_TYPE_METADEX_TRADE then tx.interpretMetaDExTrade
  else if tx.type = MSC_TYPE_METADEX_CANCEL_PRICE then tx.interpretMetaDExCancelPrice
  else if tx.type = MSC_TYPE_METADEX_CANCEL_PAIR then tx.interpretMetaDExCancelPair
  else if tx.type = MSC_TYPE_METADEX_CANCEL_ECOSYSTEM then tx.interpretMetaDExCancelEcosystem
  else if tx.type = MSC_TYPE_CREATE_PROPERTY_FIXED then tx.interpretCreatePropertyFixed
  else if tx.type = MSC_TYPE_CREATE_PROPERTY_VARIABLE then tx.interpretCreatePropertyVariable
  else if tx.type = MSC_TYPE_CLOSE_CROWDSALE then tx.interpretCloseCrowdsale
  else if tx.type = MSC_TYPE_CREATE_PROPERTY_MANUAL then tx.interpretCreatePropertyManaged
  else if tx.type = MSC_TYPE_GRANT_PROPERTY_TOKENS then tx.interpretGrantTokens
  else if tx.type = MSC_TYPE_REVOKE_PROPERTY_TOKENS then tx.interpretRevokeTokens
  else if tx.type = MSC_TYPE_CHANGE_ISSUER_ADDRESS then tx.interpretChangeIssuer
  else if tx.type = MSC_TYPE_ENABLE_FREEZING then tx.interpretEnableFreezing
  else if tx.type = MSC_TYPE_DISABLE_FREEZING then tx.interpretDisableFreezing
  else if tx.type = MSC_TYPE_FREEZE_PROPERTY_TOKENS then tx.interpretFreezeTokens
  else if tx.type = MSC_TYPE_UNFREEZE_PROPERTY_TOKENS then tx.interpretUnfreezeTokens
  else if tx.type = OMNICORE_MESSAGE_TYPE_DEACTIVATION then tx.interpretDeactivation
  else if tx.type = OMNICORE_MESSAGE_TYPE_ACTIVATION then tx.interpretActivation
  else if tx.type = OMNICORE_MESSAGE_TYPE_ALERT then tx.interpretAlert
  else if tx.type = MSC_TYPE_SEND_AGREEMENT then tx.interpretSendAgreement
  else none

end CMPTransaction

end HcOmni
