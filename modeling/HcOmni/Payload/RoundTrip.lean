import HcOmni.Payload.Fields

/-!
# Payloads are read back

The encoders and the parsers are written separately, one of each for every type.  For the types a
wallet can create, what the parser reads is what the encoder was given.
-/

namespace HcOmni

open CMPTransaction

variable {tx : CMPTransaction} {messageVer messageType : UInt16}

/-! ### The layouts -/

/-- The two numbers that every payload begins with. -/
def headFields (messageVer messageType : UInt16) : List (List UInt8) :=
  [pushBackBytes 2 messageVer.toNat, pushBackBytes 2 messageType.toNat]

theorem readPropertyValue_eq {p : UInt32} {amount : UInt64} {rest : List (List UInt8)}
    (h : Carries tx (headFields messageVer messageType ++
      pushBackBytes 4 p.toNat :: pushBackBytes 8 amount.toNat :: rest)) :
    tx.readPropertyValue = { tx with
      property := p.toNat, nValue := amount.toNat, nNewValue := amount.toNat } := by
  rw [readPropertyValue, h.readUInt_eq 4 2 rfl (by simp [headFields]) p.toNat_lt,
    h.readUInt_eq 8 3 rfl (by simp [headFields]) amount.toNat_lt]

theorem readProperty_eq {p : UInt32} {rest : List (List UInt8)}
    (h : Carries tx (headFields messageVer messageType ++ pushBackBytes 4 p.toNat :: rest)) :
    tx.readProperty = { tx with property := p.toNat } := by
  rw [readProperty, h.readUInt_eq 4 2 rfl (by simp [headFields]) p.toNat_lt]

/-- The five strings of a new property, as they are cut. -/
structure PropertyTexts where
  category : Str
  subcategory : Str
  name : Str
  url : Str
  data : Str

namespace PropertyTexts

/-- No text contains a zero. -/
def Plain (texts : PropertyTexts) : Prop :=
  HcOmni.Plain texts.category ∧ HcOmni.Plain texts.subcategory ∧ HcOmni.Plain texts.name ∧
    HcOmni.Plain texts.url ∧ HcOmni.Plain texts.data

def fields (texts : PropertyTexts) : List (List UInt8) :=
  [pushBackString texts.category, pushBackString texts.subcategory, pushBackString texts.name,
    pushBackString texts.url, pushBackString texts.data]

/-- The bytes the strings take, each with the zero behind it. -/
def size (texts : PropertyTexts) : Nat := (texts.fields.map List.length).sum

theorem size_eq (texts : PropertyTexts) : texts.size = (texts.category.take 255).length +
    (texts.subcategory.take 255).length + (texts.name.take 255).length +
    (texts.url.take 255).length + (texts.data.take 255).length + 5 := by
  simp only [size, fields, List.map_cons, List.map_nil, List.sum_cons, List.sum_nil,
    length_pushBackString]
  omega

end PropertyTexts

/-- What all payloads for new properties begin with. -/
def issuanceFields (messageType : UInt16) (ecosystem : UInt8) (propertyType : UInt16)
    (previousPropertyId : UInt32) (texts : PropertyTexts) : List (List UInt8) :=
  headFields 0 messageType ++ [pushBackBytes 1 ecosystem.toNat, pushBackBytes 2 propertyType.toNat,
    pushBackBytes 4 previousPropertyId.toNat] ++ texts.fields

theorem readNewProperty_eq {ecosystem : UInt8} {propertyType : UInt16} {previous : UInt32}
    {texts : PropertyTexts} {rest : List (List UInt8)}
    (h : Carries tx (issuanceFields messageType ecosystem propertyType previous texts ++ rest))
    (htexts : texts.Plain) :
    tx.readNewProperty = ({ tx with
      ecosystem := ecosystem.toNat
      propType := propertyType.toNat
      prevPropId := previous.toNat
      category := texts.category.take 255
      subcategory := texts.subcategory.take 255
      name := texts.name.take 255
      url := texts.url.take 255
      data := texts.data.take 255 }, 11 + texts.size) := by
  obtain ⟨hcategory, hsubcategory, hname, hurl, hdata⟩ := htexts
  have h₁ := h.readCString_eq 11 5 rfl (by simp [issuanceFields, headFields]) (hcategory.take 255)
  have h₂ := h.readCString_eq (11 + (texts.category.take 255).length + 1) 6 rfl
    (by simp [issuanceFields, headFields, PropertyTexts.fields]; omega) (hsubcategory.take 255)
  have h₃ := h.readCString_eq (11 + (texts.category.take 255).length + 1 +
    (texts.subcategory.take 255).length + 1) 7 rfl
    (by simp [issuanceFields, headFields, PropertyTexts.fields]; omega) (hname.take 255)
  have h₄ := h.readCString_eq (11 + (texts.category.take 255).length + 1 +
    (texts.subcategory.take 255).length + 1 + (texts.name.take 255).length + 1) 8 rfl
    (by simp [issuanceFields, headFields, PropertyTexts.fields]; omega) (hurl.take 255)
  have h₅ := h.readCString_eq (11 + (texts.category.take 255).length + 1 +
    (texts.subcategory.take 255).length + 1 + (texts.name.take 255).length + 1 +
    (texts.url.take 255).length + 1) 9 rfl
    (by simp [issuanceFields, headFields, PropertyTexts.fields]; omega) (hdata.take 255)
  have hpos : 11 + (texts.category.take 255).length + 1 + (texts.subcategory.take 255).length + 1 +
      (texts.name.take 255).length + 1 + (texts.url.take 255).length + 1 +
      (texts.data.take 255).length + 1 = 11 + texts.size := by
    rw [texts.size_eq]
    omega
  unfold readNewProperty
  dsimp only
  rw [h₁, h₂, h₃, h₄, h₅, hpos, h.readUInt_eq 4 2 rfl (by simp [issuanceFields, headFields])
      ecosystem.toNat_lt,
    h.readUInt_eq 5 3 rfl (by simp [issuanceFields, headFields]) propertyType.toNat_lt,
    h.readUInt_eq 7 4 rfl (by simp [issuanceFields, headFields]) previous.toNat_lt]
  simp only [stringField, List.take_take, Nat.min_self]

section Layouts

variable {p desired : UInt32} {amount amountDesired : UInt64} {ecosystem : UInt8}
  {rest : List (List UInt8)}

theorem interpretSimpleSend_eq (h : Carries tx (headFields messageVer messageType ++
      pushBackBytes 4 p.toNat :: pushBackBytes 8 amount.toNat :: rest)) :
    tx.interpretSimpleSend = some (receiverOrSelf { tx with
      property := p.toNat, nValue := amount.toNat, nNewValue := amount.toNat }) := by
  rw [interpretSimpleSend, if_neg (h.not_size_lt (by simp [headFields]; omega)),
    readPropertyValue_eq h]

theorem interpretAcceptOfferBTC_eq (h : Carries tx (headFields messageVer messageType ++
      pushBackBytes 4 p.toNat :: pushBackBytes 8 amount.toNat :: rest)) :
    tx.interpretAcceptOfferBTC = some { tx with
      property := p.toNat, nValue := amount.toNat, nNewValue := amount.toNat } := by
  rw [interpretAcceptOfferBTC, if_neg (h.not_size_lt (by simp [headFields]; omega)),
    readPropertyValue_eq h]

theorem interpretSendAll_eq (h : Carries tx (headFields messageVer messageType ++
      [pushBackBytes 1 ecosystem.toNat])) :
    tx.interpretSendAll = some (receiverOrSelf { tx with
      ecosystem := ecosystem.toNat, property := ecosystem.toNat }) := by
  rw [interpretSendAll, if_neg (h.not_size_lt (by simp [headFields])),
    h.readUInt_eq 4 2 rfl (by simp [headFields]) ecosystem.toNat_lt]

theorem interpretMetaDExCancelEcosystem_eq (h : Carries tx (headFields messageVer messageType ++
      [pushBackBytes 1 ecosystem.toNat])) :
    tx.interpretMetaDExCancelEcosystem = some { tx with
      ecosystem := ecosystem.toNat, property := ecosystem.toNat
      desiredProperty := ecosystem.toNat
      nValue := 0, nNewValue := 0, desiredValue := 0, action := 4 } := by
  rw [interpretMetaDExCancelEcosystem, if_neg (h.not_size_lt (by simp [headFields])),
    h.readUInt_eq 4 2 rfl (by simp [headFields]) ecosystem.toNat_lt]

theorem interpretTradeOffer_eq {limit action : UInt8} {fee : UInt64} (hver : tx.version = 1)
    (h : Carries tx (headFields messageVer messageType ++ [pushBackBytes 4 p.toNat,
      pushBackBytes 8 amount.toNat, pushBackBytes 8 amountDesired.toNat, pushBackBytes 1 limit.toNat,
      pushBackBytes 8 fee.toNat, pushBackBytes 1 action.toNat])) :
    tx.interpretTradeOffer = some { tx with
      property := p.toNat, nValue := amount.toNat, nNewValue := amount.toNat
      amountDesired := amountDesired.toNat, blocktimelimit := limit.toNat, minFee := fee.toNat
      subaction := action.toNat } := by
  rw [interpretTradeOffer, if_neg (h.not_size_lt (by simp [hver, headFields, MP_TX_PKT_V0])),
    readPropertyValue_eq h,
    h.readUInt_eq 16 4 rfl (by simp [headFields]) amountDesired.toNat_lt,
    h.readUInt_eq 24 5 rfl (by simp [headFields]) limit.toNat_lt,
    h.readUInt_eq 25 6 rfl (by simp [headFields]) fee.toNat_lt,
    h.readUInt_eq 33 7 rfl (by simp [headFields]) action.toNat_lt,
    if_pos (by rw [hver]; decide)]

theorem interpretSendToOwners_eq (hver : tx.version = if p = desired then 0 else 1)
    (h : Carries tx (headFields messageVer messageType ++ ([pushBackBytes 4 p.toNat,
      pushBackBytes 8 amount.toNat] ++ if p = desired then [] else [pushBackBytes 4 desired.toNat]))) :
    tx.interpretSendToOwners = some { tx with
      property := p.toNat, nValue := amount.toNat, nNewValue := amount.toNat
      distributionProperty := if p = desired then tx.distributionProperty else desired.toNat } := by
  by_cases hsame : p = desired
  · rw [if_pos hsame] at hver h
    rw [interpretSendToOwners, if_neg (h.not_size_lt (by simp [hver, headFields, MP_TX_PKT_V0])),
      readPropertyValue_eq h, if_pos hsame,
      if_neg (by rw [hver]; decide)]
  · rw [if_neg hsame] at hver h
    rw [interpretSendToOwners, if_neg (h.not_size_lt (by simp [hver, headFields, MP_TX_PKT_V0])),
      readPropertyValue_eq h, if_neg hsame,
      if_pos (by rw [hver]; decide),
      h.readUInt_eq 16 4 rfl (by simp [headFields]) desired.toNat_lt]

theorem interpretOrder_eq (action : Nat) (h : Carries tx (headFields messageVer messageType ++
      [pushBackBytes 4 p.toNat, pushBackBytes 8 amount.toNat, pushBackBytes 4 desired.toNat,
        pushBackBytes 8 amountDesired.toNat])) :
    tx.interpretOrder action = some { tx with
      property := p.toNat, nValue := amount.toNat, nNewValue := amount.toNat
      desiredProperty := desired.toNat, desiredValue := amountDesired.toNat, action := action } := by
  rw [interpretOrder, if_neg (h.not_size_lt (by simp [headFields])), readPropertyValue_eq h,
    h.readUInt_eq 16 4 rfl (by simp [headFields]) desired.toNat_lt,
    h.readUInt_eq 20 5 rfl (by simp [headFields]) amountDesired.toNat_lt]

theorem interpretMetaDExCancelPair_eq (h : Carries tx (headFields messageVer messageType ++
      [pushBackBytes 4 p.toNat, pushBackBytes 4 desired.toNat])) :
    tx.interpretMetaDExCancelPair = some { tx with
      property := p.toNat, desiredProperty := desired.toNat
      nValue := 0, nNewValue := 0, desiredValue := 0, action := 3 } := by
  rw [interpretMetaDExCancelPair, if_neg (h.not_size_lt (by simp [headFields])), readProperty_eq h,
    h.readUInt_eq 8 3 rfl (by simp [headFields]) desired.toNat_lt]

theorem interpretProperty_eq (h : Carries tx (headFields messageVer messageType ++
      [pushBackBytes 4 p.toNat])) :
    tx.interpretProperty = some { tx with property := p.toNat } := by
  rw [interpretProperty, if_neg (h.not_size_lt (by simp [headFields])), readProperty_eq h]

theorem interpretDeactivation_eq {feature : UInt16}
    (h : Carries tx (headFields messageVer messageType ++ [pushBackBytes 2 feature.toNat])) :
    tx.interpretDeactivation = some { tx with featureId := feature.toNat } := by
  rw [interpretDeactivation, if_neg (h.not_size_lt (by simp [headFields])),
    h.readUInt_eq 4 2 rfl (by simp [headFields]) feature.toNat_lt]

theorem interpretActivation_eq {feature : UInt16} {block client : UInt32}
    (h : Carries tx (headFields messageVer messageType ++ [pushBackBytes 2 feature.toNat,
      pushBackBytes 4 block.toNat, pushBackBytes 4 client.toNat])) :
    tx.interpretActivation = some { tx with
      featureId := feature.toNat, activationBlock := block.toNat
      minClientVersion := client.toNat } := by
  rw [interpretActivation, if_neg (h.not_size_lt (by simp [headFields])),
    h.readUInt_eq 4 2 rfl (by simp [headFields]) feature.toNat_lt,
    h.readUInt_eq 6 3 rfl (by simp [headFields]) block.toNat_lt,
    h.readUInt_eq 10 4 rfl (by simp [headFields]) client.toNat_lt]

theorem interpretAlert_eq {kind : UInt16} {expiry : UInt32} {text : Str} (htext : Plain text)
    (h : Carries tx (headFields messageVer messageType ++ [pushBackBytes 2 kind.toNat,
      pushBackBytes 4 expiry.toNat, stringBytes text ++ [0]])) :
    tx.interpretAlert = some { tx with
      alertType := kind.toNat, alertExpiry := expiry.toNat, alertText := text.take 255 } := by
  rw [interpretAlert, if_neg (h.not_size_lt (by simp [headFields]; omega)),
    h.readUInt_eq 4 2 rfl (by simp [headFields]) kind.toNat_lt,
    h.readUInt_eq 6 3 rfl (by simp [headFields]) expiry.toNat_lt,
    h.readCString_eq 10 4 rfl (by simp [headFields]) htext]
  rfl

end Layouts

section NewProperties

variable {ecosystem : UInt8} {kind : UInt16} {previous : UInt32} {texts : PropertyTexts}

theorem PropertyTexts.six_le_size (hname : texts.name ≠ []) : 6 ≤ texts.size := by
  have hpos : 0 < texts.name.length := List.length_pos_iff.mpr hname
  rw [texts.size_eq, List.length_take (l := texts.name)]
  omega

theorem sum_length_issuanceFields : ((issuanceFields messageType ecosystem kind previous texts).map
    List.length).sum = 11 + texts.size := by
  simp [issuanceFields, headFields, PropertyTexts.size]
  omega

section Tail

variable {tail rest : List (List UInt8)} {size value : Nat}
  (h : Carries tx (issuanceFields messageType ecosystem kind previous texts ++ tail))

include h

theorem pktSize_issuance : tx.pktSize = 11 + texts.size + (tail.map List.length).sum := by
  rw [h.pktSize_eq, List.map_append, List.sum_append, sum_length_issuanceFields]

/-- A number behind the texts. -/
theorem readUInt_issuance (pos i : Nat) (hfield : tail.drop i = pushBackBytes size value :: rest)
    (hpos : pos = 11 + texts.size + ((tail.map List.length).take i).sum)
    (hvalue : value < 256 ^ size) : tx.readUInt pos size = value := by
  refine h.readUInt_eq pos ((issuanceFields messageType ecosystem kind previous texts).length + i)
    ((List.drop_length_add_append i).trans hfield) ?_ hvalue
  rw [List.map_append, ← List.length_map, List.take_length_add_append, List.sum_append,
    sum_length_issuanceFields, hpos]

end Tail

theorem interpretCreatePropertyFixed_eq {amount : UInt64} (htexts : texts.Plain)
    (hname : texts.name ≠ []) (h : Carries tx (issuanceFields messageType ecosystem kind previous
      texts ++ [pushBackBytes 8 amount.toNat])) :
    tx.interpretCreatePropertyFixed = some { tx with
      ecosystem := ecosystem.toNat, propType := kind.toNat, prevPropId := previous.toNat
      category := texts.category.take 255, subcategory := texts.subcategory.take 255
      name := texts.name.take 255, url := texts.url.take 255, data := texts.data.take 255
      nValue := amount.toNat, nNewValue := amount.toNat } := by
  have hsix := PropertyTexts.six_le_size hname
  have hsize : tx.pktSize = 11 + texts.size + 8 := pktSize_issuance h
  have hvalue := readUInt_issuance h (11 + texts.size) 0 rfl rfl amount.toNat_lt
  rw [interpretCreatePropertyFixed, if_neg (by omega), readNewProperty_eq h htexts]
  simp [isOverrun, hsize, hvalue]

theorem interpretTransaction_fixed {amount : UInt64} (htexts : texts.Plain) (hname : texts.name ≠ [])
    (h : Carries tx (issuanceFields 50 ecosystem kind previous texts ++
      [pushBackBytes 8 amount.toNat])) :
    tx.interpretTransaction = some { tx with
      version := 0, type := MSC_TYPE_CREATE_PROPERTY_FIXED
      ecosystem := ecosystem.toNat, propType := kind.toNat, prevPropId := previous.toNat
      category := texts.category.take 255, subcategory := texts.subcategory.take 255
      name := texts.name.take 255, url := texts.url.take 255, data := texts.data.take 255
      nValue := amount.toNat, nNewValue := amount.toNat } := by
  unfold interpretTransaction
  rw [Carries.interpretTransactionType_eq h]
  exact interpretCreatePropertyFixed_eq htexts hname ⟨h.payload, h.fits⟩

theorem interpretCreatePropertyVariable_eq {desired : UInt32} {amount deadline : UInt64}
    {bonus percentage : UInt8} (htexts : texts.Plain) (hname : texts.name ≠ [])
    (h : Carries tx (issuanceFields messageType ecosystem kind previous texts ++
      [pushBackBytes 4 desired.toNat, pushBackBytes 8 amount.toNat, pushBackBytes 8 deadline.toNat,
        pushBackBytes 1 bonus.toNat, pushBackBytes 1 percentage.toNat])) :
    tx.interpretCreatePropertyVariable = some { tx with
      ecosystem := ecosystem.toNat, propType := kind.toNat, prevPropId := previous.toNat
      category := texts.category.take 255, subcategory := texts.subcategory.take 255
      name := texts.name.take 255, url := texts.url.take 255, data := texts.data.take 255
      property := desired.toNat, nValue := amount.toNat, nNewValue := amount.toNat
      deadline := deadline.toNat, earlyBird := bonus.toNat, percentage := percentage.toNat } := by
  have hsix := PropertyTexts.six_le_size hname
  have hsize : tx.pktSize = 11 + texts.size + 22 := pktSize_issuance h
  have hdesired := readUInt_issuance h (11 + texts.size) 0 rfl rfl desired.toNat_lt
  have hamount := readUInt_issuance h (11 + texts.size + 4) 1 rfl rfl amount.toNat_lt
  have hdeadline := readUInt_issuance h (11 + texts.size + 12) 2 rfl rfl deadline.toNat_lt
  have hbonus := readUInt_issuance h (11 + texts.size + 20) 3 rfl rfl bonus.toNat_lt
  have hpercentage := readUInt_issuance h (11 + texts.size + 21) 4 rfl rfl percentage.toNat_lt
  rw [interpretCreatePropertyVariable, if_neg (by omega), readNewProperty_eq h htexts]
  simp [isOverrun, hsize, hdesired, hamount, hdeadline, hbonus, hpercentage]

theorem interpretCreatePropertyManaged_eq (htexts : texts.Plain) (hname : texts.name ≠ [])
    (h : Carries tx (issuanceFields messageType ecosystem kind previous texts)) :
    tx.interpretCreatePropertyManaged = some { tx with
      ecosystem := ecosystem.toNat, propType := kind.toNat, prevPropId := previous.toNat
      category := texts.category.take 255, subcategory := texts.subcategory.take 255
      name := texts.name.take 255, url := texts.url.take 255, data := texts.data.take 255 } := by
  have hsix := PropertyTexts.six_le_size hname
  rw [← List.append_nil (issuanceFields _ _ _ _ _)] at h
  have hsize : tx.pktSize = 11 + texts.size := pktSize_issuance h
  rw [interpretCreatePropertyManaged, if_neg (by omega), readNewProperty_eq h htexts]
  simp [isOverrun, hsize]

end NewProperties

/-! ### Requests -/

/-- A call of one of the encoders. -/
inductive Request where
  | simpleSend (propertyId : UInt32) (amount : UInt64)
  | sendAll (ecosystem : UInt8)
  | dexSell (propertyId : UInt32) (amountForSale amountDesired : UInt64) (timeLimit : UInt8)
      (minFee : UInt64) (subAction : UInt8)
  | dexAccept (propertyId : UInt32) (amount : UInt64)
  | sendToOwners (propertyId : UInt32) (amount : UInt64) (distributionProperty : UInt32)
  | issuanceFixed (ecosystem : UInt8) (propertyType : UInt16) (previousPropertyId : UInt32)
      (texts : PropertyTexts) (amount : UInt64)
  | issuanceVariable (ecosystem : UInt8) (propertyType : UInt16) (previousPropertyId : UInt32)
      (texts : PropertyTexts) (propertyIdDesired : UInt32) (amountPerUnit deadline : UInt64)
      (earlyBonus issuerPercentage : UInt8)
  | issuanceManaged (ecosystem : UInt8) (propertyType : UInt16) (previousPropertyId : UInt32)
      (texts : PropertyTexts)
  | closeCrowdsale (propertyId : UInt32)
  | grant (propertyId : UInt32) (amount : UInt64) (memo : Str)
  | revoke (propertyId : UInt32) (amount : UInt64) (memo : Str)
  | changeIssuer (propertyId : UInt32)
  | enableFreezing (propertyId : UInt32)
  | disableFreezing (propertyId : UInt32)
  | metaDExTrade (propertyIdForSale : UInt32) (amountForSale : UInt64) (propertyIdDesired : UInt32)
      (amountDesired : UInt64)
  | metaDExCancelPrice (propertyIdForSale : UInt32) (amountForSale : UInt64)
      (propertyIdDesired : UInt32) (amountDesired : UInt64)
  | metaDExCancelPair (propertyIdForSale propertyIdDesired : UInt32)
  | metaDExCancelEcosystem (ecosystem : UInt8)
  | deactivateFeature (featureId : UInt16)
  | activateFeature (featureId : UInt16) (activationBlock minClientVersion : UInt32)
  | omniCoreAlert (alertType : UInt16) (expiryValue : UInt32) (alertMessage : Str)

namespace Request

/-- The payload the encoder makes. -/
def payload : Request → List UInt8
  | simpleSend p amount => createPayloadSimpleSend p amount
  | sendAll ecosystem => createPayloadSendAll ecosystem
  | dexSell p amount desired limit fee action => createPayloadDExSell p amount desired limit fee action
  | dexAccept p amount => createPayloadDExAccept p amount
  | sendToOwners p amount distribution => createPayloadSendToOwners p amount distribution
  | issuanceFixed eco kind previous texts amount => createPayloadIssuanceFixed eco kind previous
      texts.category texts.subcategory texts.name texts.url texts.data amount
  | issuanceVariable eco kind previous texts desired amount deadline bonus percentage =>
      createPayloadIssuanceVariable eco kind previous texts.category texts.subcategory texts.name
        texts.url texts.data desired amount deadline bonus percentage
  | issuanceManaged eco kind previous texts => createPayloadIssuanceManaged eco kind previous
      texts.category texts.subcategory texts.name texts.url texts.data
  | closeCrowdsale p => createPayloadCloseCrowdsale p
  | grant p amount memo => createPayloadGrant p amount memo
  | revoke p amount memo => createPayloadRevoke p amount memo
  | changeIssuer p => createPayloadChangeIssuer p
  | enableFreezing p => createPayloadEnableFreezing p
  | disableFreezing p => createPayloadDisableFreezing p
  | metaDExTrade p amount desired amountDesired => createPayloadMetaDExTrade p amount desired amountDesired
  | metaDExCancelPrice p amount desired amountDesired =>
      createPayloadMetaDExCancelPrice p amount desired amountDesired
  | metaDExCancelPair p desired => createPayloadMetaDExCancelPair p desired
  | metaDExCancelEcosystem ecosystem => createPayloadMetaDExCancelEcosystem ecosystem
  | deactivateFeature feature => createPayloadDeactivateFeature feature
  | activateFeature feature block version => createPayloadActivateFeature feature block version
  | omniCoreAlert kind expiry text => createPayloadOmniCoreAlert kind expiry text

/-- Strings contain no zero, and a new property has a name. -/
def Valid : Request → Prop
  | issuanceFixed _ _ _ texts _ => texts.Plain ∧ texts.name ≠ []
  | issuanceVariable _ _ _ texts _ _ _ _ _ => texts.Plain ∧ texts.name ≠ []
  | issuanceManaged _ _ _ texts => texts.Plain ∧ texts.name ≠ []
  | grant _ _ memo => Plain memo
  | revoke _ _ memo => Plain memo
  | omniCoreAlert _ _ text => Plain text
  | _ => True

/-- The version the encoder writes. -/
def version : Request → UInt16
  | dexSell .. => 1
  | sendToOwners p _ distribution => if p = distribution then 0 else 1
  | deactivateFeature .. | activateFeature .. | omniCoreAlert .. => 65535
  | _ => 0

/-- The type the encoder writes. -/
def type : Request → UInt16
  | simpleSend .. => 0
  | sendToOwners .. => 3
  | sendAll .. => 4
  | dexSell .. => 20
  | dexAccept .. => 22
  | metaDExTrade .. => 25
  | metaDExCancelPrice .. => 26
  | metaDExCancelPair .. => 27
  | metaDExCancelEcosystem .. => 28
  | issuanceFixed .. => 50
  | issuanceVariable .. => 51
  | closeCrowdsale .. => 53
  | issuanceManaged .. => 54
  | grant .. => 55
  | revoke .. => 56
  | changeIssuer .. => 70
  | enableFreezing .. => 71
  | disableFreezing .. => 72
  | deactivateFeature .. => 65533
  | activateFeature .. => 65534
  | omniCoreAlert .. => 65535

/-- The fields behind version and type. -/
def body : Request → List (List UInt8)
  | simpleSend p amount | dexAccept p amount => [pushBackBytes 4 p.toNat, pushBackBytes 8 amount.toNat]
  | sendAll ecosystem | metaDExCancelEcosystem ecosystem => [pushBackBytes 1 ecosystem.toNat]
  | dexSell p amount desired limit fee action => [pushBackBytes 4 p.toNat,
      pushBackBytes 8 amount.toNat, pushBackBytes 8 desired.toNat, pushBackBytes 1 limit.toNat,
      pushBackBytes 8 fee.toNat, pushBackBytes 1 action.toNat]
  | sendToOwners p amount distribution => [pushBackBytes 4 p.toNat, pushBackBytes 8 amount.toNat] ++
      if p = distribution then [] else [pushBackBytes 4 distribution.toNat]
  | issuanceFixed eco kind previous texts amount => [pushBackBytes 1 eco.toNat,
      pushBackBytes 2 kind.toNat, pushBackBytes 4 previous.toNat] ++ texts.fields ++
      [pushBackBytes 8 amount.toNat]
  | issuanceVariable eco kind previous texts desired amount deadline bonus percentage =>
      [pushBackBytes 1 eco.toNat, pushBackBytes 2 kind.toNat, pushBackBytes 4 previous.toNat] ++
      texts.fields ++ [pushBackBytes 4 desired.toNat, pushBackBytes 8 amount.toNat,
        pushBackBytes 8 deadline.toNat, pushBackBytes 1 bonus.toNat, pushBackBytes 1 percentage.toNat]
  | issuanceManaged eco kind previous texts => [pushBackBytes 1 eco.toNat,
      pushBackBytes 2 kind.toNat, pushBackBytes 4 previous.toNat] ++ texts.fields
  | closeCrowdsale p | changeIssuer p | enableFreezing p | disableFreezing p =>
      [pushBackBytes 4 p.toNat]
  | grant p amount memo | revoke p amount memo => [pushBackBytes 4 p.toNat,
      pushBackBytes 8 amount.toNat, pushBackString memo]
  | metaDExTrade p amount desired amountDesired | metaDExCancelPrice p amount desired amountDesired =>
      [pushBackBytes 4 p.toNat, pushBackBytes 8 amount.toNat, pushBackBytes 4 desired.toNat,
        pushBackBytes 8 amountDesired.toNat]
  | metaDExCancelPair p desired => [pushBackBytes 4 p.toNat, pushBackBytes 4 desired.toNat]
  | deactivateFeature feature => [pushBackBytes 2 feature.toNat]
  | activateFeature feature block version => [pushBackBytes 2 feature.toNat,
      pushBackBytes 4 block.toNat, pushBackBytes 4 version.toNat]
  | omniCoreAlert kind expiry text => [pushBackBytes 2 kind.toNat, pushBackBytes 4 expiry.toNat,
      stringBytes text ++ [0]]

/-- What the transaction holds when the payload has been read. -/
def decoded (tx : CMPTransaction) (request : Request) : CMPTransaction :=
  let tx := { tx with version := request.version.toNat, type := request.type.toNat }
  match request with
  | simpleSend p amount | grant p amount _ => receiverOrSelf
      { tx with property := p.toNat, nValue := amount.toNat, nNewValue := amount.toNat }
  | dexAccept p amount | revoke p amount _ =>
      { tx with property := p.toNat, nValue := amount.toNat, nNewValue := amount.toNat }
  | sendAll eco => receiverOrSelf { tx with ecosystem := eco.toNat, property := eco.toNat }
  | dexSell p amount desired limit fee action =>
      { tx with
        property := p.toNat, nValue := amount.toNat, nNewValue := amount.toNat
        amountDesired := desired.toNat, blocktimelimit := limit.toNat, minFee := fee.toNat
        subaction := action.toNat }
  | sendToOwners p amount distribution =>
      { tx with
        property := p.toNat, nValue := amount.toNat, nNewValue := amount.toNat
        distributionProperty :=
          if p = distribution then tx.distributionProperty else distribution.toNat }
  | issuanceFixed eco kind previous texts amount =>
      { tx with
        ecosystem := eco.toNat, propType := kind.toNat, prevPropId := previous.toNat
        category := texts.category.take 255, subcategory := texts.subcategory.take 255
        name := texts.name.take 255, url := texts.url.take 255, data := texts.data.take 255
        nValue := amount.toNat, nNewValue := amount.toNat }
  | issuanceVariable eco kind previous texts desired amount deadline bonus percentage =>
      { tx with
        ecosystem := eco.toNat, propType := kind.toNat, prevPropId := previous.toNat
        category := texts.category.take 255, subcategory := texts.subcategory.take 255
        name := texts.name.take 255, url := texts.url.take 255, data := texts.data.take 255
        property := desired.toNat, nValue := amount.toNat, nNewValue := amount.toNat
        deadline := deadline.toNat, earlyBird := bonus.toNat, percentage := percentage.toNat }
  | issuanceManaged eco kind previous texts =>
      { tx with
        ecosystem := eco.toNat, propType := kind.toNat, prevPropId := previous.toNat
        category := texts.category.take 255, subcategory := texts.subcategory.take 255
        name := texts.name.take 255, url := texts.url.take 255, data := texts.data.take 255 }
  | closeCrowdsale p | changeIssuer p | enableFreezing p | disableFreezing p =>
      { tx with property := p.toNat }
  | metaDExTrade p amount desired amountDesired =>
      { tx with
        property := p.toNat, nValue := amount.toNat, nNewValue := amount.toNat
        desiredProperty := desired.toNat, desiredValue := amountDesired.toNat, action := 1 }
  | metaDExCancelPrice p amount desired amountDesired =>
      { tx with
        property := p.toNat, nValue := amount.toNat, nNewValue := amount.toNat
        desiredProperty := desired.toNat, desiredValue := amountDesired.toNat, action := 2 }
  | metaDExCancelPair p desired =>
      { tx with
        property := p.toNat, desiredProperty := desired.toNat
        nValue := 0, nNewValue := 0, desiredValue := 0, action := 3 }
  | metaDExCancelEcosystem eco =>
      { tx with
        ecosystem := eco.toNat, property := eco.toNat, desiredProperty := eco.toNat
        nValue := 0, nNewValue := 0, desiredValue := 0, action := 4 }
  | deactivateFeature feature => { tx with featureId := feature.toNat }
  | activateFeature feature block version =>
      { tx with
        featureId := feature.toNat, activationBlock := block.toNat
        minClientVersion := version.toNat }
  | omniCoreAlert kind expiry text =>
      { tx with alertType := kind.toNat, alertExpiry := expiry.toNat, alertText := text.take 255 }

theorem payload_eq (request : Request) :
    request.payload = (headFields request.version request.type ++ request.body).flatten := by
  cases request with
  | sendToOwners p amount distribution =>
    by_cases hsame : p = distribution <;>
      simp [payload, createPayloadSendToOwners, messageHead, headFields, version, type, body, hsame]
  | _ =>
    simp [payload, messageHead, headFields, version, type, body, issuanceHead,
      PropertyTexts.fields, pushBackBytes_one, createPayloadSimpleSend, createPayloadSendAll,
      createPayloadDExSell, createPayloadDExAccept, createPayloadIssuanceFixed,
      createPayloadIssuanceVariable, createPayloadIssuanceManaged, createPayloadCloseCrowdsale,
      createPayloadGrant, createPayloadRevoke, createPayloadChangeIssuer,
      createPayloadEnableFreezing, createPayloadDisableFreezing, createPayloadMetaDExTrade,
      createPayloadMetaDExCancelPrice, createPayloadMetaDExCancelPair,
      createPayloadMetaDExCancelEcosystem, createPayloadDeactivateFeature,
      createPayloadActivateFeature, createPayloadOmniCoreAlert]

theorem carries (request : Request) (hpayload : tx.payload = request.payload)
    (hfits : request.payload.length ≤ PKT_BUFFER_SIZE) :
    Carries tx (headFields request.version request.type ++ request.body) := by
  rw [request.payload_eq] at hpayload hfits
  exact ⟨hpayload, hfits⟩

/-- **Payloads are read back.**  What the parser reads from the payload of a request is what the
encoder was given, with strings cut to 255 characters. -/
theorem interpretTransaction_payload (request : Request) (hvalid : request.Valid)
    (hpayload : tx.payload = request.payload)
    (hfits : request.payload.length ≤ PKT_BUFFER_SIZE) :
    tx.interpretTransaction = some (request.decoded tx) := by
  have htx := request.carries hpayload hfits
  have hhead := Carries.interpretTransactionType_eq htx
  have h : Carries { tx with version := request.version.toNat, type := request.type.toNat }
    (headFields request.version request.type ++ request.body) := ⟨htx.payload, htx.fits⟩
  unfold interpretTransaction
  rw [hhead]
  cases request with
  | simpleSend p amount => exact interpretSimpleSend_eq h
  | sendAll ecosystem => exact interpretSendAll_eq h
  | dexSell p amount desired limit fee action => exact interpretTradeOffer_eq rfl h
  | dexAccept p amount => exact interpretAcceptOfferBTC_eq h
  | sendToOwners p amount distribution =>
      refine interpretSendToOwners_eq ?_ h
      change UInt16.toNat (if p = distribution then 0 else 1) = _
      split <;> rfl
  | issuanceFixed eco kind previous texts amount =>
      exact interpretCreatePropertyFixed_eq hvalid.1 hvalid.2 h
  | issuanceVariable eco kind previous texts desired amount deadline bonus percentage =>
      exact interpretCreatePropertyVariable_eq hvalid.1 hvalid.2 h
  | issuanceManaged eco kind previous texts =>
      exact interpretCreatePropertyManaged_eq hvalid.1 hvalid.2 h
  | closeCrowdsale p => exact interpretProperty_eq h
  | grant p amount memo => exact interpretSimpleSend_eq h
  | revoke p amount memo => exact interpretAcceptOfferBTC_eq h
  | changeIssuer p => exact interpretProperty_eq h
  | enableFreezing p => exact interpretProperty_eq h
  | disableFreezing p => exact interpretProperty_eq h
  | metaDExTrade p amount desired amountDesired => exact interpretOrder_eq 1 h
  | metaDExCancelPrice p amount desired amountDesired => exact interpretOrder_eq 2 h
  | metaDExCancelPair p desired => exact interpretMetaDExCancelPair_eq h
  | metaDExCancelEcosystem ecosystem => exact interpretMetaDExCancelEcosystem_eq h
  | deactivateFeature feature => exact interpretDeactivation_eq h
  | activateFeature feature block version => exact interpretActivation_eq h
  | omniCoreAlert kind expiry text => exact interpretAlert_eq hvalid h

/-- A new property with nothing but a name. -/
def named (name : Str) (amount : UInt64) : Request :=
  issuanceFixed 1 1 0 ⟨[], [], name, [], []⟩ amount

/-- A transaction that carries the payload of a request. -/
def transaction (request : Request) : CMPTransaction where
  txid := 1
  block := 50000
  blockTime := 1500000000
  txIdx := 0
  txFeePaid := 0
  blockHash := 50000
  payload := request.payload
  sender := "sender".toList
  receiver := []

/-- The payload for a property called "token". -/
theorem interpretTransaction_payload_named :
    (named "token".toList 100).Valid ∧
      (named "token".toList 100).transaction.interpretTransaction =
        some ((named "token".toList 100).decoded (named "token".toList 100).transaction) := by
  have hvalid : (named "token".toList 100).Valid := by
    refine ⟨⟨?_, ?_, ?_, ?_, ?_⟩, ?_⟩ <;> decide
  exact ⟨hvalid, interpretTransaction_payload _ hvalid rfl (by decide)⟩

end Request

end HcOmni
