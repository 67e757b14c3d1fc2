import HcOmni.Conformance.System
import HcOmni.Payload.Fields

/-!
# What a payload is read from

The parsers check the length of a payload, and then read the packet buffer, which is larger.  A parser
stays inside the payload if what it returns does not change with the bytes behind it.  All but three
layouts do: a freeze and an unfreeze take 35 bytes of an address from a payload that may have 21 of
them, and the text of an alert need not end where the payload does.
-/

namespace HcOmni.CMPTransaction

open Bytes

variable {tx parsed : CMPTransaction} {rest : List UInt8} {pos size : Nat}

/-! ### Other bytes behind the payload -/

/-- The same transaction, with other bytes behind the payload. -/
def refill (tx : CMPTransaction) (rest : List UInt8) : CMPTransaction := { tx with pktRest := rest }

/-- What an accepted payload yields: the fields of the transaction, and the two strings of an
agreement.  What the buffer holds behind the payload is not part of it. -/
def decoded (tx : CMPTransaction) :
    Option (CMPTransaction × Option (List UInt8 × List UInt8)) := do
  let parsed ← tx.interpretTransaction
  if parsed.type = MSC_TYPE_SEND_AGREEMENT then
    let body ← tx.agreementBody
    return (parsed.refill [], some body)
  else return (parsed.refill [], none)

theorem buffer_refill : (tx.refill rest).buffer = tx.pkt ++ rest := rfl

theorem buffer_of_fresh (hfresh : tx.pktRest = []) : tx.buffer = tx.pkt := by
  rw [buffer, hfresh, List.append_nil]

theorem readUInt_refill (hfresh : tx.pktRest = []) (h : pos + size ≤ tx.pktSize) :
    (tx.refill rest).readUInt pos size = tx.readUInt pos size := by
  rw [readUInt_eq_numberAt, readUInt_eq_numberAt, buffer_refill, buffer_of_fresh hfresh]
  exact numberAt_append rest h

theorem readBytes_refill (hfresh : tx.pktRest = []) (h : pos + size ≤ tx.pktSize) :
    (tx.refill rest).readBytes pos size = tx.readBytes pos size := by
  unfold readBytes
  rw [buffer_refill, buffer_of_fresh hfresh]
  refine List.map_congr_left fun i hi => ?_
  have hlt := List.mem_range.mp hi
  have hin : pos + i < tx.pkt.length := by
    change pos + i < tx.pktSize
    omega
  rw [List.getD_append _ _ _ _ hin]

theorem readCString_refill (hfresh : tx.pktRest = [])
    (h : pos + (tx.readCString pos).length < tx.pktSize) :
    (tx.refill rest).readCString pos = tx.readCString pos := by
  rw [readCString_eq_stringAt, buffer_of_fresh hfresh, bytesString, List.length_map] at h
  rw [readCString_eq_stringAt, readCString_eq_stringAt, buffer_refill, buffer_of_fresh hfresh,
    stringAt_append rest h]

theorem versioned_refill {old : Nat} (hfresh : tx.pktRest = [])
    (h : tx.version > MP_TX_PKT_V0 → pos + size ≤ tx.pktSize) :
    (if (tx.refill rest).version > MP_TX_PKT_V0 then (tx.refill rest).readUInt pos size else old) =
      if tx.version > MP_TX_PKT_V0 then tx.readUInt pos size else old := by
  change (if tx.version > MP_TX_PKT_V0 then _ else _) = _
  by_cases hversion : tx.version > MP_TX_PKT_V0
  · rw [if_pos hversion, if_pos hversion, readUInt_refill hfresh (h hversion)]
  · rw [if_neg hversion, if_neg hversion]

/-! ### One layout after the other -/

/-- If the first reading succeeds, the second one yields the same with the other bytes. -/
def Refills (rest : List UInt8) (first second : Option CMPTransaction) : Prop :=
  ∀ parsed, first = some parsed → second = some (parsed.refill rest)

theorem Refills.none {second : Option CMPTransaction} : Refills rest none second := by
  intro parsed h
  cases h

theorem Refills.some {second : CMPTransaction} (h : second = tx.refill rest) :
    Refills rest (some tx) (some second) := by
  intro parsed hparse
  rw [h, Option.some.inj hparse]

theorem Refills.ite {c : Prop} [Decidable c] {a a' b b' : Option CMPTransaction}
    (htrue : c → Refills rest a a') (hfalse : ¬c → Refills rest b b') :
    Refills rest (if c then a else b) (if c then a' else b') := by
  by_cases hc : c
  · rw [if_pos hc, if_pos hc]
    exact htrue hc
  · rw [if_neg hc, if_neg hc]
    exact hfalse hc

theorem Refills.bind {first second : Option CMPTransaction} {f : CMPTransaction → Option CMPTransaction}
    (h : Refills rest first second)
    (hf : ∀ tx, first = Option.some tx → Refills rest (f tx) (f (tx.refill rest))) :
    Refills rest (first >>= f) (second >>= f) := by
  intro parsed hparse
  obtain ⟨tx, hfirst, hparse⟩ := Option.bind_eq_some_iff.mp hparse
  rw [h tx hfirst]
  exact hf tx hfirst parsed hparse

theorem Refills.sized {c : Prop} [Decidable c] {second : CMPTransaction}
    (h : ¬c → second = tx.refill rest) :
    Refills rest (if c then Option.none else Option.some tx)
      (if c then Option.none else Option.some second) :=
  Refills.ite (fun _ => Refills.none) fun hc => Refills.some (h hc)

theorem readProperty_refill (hfresh : tx.pktRest = []) (h : 8 ≤ tx.pktSize) :
    (tx.refill rest).readProperty = tx.readProperty.refill rest := by
  rw [readProperty, readUInt_refill hfresh h]
  rfl

theorem readPropertyValue_refill (hfresh : tx.pktRest = []) (h : 16 ≤ tx.pktSize) :
    (tx.refill rest).readPropertyValue = tx.readPropertyValue.refill rest := by
  rw [readPropertyValue, readUInt_refill hfresh (by omega), readUInt_refill hfresh (by omega)]
  rfl

section Layouts

variable (hfresh : tx.pktRest = [])

include hfresh

theorem interpretTransactionType_refill :
    Refills rest tx.interpretTransactionType (tx.refill rest).interpretTransactionType := by
  apply Refills.sized
  intro hsize
  have hlong := Nat.not_lt.mp hsize
  rw [readUInt_refill hfresh (by omega), readUInt_refill hfresh (by omega)]
  rfl

theorem interpretSimpleSend_refill :
    Refills rest tx.interpretSimpleSend (tx.refill rest).interpretSimpleSend := by
  apply Refills.sized
  intro hsize
  rw [readPropertyValue_refill hfresh (Nat.not_lt.mp hsize)]
  rfl

theorem interpretSendToOwners_refill :
    Refills rest tx.interpretSendToOwners (tx.refill rest).interpretSendToOwners := by
  apply Refills.sized
  intro hsize
  have hlong : 16 ≤ tx.pktSize ∧ (tx.version > MP_TX_PKT_V0 → 20 ≤ tx.pktSize) := by
    change ¬tx.pktSize < (if tx.version = MP_TX_PKT_V0 then 16 else 20) at hsize
    split at hsize <;> omega
  rw [readPropertyValue_refill hfresh hlong.1, versioned_refill hfresh hlong.2]
  rfl

theorem interpretSendAll_refill :
    Refills rest tx.interpretSendAll (tx.refill rest).interpretSendAll := by
  apply Refills.sized
  intro hsize
  rw [readUInt_refill hfresh (Nat.not_lt.mp hsize)]
  rfl

theorem interpretTradeOffer_refill :
    Refills rest tx.interpretTradeOffer (tx.refill rest).interpretTradeOffer := by
  apply Refills.sized
  intro hsize
  have hlong : 33 ≤ tx.pktSize ∧ (tx.version > MP_TX_PKT_V0 → 34 ≤ tx.pktSize) := by
    change ¬tx.pktSize < (if tx.version = MP_TX_PKT_V0 then 33 else 34) at hsize
    split at hsize <;> omega
  rw [readPropertyValue_refill hfresh (by omega), readUInt_refill hfresh (by omega),
    readUInt_refill hfresh (by omega), readUInt_refill hfresh hlong.1,
    versioned_refill hfresh hlong.2]
  rfl

theorem interpretAcceptOfferBTC_refill :
    Refills rest tx.interpretAcceptOfferBTC (tx.refill rest).interpretAcceptOfferBTC := by
  apply Refills.sized
  intro hsize
  exact readPropertyValue_refill hfresh (Nat.not_lt.mp hsize)

theorem interpretOrder_refill (action : Nat) :
    Refills rest (tx.interpretOrder action) ((tx.refill rest).interpretOrder action) := by
  apply Refills.sized
  intro hsize
  have hlong := Nat.not_lt.mp hsize
  rw [readPropertyValue_refill hfresh (by omega), readUInt_refill hfresh (by omega),
    readUInt_refill hfresh hlong]
  rfl

theorem interpretMetaDExCancelPair_refill :
    Refills rest tx.interpretMetaDExCancelPair (tx.refill rest).interpretMetaDExCancelPair := by
  apply Refills.sized
  intro hsize
  have hlong := Nat.not_lt.mp hsize
  rw [readProperty_refill hfresh (by omega), readUInt_refill hfresh hlong]
  rfl

theorem interpretMetaDExCancelEcosystem_refill : Refills rest tx.interpretMetaDExCancelEcosystem
    (tx.refill rest).interpretMetaDExCancelEcosystem := by
  apply Refills.sized
  intro hsize
  rw [readUInt_refill hfresh (Nat.not_lt.mp hsize)]
  rfl

theorem interpretProperty_refill :
    Refills rest tx.interpretProperty (tx.refill rest).interpretProperty := by
  apply Refills.sized
  intro hsize
  exact readProperty_refill hfresh (Nat.not_lt.mp hsize)

theorem interpretDeactivation_refill :
    Refills rest tx.interpretDeactivation (tx.refill rest).interpretDeactivation := by
  apply Refills.sized
  intro hsize
  rw [readUInt_refill hfresh (Nat.not_lt.mp hsize)]
  rfl

theorem interpretActivation_refill :
    Refills rest tx.interpretActivation (tx.refill rest).interpretActivation := by
  apply Refills.sized
  intro hsize
  have hlong := Nat.not_lt.mp hsize
  rw [readUInt_refill hfresh (by omega), readUInt_refill hfresh (by omega),
    readUInt_refill hfresh hlong]
  rfl

theorem readNewProperty_refill (h : tx.readNewProperty.2 ≤ tx.pktSize) :
    (tx.refill rest).readNewProperty = (tx.readNewProperty.1.refill rest, tx.readNewProperty.2) := by
  unfold readNewProperty at h ⊢
  simp only at h ⊢
  -- each string ends before the next one starts, and the last one before the payload does
  rw [readCString_refill hfresh (by omega), readCString_refill hfresh (by omega),
    readCString_refill hfresh (by omega), readCString_refill hfresh (by omega),
    readCString_refill hfresh (by omega), readUInt_refill hfresh (by omega),
    readUInt_refill hfresh (by omega), readUInt_refill hfresh (by omega)]
  rfl

theorem interpretCreatePropertyFixed_refill :
    Refills rest tx.interpretCreatePropertyFixed (tx.refill rest).interpretCreatePropertyFixed := by
  apply Refills.ite (fun _ => Refills.none)
  intro _ parsed hparse
  obtain ⟨hinside, hparse⟩ := Option.ite_none_left_eq_some.mp hparse
  have hend : tx.readNewProperty.2 + 8 ≤ tx.pktSize := by simpa [isOverrun] using hinside
  rw [readNewProperty_refill hfresh (by omega)]
  dsimp only
  rw [if_neg (show ¬(tx.refill rest).isOverrun _ = true from hinside), readUInt_refill hfresh hend,
    ← Option.some.inj hparse]
  rfl

theorem interpretCreatePropertyVariable_refill : Refills rest tx.interpretCreatePropertyVariable
    (tx.refill rest).interpretCreatePropertyVariable := by
  apply Refills.ite (fun _ => Refills.none)
  intro _ parsed hparse
  obtain ⟨hinside, hparse⟩ := Option.ite_none_left_eq_some.mp hparse
  have hend : tx.readNewProperty.2 + 22 ≤ tx.pktSize := by simpa [isOverrun] using hinside
  rw [readNewProperty_refill hfresh (by omega)]
  dsimp only
  rw [if_neg (show ¬(tx.refill rest).isOverrun _ = true from hinside), readUInt_refill hfresh (by omega),
    readUInt_refill hfresh (by omega), readUInt_refill hfresh (by omega),
    readUInt_refill hfresh (by omega), readUInt_refill hfresh (by omega), ← Option.some.inj hparse]
  rfl

theorem interpretCreatePropertyManaged_refill : Refills rest tx.interpretCreatePropertyManaged
    (tx.refill rest).interpretCreatePropertyManaged := by
  apply Refills.ite (fun _ => Refills.none)
  intro _ parsed hparse
  obtain ⟨hinside, hparse⟩ := Option.ite_none_left_eq_some.mp hparse
  have hend : tx.readNewProperty.2 ≤ tx.pktSize := by simpa [isOverrun] using hinside
  rw [readNewProperty_refill hfresh hend]
  dsimp only
  rw [if_neg (show ¬(tx.refill rest).isOverrun _ = true from hinside), ← Option.some.inj hparse]

theorem interpretFrozenAddress_refill (h : 51 ≤ tx.pktSize) :
    Refills rest tx.interpretFrozenAddress (tx.refill rest).interpretFrozenAddress := by
  apply Refills.sized
  intro _
  have hbytes : bytesString ((tx.refill rest).readBytes 16 35) = bytesString (tx.readBytes 16 35) := by
    rw [readBytes_refill hfresh h]
  simp only [readBytes, bytesString, List.map_map] at hbytes
  rw [readPropertyValue_refill hfresh (by omega)]
  change { tx.readPropertyValue.refill rest with
    receiver := (List.range 35).map ((fun byte : UInt8 => Char.ofNat byte.toNat) ∘
      fun i => (tx.refill rest).buffer.getD (16 + i) 0) } = _
  rw [hbytes]
  rfl

theorem stringField_refill (h : 0 ∈ tx.pkt.drop pos ∨ pos + 255 ≤ tx.pktSize) :
    stringField ((tx.refill rest).readCString pos) = stringField (tx.readCString pos) := by
  rcases h with hzero | hlong
  · have hin := length_stringAt_lt hzero
    rw [readCString_eq_stringAt, readCString_eq_stringAt, buffer_refill, buffer_of_fresh hfresh,
      stringAt_append rest hin]
  · unfold stringField
    rw [readCString_eq_stringAt, readCString_eq_stringAt, buffer_refill, buffer_of_fresh hfresh,
      bytesString, bytesString, ← List.map_take, ← List.map_take, take_stringAt_append rest hlong]

theorem interpretAlert_refill (h : 0 ∈ tx.pkt.drop 10 ∨ 265 ≤ tx.pktSize) :
    Refills rest tx.interpretAlert (tx.refill rest).interpretAlert := by
  apply Refills.sized
  intro hsize
  have hlong := Nat.not_lt.mp hsize
  rw [readUInt_refill hfresh (by omega), readUInt_refill hfresh (by omega),
    stringField_refill hfresh h]
  rfl

theorem agreementBody_refill {body : List UInt8 × List UInt8} (h : tx.agreementBody = some body) :
    (tx.refill rest).readCString 8 = tx.readCString 8 ∧
      (tx.refill rest).agreementBody = some body := by
  obtain ⟨hinside, hbody⟩ := Option.ite_none_left_eq_some.mp h
  have hstring : (tx.refill rest).readCString 8 = tx.readCString 8 :=
    readCString_refill hfresh (by omega)
  have hlength : (tx.refill rest).readUInt 4 4 = tx.readUInt 4 4 :=
    readUInt_refill hfresh (by omega)
  refine ⟨hstring, ?_⟩
  unfold agreementBody
  rw [hstring, hlength]
  dsimp only
  rw [readBytes_refill hfresh (by omega), readBytes_refill hfresh]
  · exact h
  · change _ + (tx.pktSize - _) ≤ _
    omega

end Layouts

/-! ### All layouts -/

/-- What the layouts that read more than they check need: the address of a freeze or unfreeze, and the
text of an alert, are inside the payload. -/
structure EndsInside (tx : CMPTransaction) (type : Nat) : Prop where
  address : type = MSC_TYPE_FREEZE_PROPERTY_TOKENS ∨ type = MSC_TYPE_UNFREEZE_PROPERTY_TOKENS →
    51 ≤ tx.pktSize
  text : type = OMNICORE_MESSAGE_TYPE_ALERT → 0 ∈ tx.pkt.drop 10 ∨ 265 ≤ tx.pktSize

/-- **A payload that ends inside is read in the same way**, whatever is behind it. -/
theorem interpretTransaction_refill (hfresh : tx.pktRest = [])
    (hinside : EndsInside tx (tx.readUInt 2 2))
    (hbody : tx.readUInt 2 2 = MSC_TYPE_SEND_AGREEMENT → ∃ body, tx.agreementBody = some body) :
    Refills rest tx.interpretTransaction (tx.refill rest).interpretTransaction := by
  refine .bind (interpretTransactionType_refill hfresh) fun tx₁ htype => ?_
  obtain ⟨-, htx₁⟩ := Option.ite_none_left_eq_some.mp htype
  have hfresh₁ : tx₁.pktRest = [] := by
    rw [← Option.some.inj htx₁]
    exact hfresh
  have hinside₁ : EndsInside tx₁ tx₁.type := by
    rw [← Option.some.inj htx₁]
    exact ⟨hinside.address, hinside.text⟩
  have hbody₁ : tx₁.type = MSC_TYPE_SEND_AGREEMENT → ∃ body, tx₁.agreementBody = some body := by
    rw [← Option.some.inj htx₁]
    exact hbody
  refine .ite (fun _ => interpretSimpleSend_refill hfresh₁) fun _ => ?_
  refine .ite (fun _ => interpretSendToOwners_refill hfresh₁) fun _ => ?_
  refine .ite (fun _ => interpretSendAll_refill hfresh₁) fun _ => ?_
  refine .ite (fun _ => interpretTradeOffer_refill hfresh₁) fun _ => ?_
  refine .ite (fun _ => interpretAcceptOfferBTC_refill hfresh₁) fun _ => ?_
  refine .ite (fun _ => interpretOrder_refill hfresh₁ 1) fun _ => ?_
  refine .ite (fun _ => interpretOrder_refill hfresh₁ 2) fun _ => ?_
  refine .ite (fun _ => interpretMetaDExCancelPair_refill hfresh₁) fun _ => ?_
  refine .ite (fun _ => interpretMetaDExCancelEcosystem_refill hfresh₁) fun _ => ?_
  refine .ite (fun _ => interpretCreatePropertyFixed_refill hfresh₁) fun _ => ?_
  refine .ite (fun _ => interpretCreatePropertyVariable_refill hfresh₁) fun _ => ?_
  refine .ite (fun _ => interpretProperty_refill hfresh₁) fun _ => ?_
  refine .ite (fun _ => interpretCreatePropertyManaged_refill hfresh₁) fun _ => ?_
  refine .ite (fun _ => interpretSimpleSend_refill hfresh₁) fun _ => ?_
  refine .ite (fun _ => interpretAcceptOfferBTC_refill hfresh₁) fun _ => ?_
  refine .ite (fun _ => interpretProperty_refill hfresh₁) fun _ => ?_
  refine .ite (fun _ => interpretProperty_refill hfresh₁) fun _ => ?_
  refine .ite (fun _ => interpretProperty_refill hfresh₁) fun _ => ?_
  refine .ite (fun h => interpretFrozenAddress_refill hfresh₁ (hinside₁.address (.inl h)))
    fun _ => ?_
  refine .ite (fun h => interpretFrozenAddress_refill hfresh₁ (hinside₁.address (.inr h)))
    fun _ => ?_
  refine .ite (fun _ => interpretDeactivation_refill hfresh₁) fun _ => ?_
  refine .ite (fun _ => interpretActivation_refill hfresh₁) fun _ => ?_
  refine .ite (fun h => interpretAlert_refill hfresh₁ (hinside₁.text h)) fun _ => ?_
  refine .ite (fun h => ?_) fun _ => .none
  obtain ⟨body, hbody⟩ := hbody₁ h
  refine .some ?_
  rw [(agreementBody_refill hfresh₁ hbody).1]
  rfl

/-- What the payload yields does not depend on the bytes behind it. -/
def Contained (tx : CMPTransaction) : Prop :=
  ∀ rest : List UInt8, tx.pktSize + rest.length ≤ PKT_BUFFER_SIZE →
    (tx.refill rest).decoded = tx.decoded

theorem type_of_interpretTransaction (h : tx.interpretTransaction = some parsed) :
    parsed.type = tx.readUInt 2 2 := by
  obtain ⟨tx₁, htype, hhead⟩ := sameHead_of_interpretTransaction h
  obtain ⟨-, htx₁⟩ := Option.ite_none_left_eq_some.mp htype
  rw [hhead.type, ← Option.some.inj htx₁]

theorem receiver_of_frozen (h : tx.interpretTransaction = some parsed)
    (htype : tx.readUInt 2 2 = MSC_TYPE_FREEZE_PROPERTY_TOKENS ∨
      tx.readUInt 2 2 = MSC_TYPE_UNFREEZE_PROPERTY_TOKENS) :
    37 ≤ tx.pktSize ∧ parsed.receiver = bytesString (tx.readBytes 16 35) := by
  obtain ⟨tx₁, hhead, h⟩ := Option.bind_eq_some_iff.mp h
  obtain ⟨-, htx₁⟩ := Option.ite_none_left_eq_some.mp hhead
  cases htx₁
  have hlayout : interpretFrozenAddress { tx with
      version := tx.readUInt 0 2, type := tx.readUInt 2 2 } = some parsed := by
    rcases htype with htype | htype <;> rw [htype] at h ⊢ <;> exact h
  obtain ⟨hsize, hparsed⟩ := Option.ite_none_left_eq_some.mp hlayout
  refine ⟨Nat.not_lt.mp hsize, ?_⟩
  rw [← Option.some.inj hparsed, bytesString, readBytes, List.map_map]
  rfl

theorem text_of_alert (h : tx.interpretTransaction = some parsed)
    (htype : tx.readUInt 2 2 = OMNICORE_MESSAGE_TYPE_ALERT) :
    11 ≤ tx.pktSize ∧ parsed.alertText = stringField (tx.readCString 10) := by
  obtain ⟨tx₁, hhead, h⟩ := Option.bind_eq_some_iff.mp h
  obtain ⟨-, htx₁⟩ := Option.ite_none_left_eq_some.mp hhead
  cases htx₁
  have hlayout : interpretAlert { tx with
      version := tx.readUInt 0 2, type := tx.readUInt 2 2 } = some parsed := by
    rw [htype] at h ⊢
    exact h
  obtain ⟨hsize, hparsed⟩ := Option.ite_none_left_eq_some.mp hlayout
  refine ⟨Nat.not_lt.mp hsize, ?_⟩
  rw [← Option.some.inj hparsed]
  rfl

theorem parsed_of_decoded {result : CMPTransaction × Option (List UInt8 × List UInt8)}
    (h : tx.decoded = some result) : ∃ parsed, tx.interpretTransaction = some parsed ∧
      result.1 = parsed.refill [] ∧
      (parsed.type = MSC_TYPE_SEND_AGREEMENT → ∃ body, tx.agreementBody = some body) := by
  obtain ⟨parsed, hparse, h⟩ := Option.bind_eq_some_iff.mp h
  refine ⟨parsed, hparse, ?_⟩
  by_cases htype : parsed.type = MSC_TYPE_SEND_AGREEMENT
  · rw [if_pos htype] at h
    obtain ⟨body, hbody, h⟩ := Option.bind_eq_some_iff.mp h
    cases h
    exact ⟨rfl, fun _ => ⟨body, hbody⟩⟩
  · rw [if_neg htype] at h
    cases h
    exact ⟨rfl, fun htype' => absurd htype' htype⟩

/-- **A payload that ends inside is decoded in the same way.** -/
theorem decoded_refill (hfresh : tx.pktRest = []) (hparse : tx.interpretTransaction = some parsed)
    (hinside : EndsInside tx parsed.type)
    (hbody : parsed.type = MSC_TYPE_SEND_AGREEMENT → ∃ body, tx.agreementBody = some body) :
    (tx.refill rest).decoded = tx.decoded := by
  rw [type_of_interpretTransaction hparse] at hinside hbody
  have hparse' : (tx.refill rest).interpretTransaction = some (parsed.refill rest) :=
    interpretTransaction_refill hfresh hinside hbody parsed hparse
  have htype := type_of_interpretTransaction hparse
  unfold decoded
  rw [hparse, hparse']
  change (if parsed.type = MSC_TYPE_SEND_AGREEMENT then _ else _) = ite _ _ _
  by_cases hagreement : parsed.type = MSC_TYPE_SEND_AGREEMENT
  · obtain ⟨body, hbody⟩ := hbody (htype ▸ hagreement)
    rw [if_pos hagreement, if_pos hagreement, (agreementBody_refill hfresh hbody).2, hbody]
    rfl
  · rw [if_neg hagreement, if_neg hagreement]
    rfl

theorem readBytes_refill_ne (hfresh : tx.pktRest = []) (hpos : pos ≤ tx.pktSize)
    (h : tx.pktSize < pos + size) :
    bytesString ((tx.refill [1]).readBytes pos size) ≠ bytesString (tx.readBytes pos size) := by
  intro heq
  have hi : tx.pktSize - pos < size := by omega
  have hget := congrArg (·[tx.pktSize - pos]?) heq
  simp only [bytesString, readBytes, buffer_refill, buffer_of_fresh hfresh, List.getElem?_map,
    List.getElem?_range hi, Option.map_some, Nat.add_sub_cancel' hpos] at hget
  rw [pktSize, List.getD_append_right _ _ _ _ (Nat.le_refl _),
    List.getD_eq_default _ _ (Nat.le_refl _)] at hget
  simp at hget

theorem stringField_refill_ne (hfresh : tx.pktRest = []) (hpos : pos ≤ tx.pktSize)
    (hopen : 0 ∉ tx.pkt.drop pos) (h : tx.pktSize < pos + 255) :
    stringField ((tx.refill [1]).readCString pos) ≠ stringField (tx.readCString pos) := by
  intro heq
  have hopen' : 0 ∉ (tx.pkt ++ [1]).drop pos := by
    rw [List.drop_append_of_le_length hpos]
    simpa using hopen
  have hlen := congrArg List.length heq
  rw [readCString_eq_stringAt, readCString_eq_stringAt, buffer_refill, buffer_of_fresh hfresh,
    stringAt_of_notMem hopen, stringAt_of_notMem hopen'] at hlen
  simp only [stringField, bytesString, List.length_take, List.length_map, List.length_drop,
    List.length_append, List.length_singleton] at hlen
  change min 255 (tx.pktSize + 1 - pos) = min 255 (tx.pktSize - pos) at hlen
  omega

/-- **Which accepted payloads are self-contained.**  What a fresh transaction reads does not depend on
the bytes behind the payload, exactly if the address of a freeze or unfreeze and the text of an alert
are inside. -/
theorem contained_iff {result : CMPTransaction × Option (List UInt8 × List UInt8)}
    (hfits : tx.payload.length ≤ PKT_BUFFER_SIZE - 64) (hfresh : tx.pktRest = [])
    (haccepted : tx.decoded = some result) : Contained tx ↔ EndsInside tx result.1.type := by
  obtain ⟨parsed, hparse, hresult, hbody⟩ := parsed_of_decoded haccepted
  have htype := type_of_interpretTransaction hparse
  have hsize : tx.pktSize + 1 ≤ PKT_BUFFER_SIZE := by
    have : tx.pktSize ≤ tx.payload.length := List.length_take_le' _ _
    simp only [PKT_BUFFER_SIZE] at hfits ⊢
    omega
  rw [hresult]
  change _ ↔ EndsInside tx parsed.type
  constructor
  · intro hcontained
    -- one byte that is not zero, right behind the payload
    have hsame := hcontained [1] hsize
    rw [haccepted] at hsame
    obtain ⟨parsed', hparse', hresult', -⟩ := parsed_of_decoded hsame
    have heq : parsed'.refill [] = parsed.refill [] := hresult'.symm.trans hresult
    have hfields : parsed'.type = parsed.type ∧ parsed'.receiver = parsed.receiver ∧
        parsed'.alertText = parsed.alertText := by
      simp only [refill, mk.injEq] at heq
      simp [heq]
    have htype' : (tx.refill [1]).readUInt 2 2 = parsed.type :=
      (type_of_interpretTransaction hparse').symm.trans hfields.1
    constructor
    · intro hfrozen
      by_contra hshort
      obtain ⟨hlong, hreceiver⟩ := receiver_of_frozen hparse (htype ▸ hfrozen)
      obtain ⟨-, hreceiver'⟩ := receiver_of_frozen hparse' (htype'.symm ▸ hfrozen)
      have hne : bytesString ((tx.refill [1]).readBytes 16 35) ≠ bytesString (tx.readBytes 16 35) :=
        readBytes_refill_ne hfresh (by omega) (by omega)
      rw [← hreceiver, ← hreceiver'] at hne
      exact hne hfields.2.1
    · intro halert
      by_contra hshort
      obtain ⟨hopen, hshort⟩ := not_or.mp hshort
      obtain ⟨hlong, htext⟩ := text_of_alert hparse (htype ▸ halert)
      obtain ⟨-, htext'⟩ := text_of_alert hparse' (htype'.symm ▸ halert)
      refine stringField_refill_ne hfresh (by omega) hopen (by omega) ?_
      rw [← htext, ← htext', hfields.2.2]
  · intro hinside rest _
    exact decoded_refill hfresh hparse hinside hbody

/-- A transaction that has read nothing yet. -/
def freshTx (payload : List UInt8) : CMPTransaction where
  txid := 1
  block := 50000
  blockTime := 1500000000
  txIdx := 0
  txFeePaid := 0
  blockHash := 50000
  payload := payload
  sender := "sender".toList
  receiver := []

/-- The text of an alert that was encoded ends with a zero. -/
theorem contained_iff_alert :
    Contained (freshTx (createPayloadOmniCoreAlert 1 50000 "upgrade".toList)) := by
  have haccepted : ((freshTx (createPayloadOmniCoreAlert 1 50000 "upgrade".toList)).decoded.map
      fun result => result.1.type) = some OMNICORE_MESSAGE_TYPE_ALERT := by decide +kernel
  obtain ⟨result, hresult, htype⟩ := Option.map_eq_some_iff.mp haccepted
  refine (contained_iff (by decide) rfl hresult).mpr ?_
  rw [htype]
  exact ⟨by decide, fun _ => .inl (by decide)⟩

/-- **A payload that is read past its end.**  A freeze that names 34 characters is accepted, and the
byte behind its payload is a part of the address it freezes. -/
theorem exists_read_past_end : ∃ payload rest, payload.length = 50 ∧
    (((freshTx payload).decoded).map fun result => result.1.receiver) =
      some ("HolderAddressWithThirtyFourLetters".toList ++ [Char.ofNat 0]) ∧
    ((((freshTx payload).refill rest).decoded).map fun result => result.1.receiver) =
      some ("HolderAddressWithThirtyFourLetters".toList ++ ['1']) :=
  ⟨createPayloadFreezeTokens 3 0 "HolderAddressWithThirtyFourLetters".toList, [49],
    by decide, by decide +kernel, by decide +kernel⟩

end HcOmni.CMPTransaction
