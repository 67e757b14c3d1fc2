import HcOmni.Payload.Fields

/-!
# Payloads that create a property

The parsers of the three types read five strings without looking at the length of the payload, then a
tail of fixed length, and compare the position behind it with the length only afterwards.  That suffices
because the packet buffer is zero behind the payload: a string that does not end within the payload ends
with it, and the position behind its zero is already too far.
-/

namespace HcOmni.CMPTransaction

open Bytes

variable {tx parsed : CMPTransaction} {texts : List (List UInt8)} {tail : List UInt8}

/-! ### The layout -/

/-- From position 11 on there are five strings with a zero behind each, and then the tail. -/
structure HoldsStrings (payload : List UInt8) (texts : List (List UInt8)) (tail : List UInt8) : Prop where
  count : texts.length = 5
  noZero : ∀ text ∈ texts, 0 ∉ text
  inside : zeroEnded texts ++ tail <+: payload.drop 11

theorem HoldsStrings.length_le {payload : List UInt8} (h : HoldsStrings payload texts tail) :
    11 + (zeroEnded texts).length + tail.length ≤ payload.length := by
  obtain ⟨rest, hdrop⟩ := h.inside
  have hlength := congrArg List.length hdrop
  rw [List.length_append, List.length_append, List.length_drop] at hlength
  -- the first string has a zero behind it, so there is something behind position 11
  have hpos : 0 < (zeroEnded texts).length := by
    obtain ⟨text, texts, rfl⟩ := List.exists_cons_of_length_eq_add_one h.count
    simp [zeroEnded]
  omega

/-- The number in some bytes of a text, most significant first. -/
def numberIn (bytes : List UInt8) (pos size : Nat) : Nat := ofBytes ((bytes.drop pos).take size)

/-- The fields of the transaction that all three types set: numbers before the strings, and of each
string at most 255 bytes. -/
def withStrings (tx : CMPTransaction) (texts : List (List UInt8)) : CMPTransaction :=
  { tx with
    ecosystem := numberIn tx.payload 4 1
    propType := numberIn tx.payload 5 2
    prevPropId := numberIn tx.payload 7 4
    category := bytesString ((texts.getD 0 []).take 255)
    subcategory := bytesString ((texts.getD 1 []).take 255)
    name := bytesString ((texts.getD 2 []).take 255)
    url := bytesString ((texts.getD 3 []).take 255)
    data := bytesString ((texts.getD 4 []).take 255) }

/-- A payload that fits, in a buffer of zeros with room behind it. -/
structure InZeros (tx : CMPTransaction) : Prop where
  zeros : ∀ byte ∈ tx.pktRest, byte = 0
  fits : tx.payload.length ≤ PKT_BUFFER_SIZE - 64

namespace InZeros

variable (h : InZeros tx)
include h

theorem pkt_eq : tx.pkt = tx.payload := by
  have hfits := h.fits
  exact List.take_of_length_le (by omega)

theorem pktSize_eq : tx.pktSize = tx.payload.length := by rw [pktSize, h.pkt_eq]

theorem readUInt_eq {pos size : Nat} (hinside : pos + size ≤ tx.payload.length) :
    tx.readUInt pos size = numberIn tx.payload pos size := by
  rw [readUInt_eq_numberAt, buffer, h.pkt_eq, numberAt_append _ hinside, numberAt_eq_ofBytes,
    map_getD_eq_take hinside, numberIn]

theorem readNewProperty_eq : tx.readNewProperty =
    ({ tx with
        ecosystem := tx.readUInt 4 1
        propType := tx.readUInt 5 2
        prevPropId := tx.readUInt 7 4
        category := bytesString (((stringsAt tx.payload 5 11).1.getD 0 []).take 255)
        subcategory := bytesString (((stringsAt tx.payload 5 11).1.getD 1 []).take 255)
        name := bytesString (((stringsAt tx.payload 5 11).1.getD 2 []).take 255)
        url := bytesString (((stringsAt tx.payload 5 11).1.getD 3 []).take 255)
        data := bytesString (((stringsAt tx.payload 5 11).1.getD 4 []).take 255) },
      (stringsAt tx.payload 5 11).2) := by
  have hread : ∀ pos, tx.readCString pos = bytesString (stringAt tx.payload pos) := by
    intro pos
    rw [readCString_eq_stringAt, buffer, h.pkt_eq, stringAt_append_zeros h.zeros]
  have hfield : ∀ bytes : List UInt8, stringField (bytesString bytes) = bytesString (bytes.take 255) :=
    fun bytes => (List.map_take ..).symm
  have hlength : ∀ bytes : List UInt8, (bytesString bytes).length = bytes.length :=
    fun bytes => List.length_map _
  simp only [readNewProperty, hread, hfield, hlength, stringsAt, List.getD_cons_zero,
    List.getD_cons_succ]

theorem readNewProperty_of_holds (hholds : HoldsStrings tx.payload texts tail) :
    tx.readNewProperty = (tx.withStrings texts, 11 + (zeroEnded texts).length) := by
  obtain ⟨rest, hdrop⟩ := hholds.inside
  rw [List.append_assoc] at hdrop
  have hstrings := stringsAt_of_drop hholds.noZero hdrop.symm
  have hlong := hholds.length_le
  rw [hholds.count] at hstrings
  rw [h.readNewProperty_eq, hstrings, h.readUInt_eq (by omega), h.readUInt_eq (by omega),
    h.readUInt_eq (by omega), withStrings]

/-- **The end of the tail tells whether the layout is there.** -/
theorem readNewProperty_le_iff (size : Nat) (hlong : 11 ≤ tx.payload.length) :
    tx.readNewProperty.2 + size ≤ tx.payload.length ↔
      ∃ texts tail, HoldsStrings tx.payload texts tail ∧ tail.length = size := by
  constructor
  · intro hends
    rw [h.readNewProperty_eq] at hends
    obtain ⟨texts, rest, hcount, hnoZero, hdrop⟩ :=
      (stringsAt_le_iff hlong).mp (Nat.le_of_add_right_le hends)
    rw [← hcount, stringsAt_of_drop hnoZero hdrop] at hends
    have hlength := congrArg List.length hdrop
    rw [List.length_drop, List.length_append] at hlength
    refine ⟨texts, rest.take size, ⟨hcount, hnoZero, rest.drop size, ?_⟩, ?_⟩
    · rw [hdrop, List.append_assoc, List.take_append_drop]
    · rw [List.length_take]
      simp only at hends
      omega
  · rintro ⟨texts, tail, hholds, rfl⟩
    rw [h.readNewProperty_of_holds hholds]
    exact hholds.length_le

theorem readUInt_tail (hholds : HoldsStrings tx.payload texts tail) {pos size : Nat}
    (hinside : pos + size ≤ tail.length) :
    tx.readUInt (11 + (zeroEnded texts).length + pos) size = numberIn tail pos size := by
  obtain ⟨rest, hdrop⟩ := hholds.inside
  have hlong := hholds.length_le
  rw [h.readUInt_eq (by omega), numberIn, numberIn, Nat.add_assoc, ← List.drop_drop, ← hdrop,
    List.append_assoc, ← List.drop_drop, List.drop_left' rfl,
    List.drop_append_of_le_length (by omega),
    List.take_append_of_le_length (by rw [List.length_drop]; omega)]

/-! ### The parsers -/

/-- A parser that checks the length, reads the strings and a tail and then looks where it is: it
accepts exactly the payloads with the layout. -/
theorem parser_iff (least size : Nat) (read : CMPTransaction × Nat → CMPTransaction)
    (fields : CMPTransaction → List UInt8 → CMPTransaction) (hleast : 11 ≤ least)
    (hread : ∀ texts tail, HoldsStrings tx.payload texts tail → tail.length = size →
      read (tx.withStrings texts, 11 + (zeroEnded texts).length) = fields (tx.withStrings texts) tail)
    (parsed : CMPTransaction) :
    (if tx.pktSize < least then none
      else if tx.isOverrun (tx.readNewProperty.2 + size) then none
      else some (read tx.readNewProperty)) = some parsed ↔
      least ≤ tx.payload.length ∧ ∃ texts tail, HoldsStrings tx.payload texts tail ∧
        tail.length = size ∧ parsed = fields (tx.withStrings texts) tail := by
  rw [h.pktSize_eq]
  by_cases hshort : tx.payload.length < least
  · rw [if_pos hshort]
    constructor
    · intro hnone
      cases hnone
    · rintro ⟨hlong, -⟩
      exact absurd hlong (Nat.not_le.mpr hshort)
  · have hlong : 11 ≤ tx.payload.length := hleast.trans (Nat.not_lt.mp hshort)
    have hends := h.readNewProperty_le_iff size hlong
    have hoverrun : tx.isOverrun (tx.readNewProperty.2 + size) = true ↔
        ¬tx.readNewProperty.2 + size ≤ tx.payload.length := by
      rw [isOverrun, h.pktSize_eq, decide_eq_true_eq, Nat.not_le]
    rw [if_neg hshort]
    constructor
    · intro hparsed
      obtain ⟨hinside, hparsed⟩ := Option.ite_none_left_eq_some.mp hparsed
      obtain ⟨texts, tail, hholds, htail⟩ := hends.mp (not_not.mp (hoverrun.not.mp hinside))
      refine ⟨Nat.not_lt.mp hshort, texts, tail, hholds, htail, ?_⟩
      rw [← Option.some_inj.mp hparsed, h.readNewProperty_of_holds hholds, hread _ _ hholds htail]
    · rintro ⟨-, texts, tail, hholds, htail, rfl⟩
      have hinside := hends.mpr ⟨texts, tail, hholds, htail⟩
      rw [if_neg (hoverrun.not.mpr (not_not.mpr hinside)), h.readNewProperty_of_holds hholds,
        hread _ _ hholds htail]

end InZeros

/-- **What the parsers of new properties accept.**  In a buffer of zeros a payload is accepted exactly if
it has the least length of its type and, from position 11 on, five strings with a zero behind each and
the tail of the type.  The fields are the first 255 bytes of the strings and the numbers of the tail. -/
theorem interpretCreateProperty_iff (tx : CMPTransaction) (h : InZeros tx) :
    (∀ parsed, tx.interpretCreatePropertyFixed = some parsed ↔
      25 ≤ tx.payload.length ∧ ∃ texts tail, HoldsStrings tx.payload texts tail ∧ tail.length = 8 ∧
        parsed = { tx.withStrings texts with
          nValue := numberIn tail 0 8
          nNewValue := numberIn tail 0 8 }) ∧
    (∀ parsed, tx.interpretCreatePropertyVariable = some parsed ↔
      39 ≤ tx.payload.length ∧ ∃ texts tail, HoldsStrings tx.payload texts tail ∧ tail.length = 22 ∧
        parsed = { tx.withStrings texts with
          property := numberIn tail 0 4
          nValue := numberIn tail 4 8
          nNewValue := numberIn tail 4 8
          deadline := numberIn tail 12 8
          earlyBird := numberIn tail 20 1
          percentage := numberIn tail 21 1 }) ∧
    (∀ parsed, tx.interpretCreatePropertyManaged = some parsed ↔
      17 ≤ tx.payload.length ∧ ∃ texts tail, HoldsStrings tx.payload texts tail ∧ tail.length = 0 ∧
        parsed = tx.withStrings texts) := by
  refine ⟨?_, ?_, ?_⟩
  · refine h.parser_iff 25 8
      (fun head => { head.1 with nValue := tx.readUInt head.2 8, nNewValue := tx.readUInt head.2 8 })
      (fun head tail => { head with nValue := numberIn tail 0 8, nNewValue := numberIn tail 0 8 })
      (by decide) fun texts tail hholds htail => ?_
    have hvalue := h.readUInt_tail hholds (show 0 + 8 ≤ tail.length by omega)
    rw [Nat.add_zero] at hvalue
    simp only [hvalue]
  · refine h.parser_iff 39 22
      (fun head => { head.1 with
        property := tx.readUInt head.2 4
        nValue := tx.readUInt (head.2 + 4) 8
        nNewValue := tx.readUInt (head.2 + 4) 8
        deadline := tx.readUInt (head.2 + 12) 8
        earlyBird := tx.readUInt (head.2 + 20) 1
        percentage := tx.readUInt (head.2 + 21) 1 })
      (fun head tail => { head with
        property := numberIn tail 0 4
        nValue := numberIn tail 4 8
        nNewValue := numberIn tail 4 8
        deadline := numberIn tail 12 8
        earlyBird := numberIn tail 20 1
        percentage := numberIn tail 21 1 })
      (by decide) fun texts tail hholds htail => ?_
    have hproperty := h.readUInt_tail hholds (show 0 + 4 ≤ tail.length by omega)
    rw [Nat.add_zero] at hproperty
    simp only [hproperty, h.readUInt_tail hholds (show 4 + 8 ≤ tail.length by omega),
      h.readUInt_tail hholds (show 12 + 8 ≤ tail.length by omega),
      h.readUInt_tail hholds (show 20 + 1 ≤ tail.length by omega),
      h.readUInt_tail hholds (show 21 + 1 ≤ tail.length by omega)]
  · exact h.parser_iff 17 0 Prod.fst (fun head _ => head) (by decide) fun _ _ _ _ => rfl

/-- A payload of type 50: five strings of one byte and the number 7. -/
def fixedTx : CMPTransaction where
  txid := 1
  block := 50000
  blockTime := 1500000000
  txIdx := 0
  txFeePaid := 0
  blockHash := 50000
  payload := [0, 0, 0, 50, 1, 0, 2, 0, 0, 0, 0] ++ zeroEnded [[97], [98], [99], [100], [101]] ++
    [0, 0, 0, 0, 0, 0, 0, 7]
  sender := "issuer".toList
  receiver := []

theorem interpretCreateProperty_iff_fixed :
    InZeros fixedTx ∧ fixedTx.interpretCreatePropertyFixed =
      some { fixedTx.withStrings [[97], [98], [99], [100], [101]] with nValue := 7, nNewValue := 7 } := by
  have hzeros : InZeros fixedTx := ⟨fun _ hbyte => absurd hbyte List.not_mem_nil, by decide +kernel⟩
  refine ⟨hzeros, ((interpretCreateProperty_iff fixedTx hzeros).1 _).mpr ⟨by decide, _,
    [0, 0, 0, 0, 0, 0, 0, 7], ⟨rfl, by decide, ?_⟩, rfl, rfl⟩⟩
  exact ⟨[], by decide⟩

end HcOmni.CMPTransaction
