import HcOmni.Core.CreatePayload
import HcOmni.Lib.Bytes

/-!
# Payloads as rows of fields

A payload is a row of numbers and strings.  What a transaction reads at a position is what the field
there was made from, whatever the packet buffer holds behind the payload.
-/

namespace HcOmni

open Bytes CMPTransaction

variable {tx : CMPTransaction} {fields rest : List (List UInt8)} {i pos size value : Nat} {text : Str}

/-! ### Strings -/

/-- The text of a `std::string` without zero bytes. -/
def Plain (text : Str) : Prop := ∀ ch ∈ text, 0 < ch.toNat ∧ ch.toNat < 256

instance (text : Str) : Decidable (Plain text) := List.decidableBAll _ text

theorem Plain.take (h : Plain text) (n : Nat) : Plain (text.take n) := fun ch hch =>
  h ch (List.mem_of_mem_take hch)

@[simp] theorem length_stringBytes (text : Str) : (stringBytes text).length = text.length := by
  simp [stringBytes]

/-- The characters of bytes. -/
def bytesString (bytes : List UInt8) : Str := bytes.map fun byte => Char.ofNat byte.toNat

theorem bytesString_stringBytes (h : ∀ ch ∈ text, ch.toNat < 256) :
    bytesString (stringBytes text) = text := by
  unfold bytesString stringBytes
  rw [List.map_map]
  refine (List.map_congr_left fun ch hch => ?_).trans (List.map_id text)
  have hbyte : (UInt8.ofNat ch.toNat).toNat = ch.toNat := by
    rw [UInt8.toNat_ofNat']
    exact Nat.mod_eq_of_lt (h ch hch)
  simp [hbyte]

theorem Plain.bytes_ne_zero (h : Plain text) : ∀ byte ∈ stringBytes text, byte ≠ 0 := by
  intro byte hbyte hzero
  obtain ⟨ch, hch, rfl⟩ := List.mem_map.mp hbyte
  obtain ⟨hpos, hlt⟩ := h ch hch
  have hnat := congrArg UInt8.toNat hzero
  rw [UInt8.toNat_ofNat', Nat.mod_eq_of_lt hlt] at hnat
  exact absurd hnat (Nat.ne_of_gt hpos)

/-! ### Reading -/

theorem readUInt_eq_numberAt : tx.readUInt pos size = numberAt tx.buffer pos size := rfl

theorem readCString_eq_stringAt : tx.readCString pos = bytesString (stringAt tx.buffer pos) := rfl

@[simp] theorem length_pushBackBytes : (pushBackBytes size value).length = size :=
  length_toBytes size value

@[simp] theorem length_pushBackString :
    (pushBackString text).length = (text.take 255).length + 1 := by
  simp [pushBackString]

theorem pushBackBytes_one (byte : UInt8) : pushBackBytes 1 byte.toNat = [byte] := toBytes_one byte

/-- The payload is the given row of fields, and the packet buffer holds all of it. -/
structure Carries (tx : CMPTransaction) (fields : List (List UInt8)) : Prop where
  payload : tx.payload = fields.flatten
  fits : fields.flatten.length ≤ PKT_BUFFER_SIZE

namespace Carries

variable (h : Carries tx fields)

include h

theorem pkt_eq : tx.pkt = fields.flatten := by
  rw [pkt, h.payload, List.take_of_length_le h.fits]

theorem buffer_eq : tx.buffer = (fields ++ [tx.pktRest]).flatten := by
  rw [buffer, h.pkt_eq]
  simp

theorem pktSize_eq : tx.pktSize = (fields.map List.length).sum := by
  rw [pktSize, h.pkt_eq, List.length_flatten]

theorem not_size_lt (hsize : size ≤ (fields.map List.length).sum) : ¬tx.pktSize < size := by
  rw [h.pktSize_eq]
  omega

omit h in
theorem drop_concat {field more : List UInt8} (hfield : fields.drop i = field :: rest) :
    (fields ++ [more]).drop i = field :: (rest ++ [more]) := by
  have hlt : i < fields.length := by
    by_contra hge
    rw [List.drop_eq_nil_of_le (Nat.not_lt.mp hge)] at hfield
    cases hfield
  rw [List.drop_append_of_le_length (Nat.le_of_lt hlt), hfield, List.cons_append]

omit h in
theorem sum_concat {field more : List UInt8} (hfield : fields.drop i = field :: rest)
    (hpos : pos = ((fields.map List.length).take i).sum) :
    pos = (((fields ++ [more]).map List.length).take i).sum := by
  have hlt : i < fields.length := by
    by_contra hge
    rw [List.drop_eq_nil_of_le (Nat.not_lt.mp hge)] at hfield
    cases hfield
  rw [hpos, List.map_append, List.take_append_of_le_length (by simpa using Nat.le_of_lt hlt)]

/-- **A number is read back.** -/
theorem readUInt_eq (pos i : Nat) (hfield : fields.drop i = pushBackBytes size value :: rest)
    (hpos : pos = ((fields.map List.length).take i).sum) (hvalue : value < 256 ^ size) :
    tx.readUInt pos size = value := by
  rw [readUInt_eq_numberAt, h.buffer_eq]
  exact numberAt_flatten (drop_concat hfield) (sum_concat hfield hpos) hvalue

/-- **A string is read back.** -/
theorem readCString_eq (pos i : Nat) (hfield : fields.drop i = (stringBytes text ++ [0]) :: rest)
    (hpos : pos = ((fields.map List.length).take i).sum) (htext : Plain text) :
    tx.readCString pos = text := by
  rw [readCString_eq_stringAt, h.buffer_eq,
    stringAt_flatten (drop_concat hfield) (sum_concat hfield hpos) htext.bytes_ne_zero,
    bytesString_stringBytes fun ch hch => (htext ch hch).2]

end Carries

theorem Carries.interpretTransactionType_eq {version type : UInt16}
    (h : Carries tx (pushBackBytes 2 version.toNat :: pushBackBytes 2 type.toNat :: rest)) :
    tx.interpretTransactionType = some { tx with version := version.toNat, type := type.toNat } := by
  rw [interpretTransactionType, if_neg (h.not_size_lt (by simp; omega)), h.readUInt_eq 0 0 rfl rfl version.toNat_lt,
    h.readUInt_eq 2 1 rfl (by simp) type.toNat_lt]

end HcOmni
