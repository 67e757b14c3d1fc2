import Mathlib

/-!
# Numbers and strings in a row of bytes

Numbers of a fixed number of bytes, the most significant first, and strings that end with a zero.  A
row of bytes is put together from its fields, and each of them is found again at the sum of the lengths
of those before it.
-/

namespace HcOmni.Bytes

/-! ### Numbers -/

/-- The number that the bytes stand for. -/
def ofBytes (bytes : List UInt8) : Nat := bytes.foldl (fun acc byte => 256 * acc + byte.toNat) 0

/-- The last `size` bytes of a number. -/
def toBytes (size value : Nat) : List UInt8 :=
  (List.range size).map fun i => UInt8.ofNat (value / 256 ^ (size - 1 - i))

@[simp] theorem length_toBytes (size value : Nat) : (toBytes size value).length = size := by
  simp [toBytes]

theorem ofBytes_concat (bytes : List UInt8) (byte : UInt8) :
    ofBytes (bytes ++ [byte]) = 256 * ofBytes bytes + byte.toNat := by
  simp [ofBytes]

theorem toBytes_succ (size value : Nat) :
    toBytes (size + 1) value = toBytes size (value / 256) ++ [UInt8.ofNat value] := by
  unfold toBytes
  rw [List.range_succ, List.map_append, List.map_singleton, Nat.add_sub_cancel, Nat.sub_self,
    Nat.pow_zero, Nat.div_one]
  congr 1
  refine List.map_congr_left fun i hi => ?_
  have hpow : 256 ^ (size - i) = 256 * 256 ^ (size - 1 - i) := by
    have hlt := List.mem_range.mp hi
    rw [← Nat.pow_succ']
    congr 1
    omega
  rw [hpow, Nat.div_div_eq_div_mul]

theorem ofBytes_toBytes_mod (size value : Nat) : ofBytes (toBytes size value) = value % 256 ^ size := by
  induction size generalizing value with
  | zero => simp [toBytes, ofBytes, Nat.mod_one]
  | succ size ih =>
    have hsplit : value % 256 ^ (size + 1) = value % 256 + 256 * (value / 256 % 256 ^ size) := by
      rw [Nat.pow_succ', Nat.mod_mul]
    rw [toBytes_succ, ofBytes_concat, ih, UInt8.toNat_ofNat', hsplit]
    omega

/-- **A number that fits is read back.** -/
theorem ofBytes_toBytes {size value : Nat} (h : value < 256 ^ size) :
    ofBytes (toBytes size value) = value := by
  rw [ofBytes_toBytes_mod, Nat.mod_eq_of_lt h]

theorem toBytes_one (byte : UInt8) : toBytes 1 byte.toNat = [byte] := by
  simp [toBytes]

/-! ### Reading at a position -/

/-- The number of `size` bytes at a position; there are zeros behind the last byte. -/
def numberAt (bytes : List UInt8) (pos size : Nat) : Nat :=
  (List.range size).foldl (fun acc i => 256 * acc + (bytes.getD (pos + i) 0).toNat) 0

/-- The string at a position, without the zero behind it. -/
def stringAt (bytes : List UInt8) (pos : Nat) : List UInt8 := (bytes.drop pos).takeWhile (· ≠ 0)

variable {bytes : List UInt8} {pos size : Nat}

theorem numberAt_eq_ofBytes : numberAt bytes pos size =
    ofBytes ((List.range size).map fun i => bytes.getD (pos + i) 0) := by
  simp [numberAt, ofBytes, List.foldl_map]

theorem map_getD_eq_take (h : pos + size ≤ bytes.length) :
    ((List.range size).map fun i => bytes.getD (pos + i) 0) = (bytes.drop pos).take size := by
  refine List.ext_getElem (by simp; omega) fun i hi hi' => ?_
  have hlt : i < size := by simpa using hi
  simp [List.getD_eq_getElem?_getD, List.getElem?_eq_getElem (show pos + i < bytes.length by omega)]

/-- **What comes later does not matter for what ends before.** -/
theorem numberAt_append (rest : List UInt8) (h : pos + size ≤ bytes.length) :
    numberAt (bytes ++ rest) pos size = numberAt bytes pos size := by
  rw [numberAt_eq_ofBytes, numberAt_eq_ofBytes]
  congr 1
  refine List.map_congr_left fun i hi => ?_
  have hlt := List.mem_range.mp hi
  rw [List.getD_append _ _ _ _ (by omega)]

theorem stringAt_append (rest : List UInt8) (h : pos + (stringAt bytes pos).length < bytes.length) :
    stringAt (bytes ++ rest) pos = stringAt bytes pos := by
  unfold stringAt at h ⊢
  rw [List.drop_append_of_le_length (by omega), List.takeWhile_append, if_neg]
  intro hall
  rw [hall, List.length_drop] at h
  omega

theorem take_stringAt_append (rest : List UInt8) (h : pos + size ≤ bytes.length) :
    (stringAt (bytes ++ rest) pos).take size = (stringAt bytes pos).take size := by
  unfold stringAt
  rw [List.drop_append_of_le_length (by omega), List.takeWhile_append]
  by_cases hall : ((bytes.drop pos).takeWhile (· ≠ 0)).length = (bytes.drop pos).length
  · rw [if_pos hall, List.take_append_of_le_length (by rw [List.length_drop]; omega),
      (List.takeWhile_sublist _).eq_of_length hall]
  · rw [if_neg hall]

theorem stringAt_of_notMem (h : 0 ∉ bytes.drop pos) : stringAt bytes pos = bytes.drop pos := by
  rw [stringAt, List.takeWhile_eq_self_iff]
  intro byte hbyte
  have hne : byte ≠ 0 := fun hzero => h (hzero ▸ hbyte)
  simpa using hne

theorem length_stringAt_lt (h : 0 ∈ bytes.drop pos) :
    pos + (stringAt bytes pos).length < bytes.length := by
  have hsub : (stringAt bytes pos).Sublist (bytes.drop pos) := List.takeWhile_sublist _
  have hne : (stringAt bytes pos).length ≠ (bytes.drop pos).length := by
    intro heq
    have hmem : (0 : UInt8) ∈ stringAt bytes pos := by
      rw [hsub.eq_of_length heq]
      exact h
    simpa using List.mem_takeWhile_imp hmem
  have hle := hsub.length_le
  have hpos := List.length_pos_of_mem h
  rw [List.length_drop] at hle hne hpos
  omega

/-! ### Strings in a row -/

/-- The strings from a position on, each with a zero behind it, and the position behind the last zero. -/
def stringsAt (bytes : List UInt8) : (count pos : Nat) → List (List UInt8) × Nat
  | 0, pos => ([], pos)
  | count + 1, pos =>
      let text := stringAt bytes pos
      let rest := stringsAt bytes count (pos + text.length + 1)
      (text :: rest.1, rest.2)

/-- Strings, each with a zero behind it. -/
def zeroEnded (texts : List (List UInt8)) : List UInt8 := texts.flatMap (· ++ [0])

theorem stringAt_append_zeros {zeros : List UInt8} (hzeros : ∀ byte ∈ zeros, byte = 0) :
    stringAt (bytes ++ zeros) pos = stringAt bytes pos := by
  have hstop : ∀ k, (zeros.drop k).takeWhile (· ≠ 0) = [] := by
    intro k
    rw [List.takeWhile_eq_nil_iff]
    intro hlen hne
    exact absurd (hzeros _ (List.mem_of_mem_drop (List.getElem_mem hlen))) (by simpa using hne)
  unfold stringAt
  rw [List.drop_append, List.takeWhile_append]
  split_ifs with hall
  · rw [hstop, List.append_nil, (List.takeWhile_sublist _).eq_of_length hall]
  · rfl

theorem stringAt_of_drop {text rest : List UInt8} (hdrop : bytes.drop pos = text ++ 0 :: rest)
    (htext : 0 ∉ text) : stringAt bytes pos = text := by
  have hne : ∀ byte ∈ text, decide (byte ≠ 0) = true := by
    intro byte hbyte
    simpa using fun hzero : byte = 0 => htext (hzero ▸ hbyte)
  rw [stringAt, hdrop, List.takeWhile_append_of_pos hne]
  simp

theorem drop_behind {text rest : List UInt8} (hdrop : bytes.drop pos = text ++ 0 :: rest) :
    bytes.drop (pos + text.length + 1) = rest := by
  rw [Nat.add_assoc, ← List.drop_drop, hdrop, ← List.drop_drop, List.drop_left' rfl]
  rfl

theorem stringAt_ends_iff : pos + (stringAt bytes pos).length + 1 ≤ bytes.length ↔
    ∃ text rest, 0 ∉ text ∧ bytes.drop pos = text ++ 0 :: rest := by
  constructor
  · intro hends
    by_cases hzero : (0 : UInt8) ∈ bytes.drop pos
    · obtain ⟨text, rest, hdrop, htext⟩ := List.eq_append_cons_of_mem hzero
      exact ⟨text, rest, htext, hdrop⟩
    · rw [stringAt_of_notMem hzero, List.length_drop] at hends
      omega
  · rintro ⟨text, rest, htext, hdrop⟩
    rw [stringAt_of_drop hdrop htext]
    have hlength := congrArg List.length hdrop
    rw [List.length_drop, List.length_append, List.length_cons] at hlength
    omega

theorem le_stringsAt (bytes : List UInt8) (count pos : Nat) : pos ≤ (stringsAt bytes count pos).2 := by
  induction count generalizing pos with
  | zero => exact Nat.le_refl pos
  | succ count ih =>
    have hrest := ih (pos + (stringAt bytes pos).length + 1)
    simp only [stringsAt]
    omega

theorem stringsAt_of_drop {texts : List (List UInt8)} {rest : List UInt8}
    (htexts : ∀ text ∈ texts, 0 ∉ text) (hdrop : bytes.drop pos = zeroEnded texts ++ rest) :
    stringsAt bytes texts.length pos = (texts, pos + (zeroEnded texts).length) := by
  induction texts generalizing pos with
  | nil => rfl
  | cons text texts ih =>
    obtain ⟨htext, hmore⟩ := List.forall_mem_cons.mp htexts
    have hfirst : bytes.drop pos = text ++ 0 :: (zeroEnded texts ++ rest) := by
      rw [hdrop, zeroEnded, List.flatMap_cons, List.append_assoc, List.append_assoc]
      rfl
    rw [List.length_cons, stringsAt]
    simp only [stringAt_of_drop hfirst htext, ih hmore (drop_behind hfirst)]
    have hlength : (zeroEnded (text :: texts)).length = text.length + 1 + (zeroEnded texts).length := by
      rw [zeroEnded, List.flatMap_cons, List.length_append, List.length_append]
      rfl
    rw [hlength]
    simp only [Nat.add_assoc]

/-- **Reading past the end is noticed.**  The position behind the last string is within the bytes exactly
if that many strings with a zero behind them are: a string without one ends with the bytes, and the
position behind it is already outside. -/
theorem stringsAt_le_iff {count : Nat} (hpos : pos ≤ bytes.length) :
    (stringsAt bytes count pos).2 ≤ bytes.length ↔ ∃ texts rest, texts.length = count ∧
      (∀ text ∈ texts, 0 ∉ text) ∧ bytes.drop pos = zeroEnded texts ++ rest := by
  constructor
  · intro hends
    induction count generalizing pos with
    | zero => exact ⟨[], bytes.drop pos, rfl, by simp, rfl⟩
    | succ count ih =>
      simp only [stringsAt] at hends
      have hnext := (le_stringsAt bytes count _).trans hends
      obtain ⟨text, rest, htext, hdrop⟩ := stringAt_ends_iff.mp hnext
      obtain ⟨texts, rest', hcount, htexts, hdrop'⟩ := ih hnext hends
      rw [stringAt_of_drop hdrop htext, drop_behind hdrop] at hdrop'
      refine ⟨text :: texts, rest', by rw [List.length_cons, hcount],
        List.forall_mem_cons.mpr ⟨htext, htexts⟩, ?_⟩
      rw [hdrop, hdrop', zeroEnded, zeroEnded, List.flatMap_cons, List.append_assoc,
        List.append_assoc]
      rfl
  · rintro ⟨texts, rest, rfl, htexts, hdrop⟩
    rw [stringsAt_of_drop htexts hdrop]
    have hlength := congrArg List.length hdrop
    rw [List.length_drop, List.length_append] at hlength
    omega

/-! ### Fields -/

variable {fields rest : List (List UInt8)} {i : Nat}

theorem drop_flatten_eq {field : List UInt8} (hfield : fields.drop i = field :: rest)
    (hpos : pos = ((fields.map List.length).take i).sum) :
    fields.flatten.drop pos = field ++ rest.flatten := by
  rw [hpos, List.drop_sum_flatten, hfield, List.flatten_cons]

theorem add_length_le_flatten {field : List UInt8} (hfield : fields.drop i = field :: rest)
    (hpos : pos = ((fields.map List.length).take i).sum) :
    pos + field.length ≤ fields.flatten.length := by
  have hlen := congrArg List.length (drop_flatten_eq hfield hpos)
  have hle : pos ≤ fields.flatten.length := by
    rw [hpos, List.length_flatten]
    exact (List.take_sublist _ _).sum_le_sum fun _ _ => Nat.zero_le _
  rw [List.length_drop, List.length_append] at hlen
  omega

theorem map_getD_flatten {field : List UInt8} (hfield : fields.drop i = field :: rest)
    (hpos : pos = ((fields.map List.length).take i).sum) :
    ((List.range field.length).map fun j => fields.flatten.getD (pos + j) 0) = field := by
  rw [map_getD_eq_take (add_length_le_flatten hfield hpos), drop_flatten_eq hfield hpos,
    List.take_left' rfl]

theorem numberAt_flatten {value : Nat} (hfield : fields.drop i = toBytes size value :: rest)
    (hpos : pos = ((fields.map List.length).take i).sum) (hvalue : value < 256 ^ size) :
    numberAt fields.flatten pos size = value := by
  have hbytes := map_getD_flatten hfield hpos
  rw [length_toBytes] at hbytes
  rw [numberAt_eq_ofBytes, hbytes, ofBytes_toBytes hvalue]

theorem stringAt_flatten {text : List UInt8} (hfield : fields.drop i = (text ++ [0]) :: rest)
    (hpos : pos = ((fields.map List.length).take i).sum) (htext : ∀ byte ∈ text, byte ≠ 0) :
    stringAt fields.flatten pos = text := by
  rw [stringAt, drop_flatten_eq hfield hpos, List.append_assoc,
    List.takeWhile_append_of_pos (by simpa using htext)]
  simp

end HcOmni.Bytes
