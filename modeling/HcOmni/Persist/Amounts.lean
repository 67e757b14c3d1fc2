import HcOmni.Persist.Rollbacks

/-!
# Amounts as texts

How amounts are printed for users and read from them (`FormatDivisibleMP` and its relatives in
`omnicore.cpp`, `parse_string.cpp`).  An amount of a divisible property is counted in units of
1/100000000.  The reader pads or cuts the digits behind the point to eight, drops the point and casts
what is left, so it is compared with the number the text denotes.
-/

namespace HcOmni

open Text

/-- `FormatDivisibleMP` without a sign -/
def formatDivisibleMP (n : Int) : Str :=
  let remainder := decimal (n.natAbs % 100000000)
  decimal (n.natAbs / 100000000) ++ '.' :: (List.replicate (8 - remainder.length) '0' ++ remainder)

/-- `FormatDivisibleShortMP`: trailing zeros are erased, and then a trailing point. -/
def formatDivisibleShortMP (n : Int) : Str :=
  let str := (formatDivisibleMP n).rdropWhile (· == '0')
  if str.getLast? = some '.' then str.dropLast else str

/-- `FormatIndivisibleMP` -/
def formatIndivisibleMP (n : Int) : Str := showInt n

/-- The cast to `int64_t`; a failure is caught and leaves zero. -/
def castAmount (strAmount : Str) : Int := (lexicalCastInt 64 strAmount).getD 0

/-- `StrToInt64` -/
def strToInt64 (str : Str) (divisible : Bool) : Int :=
  if (find ['-'] str).isSome then 0
  else if divisible then
    match find ['.'] str with
    | none => castAmount ((str ++ List.replicate 8 '0').filter (· != '.'))
    | some pos =>
        if (find ['.'] (str.drop (pos + 1))).isSome then 0
        else if str.length - pos < 9 then
          let zerosToPad := 8 - (str.drop (pos + 1)).length
          castAmount ((str ++ List.replicate zerosToPad '0').filter (· != '.'))
        else
          -- there are too many decimals
          castAmount ((str.take (pos + 9)).filter (· != '.'))
  else
    match find ['.'] str with
    | none => castAmount str
    | some pos => castAmount (str.take pos)

/-! ### Numbers with a point -/

/-- Decimal digits with at most one point, and a digit before it. -/
def IsDecimal (text : Str) : Prop :=
  (∀ c ∈ text, c.isDigit = true ∨ c = '.') ∧ text.count '.' ≤ 1 ∧
    ∃ c ∈ text.head?, c.isDigit = true

/-- The number such a text denotes. -/
def decimalValue (text : Str) : ℚ :=
  let whole := text.takeWhile (· != '.')
  let decimals := (text.dropWhile (· != '.')).drop 1
  Nat.ofDigitChars 10 whole 0 + Nat.ofDigitChars 10 decimals 0 / 10 ^ decimals.length

/-- The units in a number, if they can be counted in 63 bits. -/
def unitsOf (value : ℚ) : Int :=
  if ⌊value * 100000000⌋ < 2 ^ 63 then ⌊value * 100000000⌋ else 0

section Digits

variable {whole decimals : Str}

theorem isDigit_ne_point {c : Char} (hc : c.isDigit = true) : c ≠ '.' ∧ c ≠ '-' ∧ c ≠ '+' := by
  refine ⟨?_, ?_, ?_⟩ <;> · rintro rfl; cases hc

theorem point_notMem (hdigits : ∀ c ∈ whole, c.isDigit = true) : '.' ∉ whole :=
  fun hmem => absurd (hdigits _ hmem) (by decide)

theorem cut_at_point (text : Str) :
    text = text.takeWhile (· != '.') ∧ (text.dropWhile (· != '.')).drop 1 = [] ∨
      text = text.takeWhile (· != '.') ++ '.' :: (text.dropWhile (· != '.')).drop 1 := by
  have hcut := List.takeWhile_append_dropWhile (p := (· != '.')) (l := text)
  cases hrest : text.dropWhile (· != '.') with
  | nil =>
    rw [hrest, List.append_nil] at hcut
    exact .inl ⟨hcut.symm, rfl⟩
  | cons c rest =>
    have hc := List.head?_dropWhile_not (· != '.') text
    rw [hrest] at hc
    obtain rfl : c = '.' := by simpa using hc
    rw [hrest] at hcut
    exact .inr hcut.symm

theorem IsDecimal.cases {text : Str} (h : IsDecimal text) :
    ∃ whole decimals, whole ≠ [] ∧ (∀ c ∈ whole, c.isDigit = true) ∧
      (∀ c ∈ decimals, c.isDigit = true) ∧
      decimalValue text =
        Nat.ofDigitChars 10 whole 0 + Nat.ofDigitChars 10 decimals 0 / 10 ^ decimals.length ∧
      (text = whole ∧ decimals = [] ∨ text = whole ++ '.' :: decimals) := by
  obtain ⟨hchars, hcount, first, hfirst, hdigit⟩ := h
  have hwhole : ∀ c ∈ text.takeWhile (· != '.'), c.isDigit = true := by
    intro c hc
    refine (hchars c ((List.takeWhile_sublist _).subset hc)).resolve_right ?_
    simpa using List.mem_takeWhile_imp hc
  have hne : text.takeWhile (· != '.') ≠ [] := by
    cases text with
    | nil => cases hfirst
    | cons c rest =>
      obtain rfl : c = first := by simpa using hfirst
      rw [List.takeWhile_cons_of_pos (by simpa using (isDigit_ne_point hdigit).1)]
      exact List.cons_ne_nil _ _
  have hdecimals : ∀ c ∈ (text.dropWhile (· != '.')).drop 1, c.isDigit = true := by
    intro c hc
    have hmem : c ∈ text := (List.dropWhile_sublist _).subset (List.mem_of_mem_drop hc)
    refine (hchars c hmem).resolve_right ?_
    rintro rfl
    rcases cut_at_point text with ⟨-, hnone⟩ | hcut
    · rw [hnone] at hc
      cases hc
    · -- it would be a second point
      rw [hcut, List.count_append, List.count_cons_self] at hcount
      have := List.count_pos_iff.mpr hc
      omega
  exact ⟨_, _, hne, hwhole, hdecimals, rfl, cut_at_point text⟩

/-! ### What is read -/

theorem castAmount_of_digits (hne : whole ≠ []) (hdigits : ∀ c ∈ whole, c.isDigit = true) :
    castAmount whole =
      if Nat.ofDigitChars 10 whole 0 < 2 ^ 63 then (Nat.ofDigitChars 10 whole 0 : Int) else 0 := by
  have hvalue : digits? whole = some (Nat.ofDigitChars 10 whole 0) :=
    if_pos ⟨hne, List.all_eq_true.mpr hdigits⟩
  have hsigned : signed? whole = some (false, Nat.ofDigitChars 10 whole 0) := by
    cases whole with
    | nil => exact absurd rfl hne
    | cons c rest =>
      obtain ⟨-, hminus, hplus⟩ := isDigit_ne_point (hdigits c List.mem_cons_self)
      unfold signed?
      split
      · simp_all
      · simp_all
      · simp [hvalue]
  unfold castAmount lexicalCastInt
  rw [hsigned]
  simp only
  split_ifs <;> rfl

theorem filter_point (hdigits : ∀ c ∈ whole, c.isDigit = true) :
    whole.filter (· != '.') = whole :=
  List.filter_eq_self.mpr fun c hc => by simpa using (isDigit_ne_point (hdigits c hc)).1

theorem isDigit_replicate_zero {k : Nat} : ∀ c ∈ List.replicate k '0', c.isDigit = true := by
  intro c hc
  rw [List.eq_of_mem_replicate hc]
  rfl

theorem minus_notMem (hdigits : ∀ c ∈ whole, c.isDigit = true) : '-' ∉ whole :=
  fun hmem => absurd (hdigits _ hmem) (by decide)

theorem strToInt64_whole (hwhole : ∀ c ∈ whole, c.isDigit = true) :
    strToInt64 whole true = castAmount (whole ++ List.replicate 8 '0') := by
  have hfilter : (whole ++ List.replicate 8 '0').filter (· != '.') = whole ++ List.replicate 8 '0' := by
    rw [List.filter_append, filter_point hwhole, filter_point isDigit_replicate_zero]
  unfold strToInt64
  rw [find_singleton_of_notMem (minus_notMem hwhole), find_singleton_of_notMem (point_notMem hwhole)]
  simp only [hfilter, Option.isSome_none, Bool.false_eq_true, if_false, if_true]

theorem strToInt64_point (hwhole : ∀ c ∈ whole, c.isDigit = true)
    (hdecimals : ∀ c ∈ decimals, c.isDigit = true) :
    strToInt64 (whole ++ '.' :: decimals) true =
      castAmount (whole ++ (decimals.take 8 ++ List.replicate (8 - decimals.length) '0')) := by
  have hminus : '-' ∉ whole ++ '.' :: decimals := by
    simp [minus_notMem hwhole, minus_notMem hdecimals]
  have hbehind : (whole ++ '.' :: decimals).drop (whole.length + 1) = decimals := by
    simp
  have hlength : (whole ++ '.' :: decimals).length - whole.length = decimals.length + 1 := by
    simp
  unfold strToInt64
  rw [find_singleton_of_notMem hminus, find_singleton_append (point_notMem hwhole)]
  simp only [hbehind, hlength, find_singleton_of_notMem (point_notMem hdecimals), Option.isSome_none,
    Bool.false_eq_true, if_false, if_true]
  split_ifs with hfew
  · have hall : decimals.take 8 = decimals := List.take_of_length_le (by omega)
    rw [hall, List.append_assoc, List.filter_append, List.cons_append, List.filter_cons_of_neg (by decide),
      List.filter_append, filter_point hwhole, filter_point hdecimals,
      filter_point isDigit_replicate_zero]
  · have hmany : 8 - decimals.length = 0 := by omega
    have htake : (whole ++ '.' :: decimals).take (whole.length + 9) =
        whole ++ '.' :: decimals.take 8 := by
      rw [List.take_append]
      simp
    have hcut : ∀ c ∈ decimals.take 8, c.isDigit = true := fun c hc =>
      hdecimals c (List.mem_of_mem_take hc)
    rw [hmany, htake, List.filter_append, List.filter_cons_of_neg (by decide), filter_point hwhole,
      filter_point hcut]
    simp

/-! ### What it amounts to -/

theorem ofDigitChars_append_eq (x y : Str) : Nat.ofDigitChars 10 (x ++ y) 0 =
    Nat.ofDigitChars 10 x 0 * 10 ^ y.length + Nat.ofDigitChars 10 y 0 := by
  rw [Nat.ofDigitChars_append, Nat.ofDigitChars_eq_ofDigitChars_zero, Nat.mul_comm]

theorem length_eightDecimals (decimals : Str) :
    (decimals.take 8 ++ List.replicate (8 - decimals.length) '0').length = 8 := by
  rw [List.length_append, List.length_take, List.length_replicate]
  omega

theorem ofDigitChars_eightDecimals (hdecimals : ∀ c ∈ decimals, c.isDigit = true) :
    Nat.ofDigitChars 10 (decimals.take 8 ++ List.replicate (8 - decimals.length) '0') 0 =
      Nat.ofDigitChars 10 decimals 0 * 10 ^ 8 / 10 ^ decimals.length := by
  rcases Nat.le_total decimals.length 8 with hfew | hmany
  · have hpow : 10 ^ 8 = 10 ^ (8 - decimals.length) * 10 ^ decimals.length := by
      rw [← Nat.pow_add, Nat.sub_add_cancel hfew]
    rw [List.take_of_length_le hfew, ofDigitChars_append_eq, ofDigitChars_replicate_zero,
      List.length_replicate, Nat.add_zero, hpow, ← Nat.mul_assoc, Nat.mul_div_cancel _ (by positivity)]
  · -- what is cut off is less than a unit
    have hcut := ofDigitChars_append_eq (decimals.take 8) (decimals.drop 8)
    have hrest : Nat.ofDigitChars 10 (decimals.drop 8) 0 < 10 ^ (decimals.drop 8).length :=
      ofDigitChars_lt fun c hc => hdecimals c (List.mem_of_mem_drop hc)
    have hpow : 10 ^ decimals.length = 10 ^ (decimals.drop 8).length * 10 ^ 8 := by
      rw [List.length_drop, ← Nat.pow_add, Nat.sub_add_cancel hmany]
    rw [List.take_append_drop] at hcut
    rw [hcut, Nat.sub_eq_zero_of_le hmany, List.replicate_zero, List.append_nil, hpow,
      Nat.mul_div_mul_right _ _ (by decide), Nat.mul_comm (Nat.ofDigitChars 10 _ 0),
      Nat.mul_add_div (by positivity), Nat.div_eq_of_lt hrest, Nat.add_zero]

theorem floor_units (n d k : Nat) :
    ⌊((n : ℚ) + d / 10 ^ k) * 100000000⌋ = ((n * 10 ^ 8 + d * 10 ^ 8 / 10 ^ k : Nat) : Int) := by
  have hsum : ((n : ℚ) + d / 10 ^ k) * 100000000 =
      ((n * 10 ^ 8 : Nat) : ℚ) + ((d * 10 ^ 8 : Nat) : ℚ) / ((10 ^ k : Nat) : ℚ) := by
    push_cast
    ring
  rw [hsum, Int.floor_natCast_add, Rat.floor_natCast_div_natCast]
  push_cast
  rfl

theorem castAmount_units (hne : whole ≠ []) (hwhole : ∀ c ∈ whole, c.isDigit = true)
    (hdecimals : ∀ c ∈ decimals, c.isDigit = true) :
    castAmount (whole ++ (decimals.take 8 ++ List.replicate (8 - decimals.length) '0')) =
      unitsOf (Nat.ofDigitChars 10 whole 0 +
        Nat.ofDigitChars 10 decimals 0 / 10 ^ decimals.length) := by
  have hdigits : ∀ c ∈ whole ++ (decimals.take 8 ++ List.replicate (8 - decimals.length) '0'),
      c.isDigit = true := by
    intro c hc
    rcases List.mem_append.mp hc with hc | hc
    · exact hwhole c hc
    · rcases List.mem_append.mp hc with hc | hc
      · exact hdecimals c (List.mem_of_mem_take hc)
      · exact isDigit_replicate_zero c hc
  rw [castAmount_of_digits (by simp [hne]) hdigits, ofDigitChars_append_eq, length_eightDecimals,
    ofDigitChars_eightDecimals hdecimals, unitsOf, floor_units]
  norm_cast

/-- **A number with a point is read as the units in it**, cut to whole ones, or as zero if there are
too many of them. -/
theorem IsDecimal.strToInt64_eq {text : Str} (h : IsDecimal text) :
    strToInt64 text true = unitsOf (decimalValue text) := by
  obtain ⟨whole, decimals, hne, hwhole, hdecimals, hvalue, hform⟩ := h.cases
  rw [hvalue, ← castAmount_units hne hwhole hdecimals]
  rcases hform with ⟨rfl, rfl⟩ | rfl
  · exact strToInt64_whole hwhole
  · exact strToInt64_point hwhole hdecimals

end Digits

/-! ### What is printed -/

theorem formatDivisibleMP_eq (n : Int) : formatDivisibleMP n =
    decimal (n.natAbs / 100000000) ++ '.' :: zeroPad 8 (n.natAbs % 100000000) := rfl

theorem length_zeroPad_remainder (n : Nat) : (zeroPad 8 (n % 100000000)).length = 8 := by
  have hlength : (decimal (n % 100000000)).length ≤ 8 :=
    length_decimal_le (by decide) (Nat.mod_lt n (by decide))
  rw [length_zeroPad, max_eq_left hlength]

theorem castAmount_printed {n : Int} (hnonneg : 0 ≤ n) (hmax : n < 2 ^ 63) :
    castAmount (decimal (n.natAbs / 100000000) ++ zeroPad 8 (n.natAbs % 100000000)) = n := by
  have hdigits : ∀ c ∈ decimal (n.natAbs / 100000000) ++ zeroPad 8 (n.natAbs % 100000000),
      c.isDigit = true := by
    intro c hc
    rcases List.mem_append.mp hc with hc | hc
    · exact isDigit_of_mem_decimal hc
    · exact isDigit_of_mem_zeroPad hc
  have hquotient : Nat.ofDigitChars 10 (decimal (n.natAbs / 100000000)) 0 = n.natAbs / 100000000 :=
    Nat.ofDigitChars_toDigits (by decide) (by decide)
  have hvalue : Nat.ofDigitChars 10
      (decimal (n.natAbs / 100000000) ++ zeroPad 8 (n.natAbs % 100000000)) 0 = n.natAbs := by
    rw [ofDigitChars_append_eq, hquotient, ofDigitChars_zeroPad, length_zeroPad_remainder,
      Nat.mul_comm]
    exact Nat.div_add_mod n.natAbs 100000000
  rw [castAmount_of_digits (by simp [decimal_ne_nil]) hdigits, hvalue, if_pos (by omega),
    Int.natAbs_of_nonneg hnonneg]

theorem strToInt64_formatDivisibleMP {n : Int} (hnonneg : 0 ≤ n) (hmax : n < 2 ^ 63) :
    strToInt64 (formatDivisibleMP n) true = n := by
  have hlength := length_zeroPad_remainder n.natAbs
  rw [formatDivisibleMP_eq, strToInt64_point (fun _ => isDigit_of_mem_decimal)
    (fun _ => isDigit_of_mem_zeroPad), hlength, List.take_of_length_le hlength.le, Nat.sub_self,
    List.replicate_zero, List.append_nil, castAmount_printed hnonneg hmax]

theorem rdropWhile_point (whole decimals : Str) :
    (whole ++ '.' :: decimals).rdropWhile (· == '0') =
      whole ++ '.' :: decimals.rdropWhile (· == '0') := by
  simp only [List.rdropWhile, List.reverse_append, List.reverse_cons, List.append_assoc,
    List.singleton_append, List.dropWhile_append]
  split
  next hall =>
    rw [List.isEmpty_iff.mp hall, List.dropWhile_cons_of_neg (by decide)]
    simp
  next => simp

/-- The text with trailing zeros stripped: the same digits before the point, and as many behind it as
are needed. -/
theorem strToInt64_formatDivisibleShortMP {n : Int} (hnonneg : 0 ≤ n) (hmax : n < 2 ^ 63) :
    strToInt64 (formatDivisibleShortMP n) true = n := by
  have hprinted := castAmount_printed hnonneg hmax
  obtain ⟨k, hk⟩ := exists_rdropWhile_append_replicate '0' (zeroPad 8 (n.natAbs % 100000000))
  have hlength := length_zeroPad_remainder n.natAbs
  have hdigits : ∀ c ∈ zeroPad 8 (n.natAbs % 100000000), c.isDigit = true :=
    fun _ => isDigit_of_mem_zeroPad
  have hwhole : ∀ c ∈ decimal (n.natAbs / 100000000), c.isDigit = true :=
    fun _ => isDigit_of_mem_decimal
  unfold formatDivisibleShortMP
  rw [formatDivisibleMP_eq, rdropWhile_point]
  generalize hstripped : (zeroPad 8 (n.natAbs % 100000000)).rdropWhile (· == '0') = stripped at hk
  rw [hk] at hprinted hlength hdigits
  have hdecimals : ∀ c ∈ stripped, c.isDigit = true := fun c hc =>
    hdigits c (List.mem_append_left _ hc)
  have hk8 : k = 8 - stripped.length := by
    rw [List.length_append, List.length_replicate] at hlength
    omega
  have hshort : stripped.length ≤ 8 := by
    rw [List.length_append] at hlength
    omega
  rcases List.eq_nil_or_concat stripped with rfl | ⟨front, c, rfl⟩
  · -- only the point is left
    rw [if_pos (by simp), List.dropLast_concat, strToInt64_whole hwhole]
    rw [hk8] at hprinted
    exact hprinted
  · have hlast : (decimal (n.natAbs / 100000000) ++ '.' :: (front ++ [c])).getLast? ≠ some '.' := by
      have hc := (isDigit_ne_point (hdecimals c (by simp))).1
      rw [← List.cons_append, ← List.append_assoc, List.getLast?_concat]
      simpa using hc
    simp only [List.concat_eq_append] at hshort hk8 hprinted hdecimals ⊢
    rw [if_neg hlast, strToInt64_point hwhole hdecimals, List.take_of_length_le hshort, ← hk8]
    exact hprinted

theorem strToInt64_formatIndivisibleMP {n : Int} (hnonneg : 0 ≤ n) (hmax : n < 2 ^ 63) :
    strToInt64 (formatIndivisibleMP n) false = n := by
  have hfits : FitsInt 64 n := ⟨by omega, by simpa using hmax⟩
  have hdigits : ∀ c ∈ showInt n, c.isDigit = true := by
    intro c hc
    cases n with
    | ofNat m => exact isDigit_of_mem_decimal hc
    | negSucc m => exact absurd hnonneg (by omega)
  unfold strToInt64 formatIndivisibleMP castAmount
  rw [find_singleton_of_notMem (minus_notMem hdigits), find_singleton_of_notMem (point_notMem hdigits)]
  simp [lexicalCastInt_showInt hfits]

/-- **Amounts as texts.**  What is printed is read back, in all three formats; and every number with at
most one point is read as the units in it, cut to whole ones, or as zero if there are too many. -/
theorem amount_texts :
    (∀ n : Int, 0 ≤ n → n ≤ 2 ^ 63 - 1 →
      strToInt64 (formatDivisibleMP n) true = n ∧ strToInt64 (formatDivisibleShortMP n) true = n ∧
        strToInt64 (formatIndivisibleMP n) false = n) ∧
    ∀ text, IsDecimal text →
      strToInt64 text true =
        if ⌊decimalValue text * 10 ^ 8⌋ < 2 ^ 63 then ⌊decimalValue text * 10 ^ 8⌋ else 0 := by
  constructor
  · intro n hnonneg hmax
    have hlt : n < 2 ^ 63 := by omega
    exact ⟨strToInt64_formatDivisibleMP hnonneg hlt, strToInt64_formatDivisibleShortMP hnonneg hlt,
      strToInt64_formatIndivisibleMP hnonneg hlt⟩
  · intro text htext
    rw [htext.strToInt64_eq, unitsOf]
    norm_num

/-- One and a half coins, and a text with nine decimals. -/
theorem amount_texts_sample :
    strToInt64 (formatDivisibleShortMP 150000000) true = 150000000 ∧
      IsDecimal "0.123456789".toList ∧ ⌊decimalValue "0.123456789".toList * 10 ^ 8⌋ = 12345678 ∧
      strToInt64 "0.123456789".toList true = 12345678 := by
  have hdecimal : IsDecimal "0.123456789".toList := ⟨by simp, by decide, '0', rfl, rfl⟩
  have hunits : ⌊decimalValue "0.123456789".toList * 10 ^ 8⌋ = 12345678 := by decide +kernel
  refine ⟨(amount_texts.1 150000000 (by omega) (by omega)).2.1, hdecimal, hunits, ?_⟩
  rw [amount_texts.2 _ hdecimal, hunits]
  decide

end HcOmni
