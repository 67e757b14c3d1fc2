import HcOmni.Lib.Text

/-!
# Numbers as texts

How integers are printed and read back: decimal numbers with an optional sign, for types of a
given width, and hexadecimal numbers of a fixed number of digits.
-/

namespace HcOmni.Text

/-! ### Decimal numbers with a sign -/

/-- The format `%d`. -/
def showInt : Int → List Char
  | .ofNat n => decimal n
  | .negSucc n => '-' :: decimal (n + 1)

/-- The value of a text of decimal digits. -/
def digits? (text : List Char) : Option Nat :=
  if text ≠ [] ∧ text.all Char.isDigit = true then some (Nat.ofDigitChars 10 text 0) else none

/-- An optional sign and digits: whether the sign is a minus, and the absolute value. -/
def signed? : List Char → Option (Bool × Nat)
  | '-' :: rest => (digits? rest).map fun n => (true, n)
  | '+' :: rest => (digits? rest).map fun n => (false, n)
  | text => (digits? text).map fun n => (false, n)

/-- The format `%0wd` for a width `w` and a number that is not negative. -/
def zeroPad (width n : Nat) : List Char := (decimal n).leftpad width '0'

/-- `lexical_cast` to a signed type of the given width. -/
def lexicalCastInt (width : Nat) (text : List Char) : Option Int :=
  match signed? text with
  | some (true, n) => if n ≤ 2 ^ (width - 1) then some (-n) else none
  | some (false, n) => if n < 2 ^ (width - 1) then some n else none
  | none => none

/-- `lexical_cast` to an unsigned type of the given width, where a minus wraps around. -/
def lexicalCastNat (width : Nat) (text : List Char) : Option Nat :=
  match signed? text with
  | some (minus, n) =>
      if n < 2 ^ width then some (if minus then (2 ^ width - n) % 2 ^ width else n) else none
  | none => none

/-- The numbers of a signed type. -/
def FitsInt (width : Nat) (x : Int) : Prop := -2 ^ (width - 1) ≤ x ∧ x < 2 ^ (width - 1)

instance instDecidableFitsInt (width : Nat) (x : Int) : Decidable (FitsInt width x) := instDecidableAnd

theorem decimal_ne_nil (n : Nat) : decimal n ≠ [] := Nat.toDigits_ne_nil

theorem digits?_decimal (n : Nat) : digits? (decimal n) = some n := by
  have hall : (decimal n).all Char.isDigit = true :=
    List.all_eq_true.mpr fun c hc => isDigit_of_mem_decimal hc
  unfold digits?
  rw [if_pos ⟨decimal_ne_nil n, hall⟩]
  exact congrArg some (Nat.ofDigitChars_toDigits (by decide) (by decide))

theorem signed?_decimal (n : Nat) : signed? (decimal n) = some (false, n) := by
  have hdigits := digits?_decimal n
  cases htext : decimal n with
  | nil => exact absurd htext (decimal_ne_nil n)
  | cons c rest =>
    have hc : c.isDigit = true := isDigit_of_mem_decimal (n := n) (by simp [htext])
    rw [htext] at hdigits
    unfold signed?
    split
    · exact absurd hc (by simp_all)
    · exact absurd hc (by simp_all)
    · simp [hdigits]

/-- **Unsigned numbers are read back.** -/
theorem lexicalCastNat_decimal {width n : Nat} (h : n < 2 ^ width) :
    lexicalCastNat width (decimal n) = some n := by
  simp [lexicalCastNat, signed?_decimal, h]

/-- **Signed numbers are read back.** -/
theorem lexicalCastInt_showInt {width : Nat} {x : Int} (h : FitsInt width x) :
    lexicalCastInt width (showInt x) = some x := by
  obtain ⟨hlo, hhi⟩ := h
  cases x with
  | ofNat n =>
    have hn : n < 2 ^ (width - 1) := by
      have : (n : Int) < 2 ^ (width - 1) := hhi
      exact_mod_cast this
    simp [lexicalCastInt, showInt, signed?_decimal, hn]
  | negSucc n =>
    have hn : n + 1 ≤ 2 ^ (width - 1) := by
      have : -(2 ^ (width - 1) : Int) ≤ -((n + 1 : Nat) : Int) := hlo
      exact_mod_cast Int.neg_le_neg_iff.mp this
    simp [lexicalCastInt, showInt, signed?, digits?_decimal, hn, Int.negSucc_eq]

theorem showInt_ne_nil (x : Int) : showInt x ≠ [] := by
  cases x with
  | ofNat n => exact decimal_ne_nil n
  | negSucc n => exact List.cons_ne_nil _ _

theorem mem_showInt {x : Int} {c : Char} (h : c ∈ showInt x) : c.isDigit = true ∨ c = '-' := by
  cases x with
  | ofNat n => exact .inl (isDigit_of_mem_decimal h)
  | negSucc n =>
    rcases List.mem_cons.mp h with rfl | hdigit
    · exact .inr rfl
    · exact .inl (isDigit_of_mem_decimal hdigit)

theorem lexicalCastNat_showInt {width : Nat} {x : Int} (h : FitsInt (width + 1) x) :
    ∃ n : Nat, lexicalCastNat (width + 1) (showInt x) = some n ∧
      (n : Int) = x % (2 ^ (width + 1) : Nat) := by
  obtain ⟨hlo, hhi⟩ := h
  rw [Nat.add_sub_cancel] at hlo hhi
  cases x with
  | ofNat n =>
    have hn : n < 2 ^ width := by
      have : (n : Int) < 2 ^ width := hhi
      exact_mod_cast this
    have hsize : n < 2 ^ (width + 1) := by
      rw [Nat.pow_succ]
      omega
    refine ⟨n, lexicalCastNat_decimal hsize, ?_⟩
    exact (Int.emod_eq_of_lt (Int.natCast_nonneg n) (by exact_mod_cast hsize)).symm
  | negSucc n =>
    have hn : n + 1 ≤ 2 ^ width := by
      have : -(2 ^ width : Int) ≤ -((n + 1 : Nat) : Int) := hlo
      exact_mod_cast Int.neg_le_neg_iff.mp this
    have hsize : n + 1 < 2 ^ (width + 1) := by
      rw [Nat.pow_succ]
      omega
    refine ⟨2 ^ (width + 1) - (n + 1), ?_, ?_⟩
    · simp [lexicalCastNat, showInt, signed?, digits?_decimal, hsize]
    · rw [Int.emod_negSucc, Int.subNatNat_eq_coe, Int.natAbs_natCast,
        Nat.mod_eq_of_lt (by omega : n < 2 ^ (width + 1)), Nat.cast_sub (by omega)]

theorem leadingNumber_decimal (n : Nat) : leadingNumber (decimal n) 0 = n := by
  have hall : ∀ (text : List Char) (acc : Nat), (∀ c ∈ text, c.isDigit = true) →
      leadingNumber text acc = Nat.ofDigitChars 10 text acc := by
    intro text
    induction text with
    | nil => exact fun _ _ => rfl
    | cons c rest ih =>
      intro acc hdigits
      rw [leadingNumber, if_pos (hdigits c List.mem_cons_self), Nat.ofDigitChars_cons]
      exact ih _ fun d hd => hdigits d (List.mem_cons_of_mem c hd)
  rw [hall _ _ fun c => isDigit_of_mem_decimal]
  exact Nat.ofDigitChars_toDigits (by decide) (by decide)

/-- **`atoi` reads every number back.** -/
theorem atoi_showInt (x : Int) : atoi (showInt x) = x := by
  cases x with
  | ofNat n =>
    have hnumber := leadingNumber_decimal n
    change atoi (decimal n) = n
    unfold atoi
    cases htext : decimal n with
    | nil => exact absurd htext (decimal_ne_nil n)
    | cons c rest =>
      have hc : c.isDigit = true := isDigit_of_mem_decimal (n := n) (by simp [htext])
      have hspace : ¬c.isWhitespace = true := by
        intro hspace
        simp only [Char.isWhitespace, Bool.or_eq_true, decide_eq_true_eq] at hspace
        rcases hspace with ((rfl | rfl) | rfl) | rfl <;> exact absurd hc (by decide)
      rw [htext] at hnumber
      rw [List.dropWhile_cons_of_neg hspace]
      split
      next heq => exact absurd hc (by simp_all)
      next heq => exact absurd hc (by simp_all)
      next => exact congrArg Int.ofNat hnumber
  | negSucc n =>
    unfold atoi showInt
    rw [List.dropWhile_cons_of_neg (by decide)]
    simp only [leadingNumber_decimal]
    rfl

theorem showInt_injective {x y : Int} (h : showInt x = showInt y) : x = y := by
  rw [← atoi_showInt x, h, atoi_showInt]

theorem length_showInt_le {x : Int} (h : FitsInt 64 x) : (showInt x).length ≤ 20 := by
  obtain ⟨hlo, hhi⟩ := h
  have hdecimal : ∀ n : Nat, n ≤ 2 ^ 63 → (decimal n).length ≤ 19 := fun n hn =>
    (Nat.length_toDigits_le_iff (by decide) (by decide)).mpr (by omega)
  cases x with
  | ofNat n => exact (hdecimal n (by simp at hhi; omega)).trans (by decide)
  | negSucc n =>
    have hn := hdecimal (n + 1) (by omega)
    simp only [showInt, List.length_cons]
    omega

theorem atoi_decimal (n : Nat) : atoi (decimal n) = n := atoi_showInt (.ofNat n)

/-! ### Numbers with leading zeros -/

theorem ofDigitChars_replicate_zero (k : Nat) : Nat.ofDigitChars 10 (List.replicate k '0') 0 = 0 := by
  induction k with
  | zero => rfl
  | succ k ih =>
    rw [List.replicate_succ, Nat.ofDigitChars_cons]
    exact ih

theorem ofDigitChars_zeroPad (width n : Nat) : Nat.ofDigitChars 10 (zeroPad width n) 0 = n := by
  unfold zeroPad List.leftpad
  rw [Nat.ofDigitChars_append, ofDigitChars_replicate_zero]
  exact Nat.ofDigitChars_toDigits (by decide) (by decide)

theorem zeroPad_injective {width m n : Nat} (h : zeroPad width m = zeroPad width n) : m = n := by
  rw [← ofDigitChars_zeroPad width m, h, ofDigitChars_zeroPad]

theorem ofDigitChars_cons_eq (c : Char) (rest : List Char) :
    Nat.ofDigitChars 10 (c :: rest) 0 =
      10 ^ rest.length * (c.toNat - '0'.toNat) + Nat.ofDigitChars 10 rest 0 := by
  rw [Nat.ofDigitChars_cons, Nat.ofDigitChars_eq_ofDigitChars_zero, Nat.mul_zero, Nat.zero_add]

theorem ofDigitChars_lt {text : List Char} (hdigits : ∀ c ∈ text, c.isDigit = true) :
    Nat.ofDigitChars 10 text 0 < 10 ^ text.length := by
  induction text with
  | nil => decide
  | cons c rest ih =>
    have hrest := ih fun d hd => hdigits d (List.mem_cons_of_mem c hd)
    have hdigit : c.toNat - '0'.toNat ≤ 9 := by
      have hc := hdigits c List.mem_cons_self
      simp only [Char.isDigit, Bool.and_eq_true, decide_eq_true_eq] at hc
      have hle : c.toNat ≤ 57 := hc.2
      rw [show '0'.toNat = 48 from rfl]
      omega
    rw [ofDigitChars_cons_eq, List.length_cons, Nat.pow_succ]
    have hmul := Nat.mul_le_mul_left (10 ^ rest.length) hdigit
    omega

theorem isDigit_of_mem_zeroPad {width n : Nat} {c : Char} (hc : c ∈ zeroPad width n) :
    c.isDigit = true := by
  unfold zeroPad List.leftpad at hc
  rcases List.mem_append.mp hc with hzero | hdigit
  · rw [List.eq_of_mem_replicate hzero]
    rfl
  · exact Nat.isDigit_of_mem_toDigits (by decide) (by decide) hdigit

theorem length_zeroPad (width n : Nat) : (zeroPad width n).length = max width (decimal n).length :=
  List.length_leftpad

theorem length_decimal_le {n k : Nat} (hk : 0 < k) (h : n < 10 ^ k) : (decimal n).length ≤ k :=
  (Nat.length_toDigits_le_iff (by decide) hk).mpr h

/-! ### Hexadecimal numbers -/

/-- The value of a hexadecimal digit of either case. -/
def hexDigit? (c : Char) : Option Nat :=
  if c.isDigit then some (c.toNat - '0'.toNat)
  else if 'a' ≤ c ∧ c ≤ 'f' then some (c.toNat - 'a'.toNat + 10)
  else if 'A' ≤ c ∧ c ≤ 'F' then some (c.toNat - 'A'.toNat + 10)
  else none

/-- The last digits of a number, in lower case. -/
def hexDigits : (width : Nat) → Nat → List Char
  | 0, _ => []
  | width + 1, n => hexDigits width (n / 16) ++ [Nat.digitChar (n % 16)]

/-- The number with the given hexadecimal digits. -/
def ofHexDigits (text : List Char) : Nat :=
  text.foldl (fun acc c => 16 * acc + (hexDigit? c).getD 0) 0

theorem hexDigit?_digitChar {d : Nat} (h : d < 16) : hexDigit? (Nat.digitChar d) = some d := by
  revert h
  revert d
  decide

theorem length_hexDigits (width n : Nat) : (hexDigits width n).length = width := by
  induction width generalizing n with
  | zero => rfl
  | succ width ih => simp [hexDigits, ih]

theorem mem_hexDigits {width n : Nat} {c : Char} (h : c ∈ hexDigits width n) :
    ∃ d < 16, c = Nat.digitChar d := by
  induction width generalizing n with
  | zero => exact absurd h List.not_mem_nil
  | succ width ih =>
    rcases List.mem_append.mp h with hmem | hlast
    · exact ih hmem
    · exact ⟨n % 16, Nat.mod_lt n (by decide), List.mem_singleton.mp hlast⟩

theorem ofHexDigits_hexDigits {width n : Nat} (h : n < 16 ^ width) :
    ofHexDigits (hexDigits width n) = n := by
  induction width generalizing n with
  | zero =>
    obtain rfl : n = 0 := by simpa using h
    rfl
  | succ width ih =>
    have hdiv : n / 16 < 16 ^ width := Nat.div_lt_of_lt_mul (by rwa [← Nat.pow_succ'])
    have hdigits := ih hdiv
    unfold ofHexDigits at hdigits ⊢
    rw [hexDigits, List.foldl_append, hdigits, List.foldl_cons, List.foldl_nil,
      hexDigit?_digitChar (Nat.mod_lt n (by decide)), Option.getD_some, Nat.div_add_mod]

end HcOmni.Text
