import HcOmni.Ledger.Book
import HcOmni.Persist.Format

/-!
# Reading state files back

Every line is made of words: addresses, numbers and hashes, which contain none of the separators.
So each line is split into the parts it was made of, and reading it stores the record it was
written for.
-/

namespace HcOmni

open Std MapSum Program CMPTally State Text

variable {t t' u : State} {line : Str} {lines : List Str} {input : Str → Op Int}

/-! ### Words -/

/-- The characters of addresses, numbers and hashes. -/
def isWordChar (c : Char) : Bool := c.isAlphanum || c == '-'

structure IsWord (text : Str) : Prop where
  ne_nil : text ≠ []
  chars : ∀ c ∈ text, isWordChar c = true

/-- The characters of lines. -/
def isLineChar (c : Char) : Bool := isWordChar c || c == ',' || c == '=' || c == ';' || c == ':'

/-- The alphabet of addresses. -/
def base58Chars : Str := "123456789ABCDEFGHJKLMNPQRSTUVWXYZabcdefghijkmnopqrstuvwxyz".toList

/-- A non-empty base58 string. -/
def Base58 (address : Address) : Prop := address ≠ [] ∧ ∀ c ∈ address, c ∈ base58Chars

instance (address : Address) : Decidable (Base58 address) :=
  have : Decidable (∀ c ∈ address, c ∈ base58Chars) := List.decidableBAll _ address
  instDecidableAnd

theorem isAlphanum_of_mem_base58Chars {c : Char} (h : c ∈ base58Chars) : c.isAlphanum = true := by
  have hall : base58Chars.all Char.isAlphanum = true := by decide +kernel
  exact List.all_eq_true.mp hall c h

theorem isWordChar_of_isAlphanum {c : Char} (h : c.isAlphanum = true) : isWordChar c = true := by
  simp [isWordChar, h]

theorem Base58.isWord {a : Address} (h : Base58 a) : IsWord a :=
  ⟨h.1, fun c hc => isWordChar_of_isAlphanum (isAlphanum_of_mem_base58Chars (h.2 c hc))⟩

theorem isWordChar_of_isDigit {c : Char} (h : c.isDigit = true) : isWordChar c = true := by
  simp [isWordChar, Char.isAlphanum, h]

theorem isWord_decimal (n : Nat) : IsWord (decimal n) :=
  ⟨decimal_ne_nil n, fun _ hc => isWordChar_of_isDigit (isDigit_of_mem_decimal hc)⟩

theorem isWord_showInt (x : Int) : IsWord (showInt x) := by
  refine ⟨showInt_ne_nil x, fun c hc => ?_⟩
  rcases mem_showInt hc with hdigit | rfl
  · exact isWordChar_of_isDigit hdigit
  · rfl

theorem isWord_uint256ToString (hash : Hash) : IsWord (uint256ToString hash) := by
  constructor
  · intro hnil
    have := length_hexDigits 64 hash
    rw [uint256ToString] at hnil
    simp [hnil] at this
  · intro c hc
    obtain ⟨d, hd, rfl⟩ := mem_hexDigits hc
    exact (by decide : ∀ d < 16, isWordChar (Nat.digitChar d) = true) d hd

theorem IsWord.free {text : Str} (h : IsWord text) {sep : Char → Bool}
    (hsep : ∀ c, isWordChar c = true → sep c = false) : ∀ c ∈ text, sep c = false :=
  fun c hc => hsep c (h.chars c hc)

theorem isWordChar_isFieldSeparator {c : Char} (h : isWordChar c = true) :
    isFieldSeparator c = false := by
  by_contra hsep
  simp only [isFieldSeparator, Bool.not_eq_false, Bool.or_eq_true, beq_iff_eq] at hsep
  rcases hsep with (rfl | rfl) | rfl <;> exact absurd h (by decide)

theorem isWordChar_ne {c d : Char} (h : isWordChar c = true) (hd : isWordChar d = false) :
    (c == d) = false := by
  rw [beq_eq_false_iff_ne]
  rintro rfl
  exact absurd (h.symm.trans hd) (by decide)

/-- **A line of words is split into its words.** -/
theorem splitTokens_fields {tokens : List Str} (hsome : tokens ≠ [])
    (hwords : ∀ token ∈ tokens, IsWord token) :
    splitTokens isFieldSeparator (fields tokens) = tokens :=
  splitTokens_intercalate (by decide) hsome
    (fun token hmem => (hwords token hmem).free fun _ => isWordChar_isFieldSeparator)
    fun token hmem => (hwords token hmem).ne_nil

/-! ### Numbers -/

theorem castInt_showInt {width : Nat} {x : Int} (h : FitsInt width x) :
    castInt width (showInt x) = pure x := by
  simp [castInt, lexicalCastInt_showInt h]

theorem castNat_decimal {width n : Nat} (h : n < 2 ^ width) :
    castNat width (decimal n) = pure n := by
  simp [castNat, lexicalCastNat_decimal h]

theorem uint256S_append {hash : Hash} (h : hash < 2 ^ 256) {rest : Str}
    (hrest : ∀ c ∈ rest.head?, (hexDigit? c).isSome = false) :
    uint256S (uint256ToString hash ++ rest) = hash := by
  have hhex : ∀ c ∈ uint256ToString hash, (hexDigit? c).isSome = true := by
    intro c hc
    obtain ⟨d, hd, rfl⟩ := mem_hexDigits hc
    rw [hexDigit?_digitChar hd, Option.isSome_some]
  -- the first two characters are digits of the hash
  have hfront : ∀ (i : Nat) (c : Char), i < 64 → (uint256ToString hash ++ rest)[i]? = some c →
      (hexDigit? c).isSome = true := by
    intro i c hi hc
    rw [List.getElem?_append_left (by rwa [uint256ToString, length_hexDigits])] at hc
    exact hhex c (List.mem_of_getElem? hc)
  have hspace : (uint256ToString hash ++ rest).dropWhile isSpace = uint256ToString hash ++ rest := by
    rw [List.dropWhile_eq_self_iff]
    intro hlen hfirst
    have hmem := hfront 0 _ (by decide) (List.getElem?_eq_getElem hlen)
    generalize (uint256ToString hash ++ rest)[0] = c at hmem hfirst
    simp only [isSpace, Bool.or_eq_true, beq_iff_eq] at hfirst
    rcases hfirst with ((((rfl | rfl) | rfl) | rfl) | rfl) | rfl <;> exact absurd hmem (by decide)
  have hskip : skip0x (uint256ToString hash ++ rest) = uint256ToString hash ++ rest := by
    unfold skip0x
    split
    next heq => exact absurd (hfront 1 'x' (by decide) (by simp [heq])) (by decide)
    next heq => exact absurd (hfront 1 'X' (by decide) (by simp [heq])) (by decide)
    next => rfl
  have hstop : rest.takeWhile (fun c => (hexDigit? c).isSome) = [] := by
    cases rest with
    | nil => rfl
    | cons c rest => exact List.takeWhile_cons_of_neg (by simp [hrest c rfl])
  have htake : (uint256ToString hash ++ rest).takeWhile (fun c => (hexDigit? c).isSome) =
      uint256ToString hash := by
    rw [List.takeWhile_append_of_pos hhex, hstop, List.append_nil]
  unfold uint256S
  rw [hspace, hskip, htake, uint256ToString, ofHexDigits_hexDigits (by norm_num; exact h),
    Nat.mod_eq_of_lt h]

/-- **Hashes are read back.** -/
theorem uint256S_uint256ToString {hash : Hash} (h : hash < 2 ^ 256) :
    uint256S (uint256ToString hash) = hash := by
  have happend : uint256S (uint256ToString hash ++ []) = hash := uint256S_append h (by simp)
  rwa [List.append_nil] at happend

/-! ### The loop over the lines -/

/-- What the loop neither skips nor takes for the hash. -/
structure IsPlain (line : Str) : Prop where
  first : ∃ c rest, line = c :: rest ∧ isWordChar c = true
  chars : ∀ c ∈ line, isLineChar c = true

theorem IsPlain.not_mem (h : IsPlain line) {c : Char} (hc : isLineChar c = false) : c ∉ line :=
  fun hmem => absurd ((h.chars c hmem).symm.trans hc) (by decide)

/-- The lines are read one after the other, each of them successfully. -/
def Restores (input : Str → Op Int) : List Str → State → State → Prop
  | [], t, t' => t' = t
  | line :: rest, t, t' => ∃ u, input line t = .ok 0 u ∧ Restores input rest u t'

theorem filter_of_free {text : Str} (h : '\r' ∉ text) : text.filter (· != '\r') = text := by
  rw [List.filter_eq_self]
  intro c hc
  have hne : c ≠ '\r' := fun heq => h (heq ▸ hc)
  simpa using hne

theorem restoreLines_plain {fileHash hashed : Str} {rest : List Str} (h : IsPlain line) :
    restoreLines input true fileHash hashed (line :: rest) = (do
      let rc ← callRc (input line)
      if rc < 0 then pure (false, fileHash, hashed ++ line)
      else restoreLines input true fileHash (hashed ++ line) rest) := by
  have hfilter := filter_of_free (h.not_mem (by decide))
  obtain ⟨c, tail, rfl, hc⟩ := h.first
  have hhash : (c == '#') = false := isWordChar_ne hc (by decide)
  have hmark : (c == '!') = false := isWordChar_ne hc (by decide)
  simp only [restoreLines, List.isEmpty_cons, List.head?_cons, Option.some_beq_some, hhash, hmark,
    Bool.or_false, Bool.false_eq_true, if_false, hfilter, if_true]

theorem restoreLines_hash {fileHash hashed : Str} (hash : Hash) :
    restoreLines input true fileHash hashed ['!' :: uint256ToString hash, []] =
      pure (true, uint256ToString hash, hashed) := by
  have hfilter : ('!' :: uint256ToString hash).filter (· != '\r') = '!' :: uint256ToString hash := by
    refine filter_of_free fun hmem => ?_
    rcases List.mem_cons.mp hmem with heq | hchar
    · exact absurd heq (by decide)
    · exact absurd ((isWord_uint256ToString hash).chars _ hchar) (by decide)
  simp [restoreLines, hfilter]

theorem restoreLines_of_restores {fileHash hashed : Str} {hash : Hash}
    (hplain : ∀ line ∈ lines, IsPlain line) (h : Restores input lines t t') :
    restoreLines input true fileHash hashed (lines ++ ['!' :: uint256ToString hash, []]) t =
      .ok (true, uint256ToString hash, hashed ++ lines.flatten) t' := by
  induction lines generalizing t hashed with
  | nil =>
    obtain rfl : t' = t := h
    rw [List.nil_append, restoreLines_hash, List.flatten_nil, List.append_nil]
    rfl
  | cons line rest ih =>
    obtain ⟨u, hline, hrest⟩ := h
    rw [List.cons_append, restoreLines_plain (hplain line List.mem_cons_self),
      bind_of_ok (callRc_of_ok hline), if_neg (by decide),
      ih (fun line hmem => hplain line (List.mem_cons_of_mem _ hmem)) hrest,
      List.flatten_cons, List.append_assoc]

theorem restoreLines_invariant {I : State → Prop} {fileHash hashed : Str} {hash : Hash}
    (hline : ∀ line ∈ lines, IsPlain line ∧ ∀ t, I t → ∃ rc u, callRc (input line) t = .ok rc u ∧ I u)
    (ht : I t) :
    ∃ result t', restoreLines input true fileHash hashed
      (lines ++ ['!' :: uint256ToString hash, []]) t = .ok result t' ∧ I t' := by
  induction lines generalizing t hashed with
  | nil =>
    rw [List.nil_append, restoreLines_hash]
    exact ⟨_, t, rfl, ht⟩
  | cons line rest ih =>
    obtain ⟨hplain, hkeep⟩ := hline line List.mem_cons_self
    obtain ⟨rc, u, hcall, hu⟩ := hkeep t ht
    rw [List.cons_append, restoreLines_plain hplain, bind_of_ok hcall]
    by_cases hrc : rc < 0
    · rw [if_pos hrc]
      exact ⟨_, u, rfl, hu⟩
    · rw [if_neg hrc]
      exact ih (fun line hmem => hline line (List.mem_cons_of_mem _ hmem)) hu

/-! ### Files -/

theorem splitOn_writeStateFile {fenv : FileEnv} {s : State} {what : FileType}
    (hplain : ∀ line ∈ writeLines fenv s what, IsPlain line) :
    (writeStateFile fenv s what).splitOn '\n' = writeLines fenv s what ++
      ['!' :: uint256ToString (fenv.sha256 (writeLines fenv s what).flatten), []] := by
  unfold writeStateFile
  rw [flatMap_eq_intercalate, List.splitOn_intercalate]
  · simp
  · intro line hmem hnewline
    simp only [List.append_assoc, List.mem_append, List.mem_cons, List.not_mem_nil,
      or_false, List.cons_append, List.nil_append] at hmem
    rcases hmem with hline | rfl | rfl
    · exact (hplain line hline).not_mem (by decide) hnewline
    · rcases List.mem_cons.mp hnewline with heq | hmem
      · exact absurd heq (by decide)
      · exact absurd ((isWord_uint256ToString _).chars _ hmem) (by decide)
    · exact absurd hnewline List.not_mem_nil
  · simp

/-- **A file that was written is read**, and its hash is found to be right, if every line is. -/
theorem restoreInMemoryState_of_restores {fenv : FileEnv} {s : State} {what : FileType}
    (hplain : ∀ line ∈ writeLines fenv s what, IsPlain line)
    (h : Restores (inputLineFunc what) (writeLines fenv s what) (t.clearFor what) t') :
    restoreInMemoryState fenv (some (writeStateFile fenv s what)) what true t = .ok 0 t' := by
  unfold restoreInMemoryState
  rw [bind_of_ok (rfl : (modify fun s => s.clearFor what : Op PUnit) t = .ok ⟨⟩ (t.clearFor what))]
  dsimp only
  rw [splitOn_writeStateFile hplain, bind_of_ok (restoreLines_of_restores hplain h)]
  simp [iequals]
  rfl

theorem restoreInMemoryState_invariant {fenv : FileEnv} {s : State} {what : FileType}
    {I : State → Prop} (hline : ∀ line ∈ writeLines fenv s what, IsPlain line ∧
      ∀ t, I t → ∃ rc u, callRc (inputLineFunc what line) t = .ok rc u ∧ I u)
    (ht : I (t.clearFor what)) {rc : Int}
    (h : restoreInMemoryState fenv (some (writeStateFile fenv s what)) what true t = .ok rc t') :
    I t' := by
  obtain ⟨result, u, hrun, hu⟩ := restoreLines_invariant hline ht
  unfold restoreInMemoryState at h
  rw [bind_of_ok (rfl : (modify fun s => s.clearFor what : Op PUnit) t =
    .ok ⟨⟩ (t.clearFor what))] at h
  dsimp only at h
  rw [splitOn_writeStateFile fun line hmem => (hline line hmem).1, bind_of_ok hrun] at h
  split at h <;> cases h <;> exact hu

end HcOmni
