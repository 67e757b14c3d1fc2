import Mathlib

/-!
# Joining and splitting of texts

Texts are lists of characters.  `splitTokens` cuts a text at every run of separators, the way a
tokenizer with compressed separators does: a leading or trailing run leaves an empty token.  The
main lemma inverts the composition of a key from parts that contain no separator.
-/

namespace HcOmni.Text

/-- The tokens of a text; `inSep` says that the character before was a separator. -/
def splitFrom (sep : Char → Bool) : (inSep : Bool) → List Char → List (List Char)
  | _, [] => [[]]
  | inSep, c :: rest =>
      if sep c then
        if inSep then splitFrom sep true rest else [] :: splitFrom sep true rest
      else
        match splitFrom sep false rest with
        | [] => [[c]]
        | token :: tokens => (c :: token) :: tokens

/-- The tokens between the runs of separators. -/
def splitTokens (sep : Char → Bool) (text : List Char) : List (List Char) :=
  splitFrom sep false text

/-- The decimal digits of a number. -/
def decimal (n : Nat) : List Char := Nat.toDigits 10 n

/-- The value of the leading decimal digits. -/
def leadingNumber : List Char → (acc : Nat) → Nat
  | [], acc => acc
  | c :: rest, acc =>
      if c.isDigit then leadingNumber rest (10 * acc + (c.toNat - '0'.toNat)) else acc

/-- `atoi`: blanks, an optional sign, then digits. -/
def atoi (text : List Char) : Int :=
  match text.dropWhile Char.isWhitespace with
  | '-' :: rest => -(leadingNumber rest 0 : Int)
  | '+' :: rest => leadingNumber rest 0
  | rest => leadingNumber rest 0

variable {sep : Char → Bool}

theorem splitFrom_of_free {token : List Char} (h : ∀ c ∈ token, sep c = false) (inSep : Bool) :
    splitFrom sep inSep token = [token] := by
  induction token generalizing inSep with
  | nil => rfl
  | cons c rest ih =>
    have hc : sep c = false := h c List.mem_cons_self
    have hrest : ∀ d ∈ rest, sep d = false := fun d hd => h d (List.mem_cons_of_mem c hd)
    simp [splitFrom, hc, ih hrest]

theorem splitFrom_ne_nil (sep : Char → Bool) (inSep : Bool) (text : List Char) :
    splitFrom sep inSep text ≠ [] := by
  induction text generalizing inSep with
  | nil => exact List.cons_ne_nil _ _
  | cons c rest ih =>
    rw [splitFrom]
    split
    · split
      · exact ih true
      · exact List.cons_ne_nil _ _
    · split
      · exact List.cons_ne_nil _ _
      · exact List.cons_ne_nil _ _

theorem splitFrom_append {token rest : List Char} {c : Char} (inSep : Bool)
    (h : ∀ d ∈ token, sep d = false) (hc : sep c = true) (hne : token ≠ [] ∨ inSep = false) :
    splitFrom sep inSep (token ++ c :: rest) = token :: splitFrom sep true rest := by
  induction token generalizing inSep with
  | nil =>
    have hin : inSep = false := hne.resolve_left fun hnil => hnil rfl
    simp [splitFrom, hc, hin]
  | cons d token ih =>
    have hd : sep d = false := h d List.mem_cons_self
    have htoken : ∀ e ∈ token, sep e = false := fun e he => h e (List.mem_cons_of_mem d he)
    simp [splitFrom, hd, ih false htoken (.inr rfl)]

/-- **Splitting inverts joining.**  A key of three separator-free parts, the middle one not
empty, splits into its parts. -/
theorem splitTokens_join {first middle last : List Char} {c d : Char} (hc : sep c = true)
    (hd : sep d = true) (hfirst : ∀ e ∈ first, sep e = false)
    (hmiddle : ∀ e ∈ middle, sep e = false) (hlast : ∀ e ∈ last, sep e = false)
    (hne : middle ≠ []) :
    splitTokens sep (first ++ c :: (middle ++ d :: last)) = [first, middle, last] := by
  unfold splitTokens
  rw [splitFrom_append false hfirst hc (.inr rfl), splitFrom_append true hmiddle hd (.inl hne),
    splitFrom_of_free hlast]

theorem splitFrom_intercalate {c : Char} (hc : sep c = true) {tokens : List (List Char)}
    (hsome : tokens ≠ []) (hfree : ∀ token ∈ tokens, ∀ d ∈ token, sep d = false)
    (hne : ∀ token ∈ tokens, token ≠ []) (inSep : Bool) :
    splitFrom sep inSep ([c].intercalate tokens) = tokens := by
  induction tokens generalizing inSep with
  | nil => exact absurd rfl hsome
  | cons token rest ih =>
    have htoken := hfree token List.mem_cons_self
    cases rest with
    | nil => rw [List.intercalate_singleton, splitFrom_of_free htoken]
    | cons next rest =>
      rw [List.intercalate_cons_cons, List.append_assoc, List.singleton_append,
        splitFrom_append inSep htoken hc (.inl (hne token List.mem_cons_self))]
      rw [ih (List.cons_ne_nil _ _) (fun t ht => hfree t (List.mem_cons_of_mem _ ht))
        (fun t ht => hne t (List.mem_cons_of_mem _ ht)) true]

theorem splitTokens_intercalate {c : Char} (hc : sep c = true) {tokens : List (List Char)}
    (hsome : tokens ≠ []) (hfree : ∀ token ∈ tokens, ∀ d ∈ token, sep d = false)
    (hne : ∀ token ∈ tokens, token ≠ []) : splitTokens sep ([c].intercalate tokens) = tokens :=
  splitFrom_intercalate hc hsome hfree hne false

theorem splitTokens_intercalate_cons {c : Char} (hc : sep c = true) {first : List Char}
    {tokens : List (List Char)} (hfirst : ∀ d ∈ first, sep d = false)
    (hfree : ∀ token ∈ tokens, ∀ d ∈ token, sep d = false) (hne : ∀ token ∈ tokens, token ≠ []) :
    splitTokens sep ([c].intercalate (first :: tokens)) = first :: tokens := by
  cases tokens with
  | nil =>
    rw [List.intercalate_singleton]
    exact splitFrom_of_free hfirst false
  | cons next rest =>
    rw [List.intercalate_cons_cons, List.append_assoc, List.singleton_append]
    refine (splitFrom_append false hfirst hc (.inr rfl)).trans ?_
    rw [splitFrom_intercalate hc (List.cons_ne_nil _ _) hfree hne]

theorem splitTokens_intercalate_nil {c : Char} (hc : sep c = true) {first : List Char}
    {tokens : List (List Char)} (hsome : tokens ≠ []) (hfirst : ∀ d ∈ first, sep d = false)
    (hfree : ∀ token ∈ tokens, ∀ d ∈ token, sep d = false) (hne : ∀ token ∈ tokens, token ≠ []) :
    splitTokens sep ([c].intercalate (first :: [] :: tokens)) = first :: tokens := by
  cases tokens with
  | nil => exact absurd rfl hsome
  | cons next rest =>
    rw [List.intercalate_cons_cons, List.append_assoc, List.singleton_append,
      List.intercalate_cons_cons, List.nil_append, List.singleton_append]
    refine (splitFrom_append false hfirst hc (.inr rfl)).trans ?_
    simp only [splitFrom, hc, if_true]
    rw [splitFrom_intercalate hc (List.cons_ne_nil _ _) hfree hne]

theorem intercalate_concat (c : Char) {tokens : List (List Char)} (hsome : tokens ≠ [])
    (last : List Char) :
    [c].intercalate (tokens ++ [last]) = [c].intercalate tokens ++ c :: last := by
  induction tokens with
  | nil => exact absurd rfl hsome
  | cons token rest ih =>
    cases rest with
    | nil => simp
    | cons next rest =>
      have hrest := ih (List.cons_ne_nil _ _)
      rw [List.cons_append] at hrest
      rw [List.cons_append, List.cons_append, List.intercalate_cons_cons, hrest,
        List.intercalate_cons_cons]
      simp only [List.append_assoc]

theorem mem_of_mem_intercalate {c d : Char} {tokens : List (List Char)}
    (h : d ∈ [c].intercalate tokens) : d = c ∨ ∃ token ∈ tokens, d ∈ token := by
  induction tokens with
  | nil => exact absurd h List.not_mem_nil
  | cons token rest ih =>
    cases rest with
    | nil =>
      rw [List.intercalate_singleton] at h
      exact .inr ⟨token, List.mem_cons_self, h⟩
    | cons next rest =>
      simp only [List.intercalate_cons_cons, List.mem_append, List.mem_singleton] at h
      rcases h with (hmem | heq) | hmem
      · exact .inr ⟨token, List.mem_cons_self, hmem⟩
      · exact .inl heq
      · refine (ih hmem).imp_right ?_
        rintro ⟨token', hmem', hd⟩
        exact ⟨token', List.mem_cons_of_mem _ hmem', hd⟩

theorem flatMap_eq_intercalate (c : Char) (lines : List (List Char)) :
    lines.flatMap (· ++ [c]) = [c].intercalate (lines ++ [[]]) := by
  induction lines with
  | nil => rfl
  | cons line rest ih =>
    cases rest with
    | nil => simp
    | cons next rest =>
      rw [List.flatMap_cons, ih]
      simp only [List.cons_append, List.intercalate_cons_cons]

theorem splitTokens_flatMap {c : Char} (hc : sep c = true) {tokens : List (List Char)}
    (hfree : ∀ token ∈ tokens, ∀ d ∈ token, sep d = false)
    (hne : ∀ token ∈ tokens, token ≠ []) :
    splitTokens sep (tokens.flatMap (· ++ [c])) = tokens ++ [[]] := by
  suffices hall : ∀ inSep, splitFrom sep inSep (tokens.flatMap (· ++ [c])) = tokens ++ [[]] from
    hall false
  induction tokens with
  | nil => exact fun _ => rfl
  | cons token rest ih =>
    intro inSep
    rw [List.flatMap_cons, List.append_assoc, List.singleton_append,
      splitFrom_append inSep (hfree token List.mem_cons_self) hc
        (.inl (hne token List.mem_cons_self)),
      ih (fun t ht => hfree t (List.mem_cons_of_mem _ ht))
        (fun t ht => hne t (List.mem_cons_of_mem _ ht)) true]
    rfl

/-- **A list of items is read back.**  Texts that are no items are left out. -/
theorem exists_mapM_splitTokens {α : Type*} {c : Char} (hc : sep c = true) {text : α → List Char}
    {read : List Char → Option (Option α)} (hempty : read [] = some none) {items : List α}
    (hfree : ∀ a ∈ items, ∀ d ∈ text a, sep d = false) (hne : ∀ a ∈ items, text a ≠ [])
    (hread : ∀ a ∈ items, read (text a) = some (some a)) :
    ∃ found, (splitTokens sep ([c].intercalate (items.map text))).mapM read = some found ∧
      found.reduceOption = items := by
  by_cases hnil : items = []
  · subst hnil
    exact ⟨[none], by simp [splitTokens, splitFrom, hempty], rfl⟩
  · have hsplit : splitTokens sep ([c].intercalate (items.map text)) = items.map text := by
      refine splitTokens_intercalate hc (by simpa using hnil) ?_ ?_
      · intro token htoken
        obtain ⟨a, hmem, rfl⟩ := List.mem_map.mp htoken
        exact hfree a hmem
      · intro token htoken
        obtain ⟨a, hmem, rfl⟩ := List.mem_map.mp htoken
        exact hne a hmem
    have hall : (items.map text).mapM read = some (items.map some) := by
      clear hfree hne hnil hsplit
      induction items with
      | nil => rfl
      | cons a rest ih =>
        obtain ⟨ha, hrest⟩ := List.forall_mem_cons.mp hread
        rw [List.map_cons, List.mapM_cons, ha, ih hrest]
        rfl
    exact ⟨items.map some, by rw [hsplit, hall], by simp [List.reduceOption]⟩

/-! ### Decimal numbers -/

theorem isDigit_of_mem_decimal {n : Nat} {c : Char} (h : c ∈ decimal n) : c.isDigit = true :=
  Nat.isDigit_of_mem_toDigits (by decide) (by decide) h

theorem decimal_injective {m n : Nat} (h : decimal m = decimal n) : m = n := by
  have hm := Nat.ofDigitChars_toDigits (b := 10) (n := m) (by decide) (by decide)
  have hn := Nat.ofDigitChars_toDigits (b := 10) (n := n) (by decide) (by decide)
  unfold decimal at h
  rw [← hm, h, hn]

/-! ### Cutting at a character -/

theorem append_cons_inj_first {c : Char} {x y r r' : List Char} (hx : c ∉ x) (hy : c ∉ y)
    (h : x ++ c :: r = y ++ c :: r') : x = y ∧ r = r' := by
  induction x generalizing y with
  | nil =>
    cases y with
    | nil => exact ⟨rfl, by simpa using h⟩
    | cons d y =>
      obtain ⟨rfl, -⟩ := List.cons.inj h
      exact absurd List.mem_cons_self hy
  | cons d x ih =>
    cases y with
    | nil =>
      obtain ⟨rfl, -⟩ := List.cons.inj h
      exact absurd List.mem_cons_self hx
    | cons e y =>
      obtain ⟨rfl, hrest⟩ := List.cons.inj h
      obtain ⟨rfl, rfl⟩ := ih (fun hm => hx (List.mem_cons_of_mem d hm))
        (fun hm => hy (List.mem_cons_of_mem d hm)) hrest
      exact ⟨rfl, rfl⟩

theorem append_cons_inj_last {c : Char} {x y r r' : List Char} (hr : c ∉ r) (hr' : c ∉ r')
    (h : x ++ c :: r = y ++ c :: r') : x = y ∧ r = r' := by
  have hrev : r.reverse ++ c :: x.reverse = r'.reverse ++ c :: y.reverse := by
    simpa using congrArg List.reverse h
  obtain ⟨hr_eq, hx_eq⟩ := append_cons_inj_first (by simpa using hr) (by simpa using hr') hrev
  exact ⟨List.reverse_injective hx_eq, List.reverse_injective hr_eq⟩

theorem exists_rdropWhile_append_replicate (c : Char) (text : List Char) :
    ∃ k, text = text.rdropWhile (· == c) ++ List.replicate k c := by
  induction text using List.reverseRecOn with
  | nil => exact ⟨0, rfl⟩
  | append_singleton rest d ih =>
    by_cases hd : d = c
    · obtain ⟨k, hk⟩ := ih
      subst hd
      refine ⟨k + 1, ?_⟩
      rw [List.rdropWhile_concat_pos _ _ _ (by simp), List.replicate_succ', ← List.append_assoc, ← hk]
    · refine ⟨0, ?_⟩
      rw [List.rdropWhile_concat_neg _ _ _ (by simpa using hd)]
      simp

/-! ### Searching -/

/-- `std::string::find`: where a text occurs first in another one. -/
def find (needle : List Char) : List Char → Option Nat
  | [] => if needle.isEmpty then some 0 else none
  | c :: rest =>
      if needle.isPrefixOf (c :: rest) then some 0 else (find needle rest).map (· + 1)

theorem isSome_find {needle text : List Char} : (find needle text).isSome = true ↔ needle <:+: text := by
  induction text with
  | nil => simp [find]
  | cons c rest ih =>
    rw [find, List.infix_cons_iff, ← ih]
    by_cases hhere : needle <+: c :: rest
    · simp [hhere]
    · simp [hhere]

theorem find_singleton_of_notMem {c : Char} {text : List Char} (hc : c ∉ text) :
    find [c] text = none := by
  rw [← Option.not_isSome_iff_eq_none, isSome_find]
  intro hfound
  exact hc (hfound.subset List.mem_cons_self)

theorem find_singleton_append {c : Char} {x : List Char} (hc : c ∉ x) (y : List Char) :
    find [c] (x ++ c :: y) = some x.length := by
  induction x with
  | nil => simp [find]
  | cons d x ih =>
    rw [List.mem_cons, not_or] at hc
    obtain ⟨hne, hrest⟩ := hc
    simp [find, hne, ih hrest]

end HcOmni.Text
