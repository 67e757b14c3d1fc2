import HcOmni.Conformance.MetaDEx
import HcOmni.Persist.RoundTrip

/-!
# The records of the state files

A collection is read back from the lines of its entries.  The line of an accept stores it again, provided
that its numbers fit the types of their fields and that its addresses are base58 strings.
-/

namespace HcOmni

open Std MapSum Program CMPTally State Text

variable {t t' u : State} {line : Str} {lines : List Str} {input : Str → Op Int}

/-! ### Collections -/

/-- **A collection is restored** by lines that insert its entries one after the other. -/
theorem restores_insertMany {κ ν : Type} {cmp : κ → κ → Ordering} [TransCmp cmp] [LawfulEqCmp cmp]
    (mapOf : State → ExtTreeMap κ ν cmp) (put : State → ExtTreeMap κ ν cmp → State)
    (hget : ∀ t m, mapOf (put t m) = m) (hput : ∀ t m m', put (put t m) m' = put t m')
    (hself : ∀ t, put t (mapOf t) = t) {entries : List (κ × ν)} {text : κ × ν → Str}
    (hline : ∀ entry ∈ entries, ∀ t, entry.1 ∉ mapOf t →
      input (text entry) t = .ok 0 (put t ((mapOf t).insert entry.1 entry.2)))
    (hdistinct : entries.Pairwise fun a b => ¬cmp a.1 b.1 = .eq)
    (hfresh : ∀ entry ∈ entries, entry.1 ∉ mapOf t) :
    Restores input (entries.map text) t (put t ((mapOf t).insertMany entries)) := by
  induction entries generalizing t with
  | nil =>
    change put t ((mapOf t).insertMany []) = t
    rw [ExtTreeMap.insertMany_nil, hself]
  | cons entry rest ih =>
    obtain ⟨hhead, htail⟩ := List.pairwise_cons.mp hdistinct
    refine ⟨_, hline entry List.mem_cons_self t (hfresh entry List.mem_cons_self), ?_⟩
    have hnext : ∀ other ∈ rest, other.1 ∉ mapOf (put t ((mapOf t).insert entry.1 entry.2)) := by
      intro other hother
      rw [hget, ExtTreeMap.mem_insert, not_or]
      exact ⟨hhead other hother, hfresh other (List.mem_cons_of_mem _ hother)⟩
    have hrest := ih (fun other hother => hline other (List.mem_cons_of_mem _ hother)) htail hnext
    rw [hget, hput] at hrest
    rwa [ExtTreeMap.insertMany_cons]

theorem restore_collection {κ ν : Type} {cmp : κ → κ → Ordering} [TransCmp cmp] [LawfulEqCmp cmp]
    (mapOf : State → ExtTreeMap κ ν cmp) (put : State → ExtTreeMap κ ν cmp → State)
    (hget : ∀ t m, mapOf (put t m) = m) (hput : ∀ t m m', put (put t m) m' = put t m')
    (hself : ∀ t, put t (mapOf t) = t) {fenv : FileEnv} {s : State} {what : FileType}
    (hclear : t.clearFor what = put t ∅) {m : ExtTreeMap κ ν cmp} {text : κ × ν → Str}
    (hlines : writeLines fenv s what = m.toList.map text)
    (hentry : ∀ entry ∈ m.toList, IsPlain (text entry) ∧ ∀ u, entry.1 ∉ mapOf u →
      inputLineFunc what (text entry) u = .ok 0 (put u ((mapOf u).insert entry.1 entry.2))) :
    ∃ t', restoreInMemoryState fenv (some (writeStateFile fenv s what)) what true t = .ok 0 t' ∧
      mapOf t' = m := by
  have hrestores := restores_insertMany (t := t.clearFor what) mapOf put hget hput hself
    (fun entry hmem => (hentry entry hmem).2) m.distinct_keys_toList fun entry _ => by
      rw [hclear, hget]
      exact ExtTreeMap.not_mem_empty
  rw [← hlines] at hrestores
  refine ⟨_, restoreInMemoryState_of_restores (fun line hline => ?_) hrestores, ?_⟩
  · rw [hlines] at hline
    obtain ⟨entry, hmem, rfl⟩ := List.mem_map.mp hline
    exact (hentry entry hmem).1
  · rw [hget, hclear, hget, insertMany_toList]

theorem rejectIf_contains {κ ν : Type} {cmp : κ → κ → Ordering} [TransCmp cmp]
    {m : ExtTreeMap κ ν cmp} {k : κ} {rc : Int} (h : k ∉ m) : rejectIf (m.contains k) rc = pure () := by
  have hfalse : m.contains k = false :=
    Bool.eq_false_iff.mpr fun hmem => h (ExtTreeMap.mem_iff_contains.mpr hmem)
  rw [hfalse]
  rfl

/-! ### Accepts -/

/-- The numbers of an accept fit their types. -/
structure CMPAccept.Fits (accept : CMPAccept) : Prop where
  original : FitsInt 64 accept.acceptAmountOriginal
  remaining : FitsInt 64 accept.acceptAmountRemaining
  window : accept.blocktimelimit < 256
  property : accept.property < 2 ^ 32
  amount : FitsInt 64 accept.offerAmountOriginal
  desired : FitsInt 64 accept.btcDesiredOriginal
  txid : accept.offerTxid < 2 ^ 256
  block : FitsInt 32 accept.block

/-- The original amount is read as a `uint64_t` and stored as an `int64_t`. -/
theorem castNat_showInt {x : Int} (h : FitsInt 64 x) :
    ∃ n : Nat, castNat 64 (showInt x) = pure n ∧ toInt64 n = x := by
  obtain ⟨n, hn, hmod⟩ := lexicalCastNat_showInt h
  refine ⟨n, by simp [castNat, hn], ?_⟩
  unfold toInt64
  rw [hmod, Int.emod_bmod]
  exact toInt64_of_range h.1 (by have := h.2; unfold MAX_INT_8_BYTES; omega)

theorem isWord_saveAccept {a b : Address} (ha : Base58 a) (hb : IsWord b) (accept : CMPAccept) :
    ∀ token ∈ [a, decimal accept.property, b, showInt accept.block,
      showInt accept.acceptAmountRemaining, showInt accept.acceptAmountOriginal,
      decimal accept.blocktimelimit, showInt accept.offerAmountOriginal,
      showInt accept.btcDesiredOriginal, uint256ToString accept.offerTxid], IsWord token := by
  simp [ha.isWord, hb, isWord_showInt, isWord_decimal, isWord_uint256ToString]

theorem input_saveAccept {a b : Address} {accept : CMPAccept} (ha : Base58 a) (hb : IsWord b)
    (hfits : accept.Fits) :
    inputMpAcceptsString (accept.saveAccept a b) = (do
      let s ← get
      rejectIf (s.myAccepts.contains (acceptKey a b accept.property)) (-1)
      set { s with myAccepts := s.myAccepts.insert (acceptKey a b accept.property) accept }
      pure 0) := by
  obtain ⟨n, hread, hn⟩ := castNat_showInt hfits.original
  have hwindow : (atoi (decimal accept.blocktimelimit) % 256).toNat = accept.blocktimelimit := by
    rw [atoi_decimal]
    have := hfits.window
    omega
  unfold inputMpAcceptsString CMPAccept.saveAccept
  rw [splitTokens_fields (List.cons_ne_nil _ _) (isWord_saveAccept ha hb accept)]
  simp only [castNat_decimal hfits.property, castInt_showInt hfits.remaining, hread,
    castInt_showInt hfits.amount, castInt_showInt hfits.desired, pure_bind, hn, hwindow,
    atoi_showInt, uint256S_uint256ToString hfits.txid]

theorem input_saveAccept_of_not_mem {a b : Address} {accept : CMPAccept} (ha : Base58 a)
    (hb : IsWord b) (hfits : accept.Fits) (hnew : acceptKey a b accept.property ∉ t.myAccepts) :
    inputMpAcceptsString (accept.saveAccept a b) t = .ok 0 { t with
      myAccepts := t.myAccepts.insert (acceptKey a b accept.property) accept } := by
  rw [input_saveAccept ha hb hfits, bind_of_ok (rfl : (get : Op State) t = .ok t t),
    rejectIf_contains hnew]
  rfl

theorem input_saveAccept_of_mem {a b : Address} {accept : CMPAccept} (ha : Base58 a)
    (hb : IsWord b) (hfits : accept.Fits) (hold : acceptKey a b accept.property ∈ t.myAccepts) :
    inputMpAcceptsString (accept.saveAccept a b) t = .error (.ret (-1)) t := by
  rw [input_saveAccept ha hb hfits, bind_of_ok (rfl : (get : Op State) t = .ok t t),
    ExtTreeMap.mem_iff_contains.mp hold]
  rfl

/-! ### Lines -/

theorem isLineChar_of_isWordChar {c : Char} (h : isWordChar c = true) : isLineChar c = true := by
  simp [isLineChar, h]

theorem isPlain_fields {token : Str} {tokens : List Str} (hword : IsWord token)
    (htokens : ∀ token ∈ tokens, ∀ c ∈ token, isLineChar c = true) :
    IsPlain (fields (token :: tokens)) := by
  constructor
  · obtain ⟨c, rest, rfl⟩ := List.exists_cons_of_ne_nil hword.ne_nil
    have hc := hword.chars c List.mem_cons_self
    cases tokens with
    | nil => exact ⟨c, rest, by simp [fields], hc⟩
    | cons next tokens => exact ⟨c, _, by simp [fields, List.intercalate_cons_cons]; rfl, hc⟩
  · intro c hc
    rcases mem_of_mem_intercalate hc with rfl | ⟨token', htoken', hmem⟩
    · decide
    rcases List.mem_cons.mp htoken' with rfl | hrest
    · exact isLineChar_of_isWordChar (hword.chars c hmem)
    · exact htokens token' hrest c hmem

theorem isPlain_of_words {tokens : List Str} (hsome : tokens ≠ [])
    (hwords : ∀ token ∈ tokens, IsWord token) : IsPlain (fields tokens) := by
  obtain ⟨token, rest, rfl⟩ := List.exists_cons_of_ne_nil hsome
  refine isPlain_fields (hwords token List.mem_cons_self) fun other hmem c hc => ?_
  exact isLineChar_of_isWordChar ((hwords other (List.mem_cons_of_mem _ hmem)).chars c hc)

end HcOmni
