import HcOmni.Persist.Databases
import HcOmni.Persist.RoundTrip

/-!
# Rolling databases back

A rollback removes from each database what belongs to the blocks from a height on.  The loops find the
block of a record by the number of its fields.  Where the format of a record has changed since, or does
not hold the block at all, they take another number for it.
-/

namespace HcOmni

open Std MapSum Text Scan

/-! ### Fields -/

/-- The text has no colon. -/
def ColonFree (text : Str) : Prop := ∀ c ∈ text, (c == ':') = false

instance instDecidableColonFree (text : Str) : Decidable (ColonFree text) := List.decidableBAll _ text

theorem IsWord.colonFree {text : Str} (h : IsWord text) : ColonFree text :=
  h.free fun _ hc => isWordChar_ne hc (by decide)

theorem IsWord.commaFree {text : Str} (h : IsWord text) : ∀ c ∈ text, (c == ',') = false :=
  h.free fun _ hc => isWordChar_ne hc (by decide)

theorem splitColons_colons {first : Str} {rest : List Str} (hfirst : ColonFree first)
    (hrest : ∀ token ∈ rest, ColonFree token ∧ token ≠ []) :
    splitColons (colons (first :: rest)) = first :: rest :=
  splitTokens_intercalate_cons (by decide) hfirst (fun token hmem => (hrest token hmem).1)
    fun token hmem => (hrest token hmem).2

theorem splitColons_colons_nil {first : Str} {rest : List Str} (hsome : rest ≠ [])
    (hfirst : ColonFree first) (hrest : ∀ token ∈ rest, ColonFree token ∧ token ≠ []) :
    splitColons (colons (first :: [] :: rest)) = first :: rest :=
  splitTokens_intercalate_nil (by decide) hsome hfirst (fun token hmem => (hrest token hmem).1)
    fun token hmem => (hrest token hmem).2

theorem field_showInt (x : Int) : ColonFree (showInt x) ∧ showInt x ≠ [] :=
  ⟨(isWord_showInt x).colonFree, showInt_ne_nil x⟩

theorem field_decimal (n : Nat) : ColonFree (decimal n) ∧ decimal n ≠ [] :=
  ⟨(isWord_decimal n).colonFree, decimal_ne_nil n⟩

theorem field_uint256ToString (hash : Hash) :
    ColonFree (uint256ToString hash) ∧ uint256ToString hash ≠ [] :=
  ⟨(isWord_uint256ToString hash).colonFree, (isWord_uint256ToString hash).ne_nil⟩

/-- A key of 64 hexadecimal digits. -/
structure IsHex64 (key : Str) : Prop where
  length_eq : key.length = 64
  digits : ∀ c ∈ key, (hexDigit? c).isSome = true

theorem IsHex64.field {key : Str} (h : IsHex64 key) : ColonFree key ∧ key ≠ [] := by
  refine ⟨fun c hc => ?_, fun hnil => ?_⟩
  · have hdigit := h.digits c hc
    by_contra hcolon
    rw [Bool.not_eq_false, beq_iff_eq] at hcolon
    rw [hcolon] at hdigit
    exact absurd hdigit (by decide)
  · have hlength := h.length_eq
    rw [hnil] at hlength
    cases hlength

theorem isHex64_uint256ToString (hash : Hash) : IsHex64 (uint256ToString hash) := by
  refine ⟨length_hexDigits 64 hash, fun c hc => ?_⟩
  obtain ⟨d, hd, rfl⟩ := mem_hexDigits hc
  rw [hexDigit?_digitChar hd]
  rfl

theorem IsHex64.ne_showInt {key : Str} (h : IsHex64 key) {x : Int} (hx : FitsInt 64 x) :
    key ≠ showInt x := by
  intro heq
  have hlength := length_showInt_le hx
  rw [← heq, h.length_eq] at hlength
  omega

theorem atoi32_showInt {x : Int} (h : FitsInt 64 x) : atoi32 (showInt x) = toInt32 x := by
  have hspace : (showInt x).dropWhile isSpace = showInt x := by
    cases htext : showInt x with
    | nil => rfl
    | cons c rest =>
      have hc : isWordChar c = true := (isWord_showInt x).chars c (by simp [htext])
      refine List.dropWhile_cons_of_neg fun hspace => ?_
      simp only [isSpace, Bool.or_eq_true, beq_iff_eq] at hspace
      rcases hspace with ((((rfl | rfl) | rfl) | rfl) | rfl) | rfl <;> exact absurd hc (by decide)
  obtain ⟨hlo, hhi⟩ := h
  unfold atoi32
  rw [hspace, atoi_showInt, min_eq_right (by omega), max_eq_right (by omega)]

theorem toInt32_of_fits {x : Int} (h : FitsInt 32 x) : toInt32 x = x := by
  obtain ⟨hlo, hhi⟩ := h
  unfold toInt32
  rw [Int.bmod_eq_of_le] <;> omega

theorem atoi32_showInt_of_fits {x : Int} (h : FitsInt 32 x) : atoi32 (showInt x) = x := by
  have hwide : FitsInt 64 x := ⟨by have := h.1; omega, by have := h.2; omega⟩
  rw [atoi32_showInt hwide, toInt32_of_fits h]

theorem atoi32_decimal {n : Nat} (h : n < 2 ^ 63) : atoi32 (decimal n) = toInt32 n := by
  have hshow : decimal n = showInt (n : Int) := rfl
  rw [hshow, atoi32_showInt ⟨by omega, by omega⟩]

/-! ### Trades -/

namespace TradeRecord

/-- What the types of the arguments and the addresses promise. -/
def WellFormed : TradeRecord → Prop
  | .newTrade _ address _ _ blockNum _ => ColonFree address ∧ FitsInt 32 blockNum
  | .matchedTrade _ _ address1 address2 _ _ _ _ blockNum fee =>
      ColonFree address1 ∧ ColonFree address2 ∧ FitsInt 32 blockNum ∧ FitsInt 64 fee

/-- The number that is taken for the block at a record: at a match the one of the record before, or the
fee if the second address is empty. -/
def blockTaken (before : Int) : TradeRecord → Int
  | .newTrade _ _ _ _ blockNum _ => blockNum
  | .matchedTrade _ _ _ address2 _ _ _ _ _ fee => if address2 = [] then toInt32 fee else before

theorem readBlock_value {record : TradeRecord} (h : record.WellFormed) (before : Int) :
    CMPTradeList.readBlock before record.value = record.blockTaken before := by
  cases record with
  | newTrade txid address propertyIdForSale propertyIdDesired blockNum blockIndex =>
    have hrest : ∀ token ∈ [decimal propertyIdForSale, decimal propertyIdDesired, showInt blockNum,
        showInt blockIndex], ColonFree token ∧ token ≠ [] := by
      simp only [List.forall_mem_cons, List.not_mem_nil, false_imp_iff, implies_true, and_true]
      exact ⟨field_decimal _, field_decimal _, field_showInt _, field_showInt _⟩
    unfold CMPTradeList.readBlock value
    rw [splitColons_colons h.1 hrest]
    exact atoi32_showInt_of_fits h.2
  | matchedTrade txid1 txid2 address1 address2 prop1 prop2 amount1 amount2 blockNum fee =>
    obtain ⟨h1, h2, -, hfee⟩ := h
    have hrest : ∀ token ∈ [decimal prop1, decimal prop2, showInt amount1, showInt amount2,
        showInt blockNum, showInt fee], ColonFree token ∧ token ≠ [] := by
      simp only [List.forall_mem_cons, List.not_mem_nil, false_imp_iff, implies_true, and_true]
      exact ⟨field_decimal _, field_decimal _, field_showInt _, field_showInt _, field_showInt _,
        field_showInt _⟩
    unfold CMPTradeList.readBlock value blockTaken
    by_cases hempty : address2 = []
    · subst hempty
      rw [splitColons_colons_nil (List.cons_ne_nil _ _) h1 hrest]
      exact atoi32_showInt hfee
    · rw [splitColons_colons h1 (List.forall_mem_cons.mpr ⟨⟨h2, hempty⟩, hrest⟩)]
      exact (if_neg hempty).symm

end TradeRecord

namespace CMPTradeList

/-- The database after a sequence of calls. -/
def after (records : List TradeRecord) : Database := records.foldl write ∅

/-- What is stored after a sequence of calls: under every key the last record. -/
def trades (records : List TradeRecord) : ExtTreeMap Str TradeRecord compare :=
  records.foldl (fun stored record => stored.insert record.key record) ∅

theorem after_eq (records : List TradeRecord) :
    after records = (trades records).map fun _ => TradeRecord.value := by
  unfold after trades
  rw [map_foldl_insert, map_empty]
  rfl

theorem mem_of_trades {records : List TradeRecord} {key : Str} {record : TradeRecord}
    (h : (trades records)[key]? = some record) : record ∈ records ∧ record.key = key := by
  rcases mem_of_foldl_insert h with hempty | ⟨other, hmem, hkey, rfl⟩
  · rw [ExtTreeMap.getElem?_empty] at hempty
    cases hempty
  · exact ⟨hmem, hkey⟩

/-- **When a rollback of the trades is exact.**  Exactly the records of the blocks below `b` are left if
and only if at every record, in the order of the keys, the number that is taken for its block is on the
same side of `b` as its block. -/
theorem deleteAboveBlock_exact_iff {records : List TradeRecord}
    (hrecords : ∀ record ∈ records, record.WellFormed) (b : Int) :
    (∀ key : Str, (deleteAboveBlock b (after records)).2[key]? =
        ((trades records)[key]?.filter fun record => decide (record.blockNum < b)).map
          TradeRecord.value) ↔
      ∀ x ∈ statesAt TradeRecord.blockTaken 0 (trades records).toList,
        (b ≤ x.1 ↔ b ≤ x.2.2.blockNum) := by
  have hstates : statesAt (fun before record => readBlock before (TradeRecord.value record)) 0
      (trades records).toList = statesAt TradeRecord.blockTaken 0 (trades records).toList := by
    refine statesAt_congr fun before entry hentry => ?_
    exact TradeRecord.readBlock_value (hrecords _ (mem_of_trades (mem_toList.mp hentry)).1) before
  unfold deleteAboveBlock
  rw [after_eq, scanErase_exact_iff, hstates]
  refine forall₂_congr fun x _ => ?_
  rw [← decide_not, decide_eq_decide, Int.not_lt]

/-- An order of block 10, one of the given block, and their match. -/
def sampleTrades (block : Int) : List TradeRecord := [
  .newTrade 1 "maker".toList 3 4 10 1,
  .newTrade 2 "taker".toList 4 3 block 1,
  .matchedTrade 1 2 "maker".toList "taker".toList 4 3 7 9 block 0]

theorem wellFormed_sampleTrades {block : Int} (hblock : FitsInt 32 block) :
    ∀ record ∈ sampleTrades block, record.WellFormed := by
  have hmaker : ColonFree "maker".toList := by decide
  have htaker : ColonFree "taker".toList := by decide
  have hten : FitsInt 32 10 := ⟨by decide, by decide⟩
  have hzero : FitsInt 64 0 := ⟨by decide, by decide⟩
  simp only [sampleTrades, List.forall_mem_cons, List.not_mem_nil, false_imp_iff, implies_true,
    and_true]
  exact ⟨⟨hmaker, hten⟩, ⟨htaker, hblock⟩, ⟨hmaker, htaker, hblock, hzero⟩⟩

/-- A match in the block of both orders goes with them. -/
theorem deleteAboveBlock_exact_iff_sameBlock :
    (∀ record ∈ sampleTrades 10, record.WellFormed) ∧
      ∀ key : Str, (deleteAboveBlock 10 (after (sampleTrades 10))).2[key]? =
        ((trades (sampleTrades 10))[key]?.filter fun record => decide (record.blockNum < 10)).map
          TradeRecord.value := by
  have hrecords : ∀ record ∈ sampleTrades 10, record.WellFormed :=
    wellFormed_sampleTrades ⟨by decide, by decide⟩
  exact ⟨hrecords, (deleteAboveBlock_exact_iff hrecords 10).mpr (by decide +kernel)⟩

/-- **A match of a rolled back block stays.**  An order of block 10 is matched in block 12.  The rollback
to block 11 deletes the new order and leaves the match. -/
theorem exists_match_stays :
    let older : TradeRecord := .newTrade 1 "maker".toList 3 4 10 1
    let newer : TradeRecord := .newTrade 2 "taker".toList 4 3 12 1
    let match12 : TradeRecord :=
      .matchedTrade 1 2 "maker".toList "taker".toList 4 3 7 9 12 0
    let rolledBack := (deleteAboveBlock 11 (after [older, newer, match12])).2
    (∀ record ∈ [older, newer, match12], record.WellFormed) ∧
      rolledBack[older.key]? = some older.value ∧ rolledBack[newer.key]? = none ∧
      rolledBack[match12.key]? = some match12.value ∧ 11 ≤ match12.blockNum := by
  refine ⟨wellFormed_sampleTrades ⟨by decide, by decide⟩, ?_⟩
  decide +kernel

end CMPTradeList

/-! ### Agreements -/

namespace CMPAgtTradeList

/-- The database after a sequence of calls. -/
def after (records : List AgreementRecord) : Database := records.foldl recordNewTrade ∅

/-- What is stored after a sequence of calls: under every key the last record. -/
def agreements (records : List AgreementRecord) : ExtTreeMap Str AgreementRecord compare :=
  records.foldl (fun stored record => stored.insert (uint256ToString record.txid) record) ∅

theorem after_eq (records : List AgreementRecord) :
    after records = (agreements records).map fun _ => AgreementRecord.value := by
  unfold after agreements
  rw [map_foldl_insert, map_empty]
  rfl

/-- **When a rollback of the agreements is exact.**  Nothing is deleted, which is right exactly if there
is nothing to delete. -/
theorem rollBackHistory_exact_iff (records : List AgreementRecord) {b : Int} (hb : 1 ≤ b) :
    (∀ key : Str, (rollBackHistory b (after records))[key]? =
        ((agreements records)[key]?.filter fun record => decide (record.blockNum < b)).map
          AgreementRecord.value) ↔
      ∀ (key : Str) (record : AgreementRecord), (agreements records)[key]? = some record →
        record.blockNum < b := by
  have hnever : decide ((0 : Int) ≥ b) = false := decide_eq_false (by omega)
  unfold rollBackHistory
  rw [after_eq, scanErase_unit_exact_iff]
  refine forall₃_congr fun key record _ => ?_
  rw [hnever, eq_comm, Bool.not_eq_false', decide_eq_true_eq]

/-- An agreement of block 10. -/
def sampleAgreement : AgreementRecord where
  txid := 1
  sender := "sender".toList
  receiver := "receiver".toList
  agtId := "contract".toList
  blockNum := 10
  blockIndex := 1

theorem rollBackHistory_exact_iff_later :
    (1 : Int) ≤ 11 ∧ ∀ key : Str, (rollBackHistory 11 (after [sampleAgreement]))[key]? =
      ((agreements [sampleAgreement])[key]?.filter fun record => decide (record.blockNum < 11)).map
        AgreementRecord.value := by
  refine ⟨by decide, (rollBackHistory_exact_iff [sampleAgreement] (by decide)).mpr ?_⟩
  intro key record hget
  rcases mem_of_foldl_insert hget with hempty | ⟨other, hmem, -, rfl⟩
  · rw [ExtTreeMap.getElem?_empty] at hempty
    cases hempty
  · rw [List.mem_singleton.mp hmem]
    decide

/-- **An agreement of a rolled back block stays.** -/
theorem exists_agreement_stays :
    (rollBackHistory 10 (after [sampleAgreement]))[uint256ToString sampleAgreement.txid]? =
        some sampleAgreement.value ∧ 10 ≤ sampleAgreement.blockNum := by
  decide +kernel

end CMPAgtTradeList

/-! ### Transactions -/

namespace TxListEntry

/-- What the types of the arguments promise. -/
def WellFormed : TxListEntry → Prop
  | .main _ nBlock .. => FitsInt 32 nBlock
  | .payment .. => True
  | .cancel _ _ propertyId _ => propertyId < 2 ^ 32
  | .sendAll _ block _ => FitsInt 32 block
  | .dbversion _ => True

/-- Whether a record was written for a transaction of one of the blocks. -/
def inRange (a b : Int) (entry : TxListEntry) : Bool :=
  match entry.block? with
  | some block => decide (a ≤ block) && decide (block ≤ b)
  | none => false

/-- The number that is taken for the block of a payment is the one its second field begins with, in the
place of a buyer; for a cancelled order it is the property. -/
def TakesBlock (a b : Int) : TxListEntry → Prop
  | .payment nBlock vout buyer seller propertyId nValue =>
      let field := (splitColons (TxListEntry.payment nBlock vout buyer seller propertyId
        nValue).value).getD 1 []
      a ≤ atoi32 field ∧ atoi32 field ≤ b ↔ a ≤ nBlock ∧ nBlock ≤ b
  | .cancel nBlock _ propertyId _ =>
      a ≤ toInt32 propertyId ∧ toInt32 propertyId ≤ b ↔ a ≤ nBlock ∧ nBlock ≤ b
  | _ => True

variable {a b : Int}

theorem splitColons_payment (nBlock : Int) (vout : Nat) (buyer seller : Str) (propertyId : PropertyId)
    (nValue : Nat) :
    splitColons (TxListEntry.payment nBlock vout buyer seller propertyId nValue).value =
      decimal vout :: splitFrom (· == ':') true
        (colons [buyer, seller, decimal propertyId, decimal nValue]) := by
  simp only [value, splitColons, splitTokens, colons]
  rw [List.intercalate_cons_cons, List.append_assoc, List.singleton_append,
    splitFrom_append false (field_decimal vout).1 (by decide) (.inr rfl)]

theorem two_le_length_payment (nBlock : Int) (vout : Nat) (buyer seller : Str) (propertyId : PropertyId)
    (nValue : Nat) :
    2 ≤ (splitColons (TxListEntry.payment nBlock vout buyer seller propertyId nValue).value).length := by
  rw [splitColons_payment, List.length_cons]
  have hsome := List.length_pos_iff.mpr (splitFrom_ne_nil (· == ':') true
    (colons [buyer, seller, decimal propertyId, decimal nValue]))
  omega

theorem takesBlock_payment {nBlock : Int} {vout : Nat} {buyer seller : Str} {propertyId : PropertyId}
    {nValue : Nat} (hfree : ColonFree buyer) (hne : buyer ≠ []) :
    (TxListEntry.payment nBlock vout buyer seller propertyId nValue).TakesBlock a b ↔
      (a ≤ atoi32 buyer ∧ atoi32 buyer ≤ b ↔ a ≤ nBlock ∧ nBlock ≤ b) := by
  simp only [TakesBlock]
  rw [splitColons_payment, colons, List.intercalate_cons_cons, List.append_assoc,
    List.singleton_append, splitFrom_append true hfree (by decide) (.inl hne)]
  rfl

/-- **What the loop makes of a record.** -/
theorem inBlockRange_value {entry : TxListEntry} (h : entry.WellFormed) :
    CMPTxList.inBlockRange a b entry.value = entry.inRange a b ↔ entry.TakesBlock a b := by
  have hread : ∀ {first second : Str} {rest : List Str}, ColonFree first →
      (∀ token ∈ second :: rest, ColonFree token ∧ token ≠ []) →
      CMPTxList.inBlockRange a b (colons (first :: second :: rest)) =
        (decide (a ≤ atoi32 second) && decide (atoi32 second ≤ b)) := by
    intro first second rest hfirst hrest
    unfold CMPTxList.inBlockRange
    rw [splitColons_colons hfirst hrest]
    simp
  cases entry with
  | main fValid nBlock type nValue =>
    unfold value inRange TakesBlock
    rw [hread (field_decimal _).1 (by
      simp only [List.forall_mem_cons, List.not_mem_nil, false_imp_iff, implies_true, and_true]
      exact ⟨field_showInt _, field_decimal _, field_decimal _⟩), atoi32_showInt_of_fits h]
    exact ⟨fun _ => trivial, fun _ => rfl⟩
  | payment nBlock vout buyer seller propertyId nValue =>
    simp only [CMPTxList.inBlockRange]
    rw [decide_eq_true (two_le_length_payment nBlock vout buyer seller propertyId nValue)]
    simp only [inRange, block?, TakesBlock, Bool.true_and, ← Bool.decide_and, decide_eq_decide]
  | cancel nBlock txidSub propertyId nValue =>
    unfold value inRange TakesBlock
    rw [hread (field_uint256ToString _).1 (by
      simp only [List.forall_mem_cons, List.not_mem_nil, false_imp_iff, implies_true, and_true]
      exact ⟨field_decimal _, field_decimal _⟩), atoi32_decimal (Nat.lt_trans h (by decide))]
    simp only [block?, ← Bool.decide_and, decide_eq_decide]
  | sendAll propertyId block nValue =>
    unfold value inRange TakesBlock
    rw [hread (field_decimal _).1 (by
      simp only [List.forall_mem_cons, List.not_mem_nil, false_imp_iff, implies_true, and_true]
      exact ⟨field_showInt _, field_showInt _⟩), atoi32_showInt_of_fits h]
    exact ⟨fun _ => trivial, fun _ => rfl⟩
  | dbversion version =>
    have hone : splitColons (decimal version) = [decimal version] :=
      splitFrom_of_free (field_decimal version).1 false
    unfold CMPTxList.inBlockRange value inRange TakesBlock
    rw [hone]
    exact ⟨fun _ => trivial, fun _ => rfl⟩

end TxListEntry

/-- What the types of the arguments promise. -/
def TxListCall.WellFormed : TxListCall → Prop
  | .recordTX _ _ nBlock .. => FitsInt 32 nBlock
  | .recordPaymentTX _ _ nBlock .. => FitsInt 32 nBlock
  | .recordMetaDExCancelTX _ _ _ nBlock propertyId _ => FitsInt 32 nBlock ∧ propertyId < 2 ^ 32
  | .recordSendAllSubRecord _ _ _ block _ => FitsInt 32 block
  | .setDBVersion => True

namespace CMPTxList

/-- The database after a sequence of calls. -/
def after (calls : List TxListCall) : Database := calls.foldl write ∅

/-- The records after a call, each with the block it was written for. -/
def put (stored : ExtTreeMap Str TxListEntry compare) (call : TxListCall) :
    ExtTreeMap Str TxListEntry compare :=
  (written (fun key => stored[key]?.map TxListEntry.value) call).foldl
    (fun stored entry => stored.insert entry.1 entry.2) stored

/-- The records after a sequence of calls. -/
def entries (calls : List TxListCall) : ExtTreeMap Str TxListEntry compare := calls.foldl put ∅

theorem write_map (stored : ExtTreeMap Str TxListEntry compare) (call : TxListCall) :
    write (stored.map fun _ => TxListEntry.value) call =
      (put stored call).map fun _ => TxListEntry.value := by
  unfold write put
  simp only [ExtTreeMap.getElem?_map]
  exact (map_foldl_insert Prod.fst Prod.snd TxListEntry.value _ stored).symm

theorem after_eq (calls : List TxListCall) :
    after calls = (entries calls).map fun _ => TxListEntry.value := by
  suffices h : ∀ stored : ExtTreeMap Str TxListEntry compare,
      calls.foldl write (stored.map fun _ => TxListEntry.value) =
        (calls.foldl put stored).map fun _ => TxListEntry.value by
    rw [after, ← map_empty TxListEntry.value]
    exact h ∅
  intro stored
  induction calls generalizing stored with
  | nil => rfl
  | cons call rest ih => rw [List.foldl_cons, List.foldl_cons, write_map, ih]

theorem wellFormed_written {stored : Str → Option Str} {call : TxListCall} (h : call.WellFormed) :
    ∀ entry ∈ written stored call, entry.2.WellFormed := by
  cases call with
  | recordTX => exact List.forall_mem_singleton.mpr h
  | recordPaymentTX => exact List.forall_mem_cons.mpr ⟨h, List.forall_mem_singleton.mpr trivial⟩
  | recordMetaDExCancelTX => exact List.forall_mem_cons.mpr ⟨h.1, List.forall_mem_singleton.mpr h.2⟩
  | recordSendAllSubRecord => exact List.forall_mem_singleton.mpr h
  | setDBVersion => exact List.forall_mem_singleton.mpr trivial

theorem entries_induction {P : ExtTreeMap Str TxListEntry compare → Prop} {calls : List TxListCall}
    (hempty : P ∅) (hput : ∀ call ∈ calls, ∀ stored, P stored → P (put stored call)) :
    P (entries calls) := by
  suffices h : ∀ stored, P stored → P (calls.foldl put stored) from h ∅ hempty
  intro stored hstored
  induction calls generalizing stored with
  | nil => exact hstored
  | cons call rest ih =>
    exact ih (fun other hother => hput other (List.mem_cons_of_mem call hother)) _
      (hput call List.mem_cons_self stored hstored)

theorem exists_written_of_entries {calls : List TxListCall} {key : Str} {entry : TxListEntry}
    (hget : (entries calls)[key]? = some entry) :
    ∃ call ∈ calls, ∃ stored, (key, entry) ∈ written stored call := by
  refine entries_induction (P := fun stored => ∀ (key : Str) (entry : TxListEntry),
    stored[key]? = some entry → ∃ call ∈ calls, ∃ before, (key, entry) ∈ written before call) ?_ ?_
    key entry hget
  · intro key entry hget
    rw [ExtTreeMap.getElem?_empty] at hget
    cases hget
  · intro call hcall stored ih key entry hget
    rcases mem_of_foldl_insert hget with hold | ⟨new, hnew, rfl, rfl⟩
    · exact ih key entry hold
    · exact ⟨call, hcall, _, hnew⟩

theorem wellFormed_of_entries {calls : List TxListCall} (hcalls : ∀ call ∈ calls, call.WellFormed)
    {key : Str} {entry : TxListEntry} (hget : (entries calls)[key]? = some entry) :
    entry.WellFormed := by
  obtain ⟨call, hcall, stored, hwritten⟩ := exists_written_of_entries hget
  exact wellFormed_written (hcalls call hcall) _ hwritten

/-- **When a rollback of the transactions is exact.**  Exactly the records of the blocks `a` to `b` are
deleted if and only if every payment and every cancelled order is found in that range by the number that
is taken for its block exactly if its transaction is in that range. -/
theorem isMPinBlockRange_exact_iff {calls : List TxListCall}
    (hcalls : ∀ call ∈ calls, call.WellFormed) (a b : Int) :
    (∀ key : Str, (isMPinBlockRange a b (after calls)).2[key]? =
        ((entries calls)[key]?.filter fun entry => !entry.inRange a b).map TxListEntry.value) ↔
      ∀ (key : Str) (entry : TxListEntry), (entries calls)[key]? = some entry →
        entry.TakesBlock a b := by
  unfold isMPinBlockRange
  simp only [after_eq]
  rw [scanErase_unit_exact_iff]
  refine forall₃_congr fun key entry hget => ?_
  rw [Bool.not_not]
  exact TxListEntry.inBlockRange_value (wellFormed_of_entries hcalls hget)

/-- A payment in a transaction of block 10. -/
def paymentCall (buyer : Str) : TxListCall :=
  .recordPaymentTX 1 true 10 0 1 500 buyer "seller".toList

theorem wellFormed_paymentCall (buyer : Str) : ∀ call ∈ [paymentCall buyer], call.WellFormed :=
  List.forall_mem_singleton.mpr (show FitsInt 32 10 from ⟨by decide, by decide⟩)

/-- A payment by an address that begins with the height of its block. -/
theorem isMPinBlockRange_exact_iff_height :
    (∀ call ∈ [paymentCall "10buyer".toList], call.WellFormed) ∧
      ∀ key : Str, (isMPinBlockRange 10 12 (after [paymentCall "10buyer".toList])).2[key]? =
        ((entries [paymentCall "10buyer".toList])[key]?.filter fun entry =>
          !entry.inRange 10 12).map TxListEntry.value := by
  have hcalls := wellFormed_paymentCall "10buyer".toList
  refine ⟨hcalls, (isMPinBlockRange_exact_iff hcalls 10 12).mpr fun key entry hget => ?_⟩
  rcases mem_of_foldl_insert hget with hempty | ⟨new, hnew, -, rfl⟩
  · rw [ExtTreeMap.getElem?_empty] at hempty
    cases hempty
  · rcases List.mem_cons.mp hnew with rfl | hsub
    · exact trivial
    · rw [List.mem_singleton.mp hsub]
      exact (TxListEntry.takesBlock_payment (by decide) (by decide)).mpr (by decide)

/-- **Sub-records of a rolled back block stay, and one of another block goes.**  A payment and a cancel
of block 10: the rollback of the blocks 10 to 12 deletes their main records and leaves both sub-records.
The rollback of the blocks 3 to 5 deletes the record of the cancelled order, which is of property 3. -/
theorem exists_subRecord_stays :
    let calls : List TxListCall := [paymentCall "buyer".toList, .recordMetaDExCancelTX 2 7 true 10 3 500]
    let payment := uint256ToString 1 ++ "-1".toList
    let cancel := uint256ToString 2 ++ "-C1".toList
    (∀ call ∈ calls, call.WellFormed) ∧
      ((isMPinBlockRange 10 12 (after calls)).2[uint256ToString 1]? = none ∧
        (isMPinBlockRange 10 12 (after calls)).2[payment]? = some "0:buyer:seller:1:500".toList ∧
        ((isMPinBlockRange 10 12 (after calls)).2[cancel]?).isSome = true) ∧
      ((after calls)[cancel]?).isSome = true ∧
      (isMPinBlockRange 3 5 (after calls)).2[cancel]? = none := by
  refine ⟨?_, by decide +kernel⟩
  have hten : FitsInt 32 10 := ⟨by decide, by decide⟩
  exact List.forall_mem_cons.mpr ⟨hten, List.forall_mem_singleton.mpr ⟨hten, by decide⟩⟩

end CMPTxList

end HcOmni
