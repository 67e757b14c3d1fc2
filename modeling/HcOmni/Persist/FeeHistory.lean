import HcOmni.Lib.Ordered
import HcOmni.Persist.TxHistory

/-!
# The history of fee distributions

`COmniFeeHistory` (`dbfees.cpp`): every distribution of fees is one record, under a number that is found
by counting the records.  A rollback deletes the records of the blocks from a height on.  As blocks never
decrease, these are the newest ones, so that the numbers stay without gaps and none is given twice.
-/

namespace HcOmni

open Std MapSum Text Scan Ordered

namespace COmniFeeHistoryDB

/-! ### The functions of the database -/

/-- `CountRecords` -/
def countRecords (db : Database) : Int := toInt32 db.size

/-- `strprintf("%s=%d,", recipient.first, recipient.second)` without the comma. -/
def recipientText (recipient : Str × Int) : Str := recipient.1 ++ '=' :: showInt recipient.2

/-- The recipients, with a comma behind each, of which the last one is cut off again. -/
def recipientsText (feeRecipients : List (Str × Int)) : Str :=
  (feeRecipients.flatMap fun recipient => recipientText recipient ++ [',']).dropLast

/-- `RecordFeeDistribution`; the recipients are a set, in the order in which it is walked. -/
def recordFeeDistribution (db : Database) (propertyId : PropertyId) (block total : Int)
    (feeRecipients : List (Str × Int)) : Database :=
  let count := toInt32 (countRecords db + 1)
  db.insert (showInt count)
    (colons [showInt block, decimal propertyId, showInt total, recipientsText feeRecipients])

/-- The loop body of `RollBackHistory`; a block that cannot be read is an exception. -/
def rollBackRecord (block : Int) (db : Database) (record : Str × Str) : Option Database :=
  let vFeeHistoryDetail := splitColons record.2
  if vFeeHistoryDetail.length ≠ 4 then some db
  else do
    let feeBlock ← lexicalCastInt 32 (vFeeHistoryDetail.getD 0 [])
    some (if feeBlock ≥ block then db.erase record.1 else db)

/-- `RollBackHistory` -/
def rollBackHistory (block : Int) (db : Database) : Option Database :=
  db.toList.foldlM (rollBackRecord block) db

/-- `GetDistributionData`: the property, the block and the total, or `false`. -/
def getDistributionData (db : Database) (id : Int) : Option (Option (PropertyId × Int × Int)) :=
  match db[showInt id]? with
  | none => some none
  | some strValue =>
      let vFeeHistoryDetail := splitColons strValue
      if vFeeHistoryDetail.length ≠ 4 then some none
      else do
        let block ← lexicalCastInt 32 (vFeeHistoryDetail.getD 0 [])
        let propertyId ← lexicalCastNat 32 (vFeeHistoryDetail.getD 1 [])
        let total ← lexicalCastInt 64 (vFeeHistoryDetail.getD 2 [])
        some (some (propertyId, block, total))

/-- A recipient of `GetFeeDistribution`: nothing without two fields. -/
def readRecipient (text : Str) : Option (Option (Str × Int)) :=
  let vFeeHistoryItem := splitTokens (· == '=') text
  if vFeeHistoryItem.length ≠ 2 then some none
  else do
    let feeHistoryItemAmount ← lexicalCastInt 64 (vFeeHistoryItem.getD 1 [])
    some (some (vFeeHistoryItem.getD 0 [], feeHistoryItemAmount))

/-- `GetFeeDistribution`, a set of pairs. -/
def getFeeDistribution (db : Database) (id : Int) : Option (List (Str × Int)) :=
  match db[showInt id]? with
  | none => some []
  | some strValue =>
      let vFeeHistoryDetail := splitColons strValue
      if vFeeHistoryDetail.length ≠ 4 then some []
      else do
        let vFeeHistoryItems ← (splitCommas (vFeeHistoryDetail.getD 3 [])).mapM readRecipient
        some (asSet toLex vFeeHistoryItems.reduceOption)

/-! ### The records -/

structure Distribution where
  propertyId : PropertyId
  block : Int
  total : Int
  recipients : List (Str × Int)
  deriving DecidableEq, Repr

/-- The address does not contain a separator. -/
def PlainAddress (address : Str) : Prop :=
  ∀ c ∈ address, (c == ':') = false ∧ (c == ',') = false ∧ (c == '=') = false

instance instDecidablePlainAddress (address : Str) : Decidable (PlainAddress address) :=
  List.decidableBAll _ address

/-- What a distribution is allowed to be: numbers of their types, and a set of recipients. -/
structure Distribution.Proper (d : Distribution) : Prop where
  property_lt : d.propertyId < 2 ^ 32
  block_fits : FitsInt 32 d.block
  total_fits : FitsInt 64 d.total
  sorted : d.recipients.Pairwise fun x y => toLex x < toLex y
  plain : ∀ recipient ∈ d.recipients, PlainAddress recipient.1 ∧ FitsInt 64 recipient.2

/-- The text of a record. -/
def Distribution.value (d : Distribution) : Str :=
  colons [showInt d.block, decimal d.propertyId, showInt d.total, recipientsText d.recipients]

theorem recipientsText_eq (recipients : List (Str × Int)) :
    recipientsText recipients = [','].intercalate (recipients.map recipientText) := by
  have hmap : (recipients.flatMap fun recipient => recipientText recipient ++ [',']) =
      (recipients.map recipientText).flatMap (· ++ [',']) := by
    rw [List.flatMap_map]
  unfold recipientsText
  rw [hmap, flatMap_eq_intercalate]
  by_cases hnil : recipients.map recipientText = []
  · rw [hnil]
    rfl
  · rw [intercalate_concat ',' hnil, List.dropLast_concat]

theorem recipientText_ne_nil (recipient : Str × Int) : recipientText recipient ≠ [] := by
  simp [recipientText]

theorem free_showInt (x : Int) : PlainAddress (showInt x) := by
  intro c hc
  rcases mem_showInt hc with hdigit | rfl
  · refine ⟨?_, ?_, ?_⟩ <;>
    · rw [beq_eq_false_iff_ne]
      rintro rfl
      exact absurd hdigit (by decide)
  · decide

section Text

variable {d : Distribution}

theorem colonFree_recipientsText (hproper : d.Proper) : ColonFree (recipientsText d.recipients) := by
  intro c hc
  rw [recipientsText_eq] at hc
  rcases mem_of_mem_intercalate hc with rfl | ⟨token, htoken, hc⟩
  · rfl
  · obtain ⟨recipient, hmem, rfl⟩ := List.mem_map.mp htoken
    rcases List.mem_append.mp hc with hc | hc
    · exact ((hproper.plain recipient hmem).1 c hc).1
    · rcases List.mem_cons.mp hc with rfl | hc
      · rfl
      · exact (free_showInt _ c hc).1

theorem splitColons_value (hproper : d.Proper) :
    splitColons d.value =
      [showInt d.block, decimal d.propertyId, showInt d.total, recipientsText d.recipients] := by
  unfold Distribution.value
  by_cases hempty : recipientsText d.recipients = []
  · have htext : colons [showInt d.block, decimal d.propertyId, showInt d.total, []] =
        [showInt d.block, decimal d.propertyId, showInt d.total].flatMap (· ++ [':']) :=
      (flatMap_eq_intercalate ':' [showInt d.block, decimal d.propertyId, showInt d.total]).symm
    rw [hempty, htext]
    refine splitTokens_flatMap rfl ?_ ?_
    · simp only [List.forall_mem_cons, List.not_mem_nil, false_imp_iff, implies_true, and_true]
      exact ⟨(field_showInt _).1, (field_decimal _).1, (field_showInt _).1⟩
    · simp only [List.forall_mem_cons, List.not_mem_nil, false_imp_iff, implies_true, and_true]
      exact ⟨(field_showInt _).2, (field_decimal _).2, (field_showInt _).2⟩
  · refine splitColons_colons (field_showInt _).1 ?_
    simp only [List.forall_mem_cons, List.not_mem_nil, false_imp_iff, implies_true, and_true]
    exact ⟨field_decimal _, field_showInt _, colonFree_recipientsText hproper, hempty⟩

theorem readRecipient_recipientText {recipient : Str × Int} (hplain : PlainAddress recipient.1)
    (hamount : FitsInt 64 recipient.2) : readRecipient (recipientText recipient) = some (some recipient) := by
  have htext : recipientText recipient = ['='].intercalate [recipient.1, showInt recipient.2] := by
    simp [recipientText]
  have hsplit : splitTokens (· == '=') (recipientText recipient) = [recipient.1, showInt recipient.2] := by
    rw [htext]
    refine splitTokens_intercalate_cons rfl (fun c hc => (hplain c hc).2.2) ?_ ?_
    · intro token htoken c hc
      rw [List.mem_singleton.mp htoken] at hc
      exact (free_showInt _ c hc).2.2
    · intro token htoken
      rw [List.mem_singleton.mp htoken]
      exact showInt_ne_nil _
  unfold readRecipient
  rw [hsplit]
  simp [lexicalCastInt_showInt hamount]

/-- **The recipients are read back.** -/
theorem exists_mapM_readRecipient (hproper : d.Proper) :
    ∃ found, (splitCommas (recipientsText d.recipients)).mapM readRecipient = some found ∧
      asSet toLex found.reduceOption = d.recipients := by
  have hfree : ∀ recipient ∈ d.recipients, ∀ c ∈ recipientText recipient, (c == ',') = false := by
    intro recipient hmem c hc
    rcases List.mem_append.mp hc with hc | hc
    · exact ((hproper.plain recipient hmem).1 c hc).2.1
    · rcases List.mem_cons.mp hc with rfl | hc
      · rfl
      · exact (free_showInt _ c hc).2.1
  obtain ⟨found, hread, hfound⟩ := @exists_mapM_splitTokens (· == ',') _ ',' rfl recipientText readRecipient
    rfl d.recipients hfree (fun recipient _ => recipientText_ne_nil recipient)
    fun recipient hmem => readRecipient_recipientText (hproper.plain recipient hmem).1
      (hproper.plain recipient hmem).2
  rw [recipientsText_eq]
  refine ⟨found, hread, ?_⟩
  rw [hfound]
  exact asSet_of_perm toLex.injective (List.Perm.refl _) hproper.sorted

end Text

/-! ### The live records -/

/-- The distributions under their numbers, which start with one. -/
def numbered (live : List Distribution) : ExtTreeMap Str Distribution compare :=
  (live.zipIdx 1).foldl (fun stored entry => stored.insert (showInt entry.2) entry.1) ∅

/-- The database of the live records. -/
def records (live : List Distribution) : Database := (numbered live).map fun _ => Distribution.value

section Records

variable {live : List Distribution} {d : Distribution}

theorem numbered_append (live : List Distribution) (d : Distribution) :
    numbered (live ++ [d]) = (numbered live).insert (showInt (live.length + 1)) d := by
  rw [numbered, List.zipIdx_append, List.foldl_append]
  simp [numbered, add_comm]

theorem records_append (live : List Distribution) (d : Distribution) :
    records (live ++ [d]) = (records live).insert (showInt (live.length + 1)) d.value := by
  rw [records, numbered_append, map_insert]
  rfl

/-- **The numbers of the records are 1 to n, in the order in which they were recorded.** -/
theorem numbered_eq_some_iff {key : Str} :
    (numbered live)[key]? = some d ↔ ∃ i : Nat, live[i]? = some d ∧ key = showInt (i + 1) := by
  induction live using List.reverseRecOn with
  | nil => simp [numbered]
  | append_singleton live last ih =>
    rw [numbered_append, ExtTreeMap.getElem?_insert]
    simp only [LawfulEqCmp.compare_eq_iff_eq]
    by_cases hkey : showInt (live.length + 1) = key
    · rw [if_pos hkey]
      constructor
      · intro hd
        exact ⟨live.length, by simpa using hd, hkey.symm⟩
      · rintro ⟨i, hi, rfl⟩
        have hindex : (live.length : Int) + 1 = i + 1 := showInt_injective hkey
        obtain rfl : live.length = i := by omega
        simpa using hi
    · rw [if_neg hkey, ih]
      constructor
      · rintro ⟨i, hi, rfl⟩
        exact ⟨i, by rw [List.getElem?_append_left (List.getElem?_eq_some_iff.mp hi).1, hi], rfl⟩
      · rintro ⟨i, hi, rfl⟩
        have hne : i ≠ live.length := fun heq => hkey (by rw [heq])
        have hlt : i < live.length := by
          have := (List.getElem?_eq_some_iff.mp hi).1
          rw [List.length_append, List.length_singleton] at this
          omega
        exact ⟨i, by rwa [List.getElem?_append_left hlt] at hi, rfl⟩

theorem get_records (live : List Distribution) (key : Str) :
    (records live)[key]? = (numbered live)[key]?.map Distribution.value :=
  ExtTreeMap.getElem?_map

theorem get_records_number {i : Nat} (hi : live[i]? = some d) :
    (records live)[showInt (i + 1)]? = some d.value := by
  rw [get_records, numbered_eq_some_iff.mpr ⟨i, hi, rfl⟩]
  rfl

theorem get_records_next (live : List Distribution) : (records live)[showInt (live.length + 1)]? = none := by
  rw [get_records, Option.map_eq_none_iff, Option.eq_none_iff_forall_not_mem]
  intro d hd
  obtain ⟨i, hi, hkey⟩ := numbered_eq_some_iff.mp hd
  have hindex : (live.length : Int) + 1 = i + 1 := showInt_injective hkey
  have hlt := (List.getElem?_eq_some_iff.mp hi).1
  omega

theorem size_records (live : List Distribution) : (records live).size = live.length := by
  induction live using List.reverseRecOn with
  | nil => simp [records, numbered]
  | append_singleton live last ih =>
    have hfresh : ¬(records live).contains (showInt (live.length + 1)) = true := by
      rw [ExtTreeMap.contains_iff_mem, ExtTreeMap.mem_iff_isSome_getElem?, get_records_next]
      simp
    rw [records_append, ExtTreeMap.size_insert, if_neg hfresh, ih, List.length_append,
      List.length_singleton]

theorem countRecords_records (hlength : live.length < 2 ^ 31) :
    countRecords (records live) = live.length := by
  unfold countRecords
  rw [size_records]
  exact toInt32_of_fits ⟨by omega, by omega⟩

theorem recordFeeDistribution_records (hlength : live.length + 1 < 2 ^ 31) (d : Distribution) :
    recordFeeDistribution (records live) d.propertyId d.block d.total d.recipients =
      records (live ++ [d]) := by
  have hcount : toInt32 ((live.length : Int) + 1) = live.length + 1 :=
    toInt32_of_fits ⟨by omega, by omega⟩
  rw [recordFeeDistribution, countRecords_records (by omega), hcount, records_append]
  rfl

/-- **A record is read back.** -/
theorem getDistributionData_records {i : Nat} (hi : live[i]? = some d) (hproper : d.Proper) :
    getDistributionData (records live) (i + 1) = some (some (d.propertyId, d.block, d.total)) := by
  rw [getDistributionData, get_records_number hi]
  simp [splitColons_value hproper, lexicalCastInt_showInt hproper.block_fits,
    lexicalCastNat_decimal hproper.property_lt, lexicalCastInt_showInt hproper.total_fits]

theorem getFeeDistribution_records {i : Nat} (hi : live[i]? = some d) (hproper : d.Proper) :
    getFeeDistribution (records live) (i + 1) = some d.recipients := by
  obtain ⟨found, hread, hfound⟩ := exists_mapM_readRecipient hproper
  rw [getFeeDistribution, get_records_number hi]
  simp [splitColons_value hproper, hread, hfound]

/-! ### Rolling back -/

/-- What a rollback leaves of the live records. -/
def below (b : Int) (live : List Distribution) : List Distribution :=
  live.filter fun d => decide (d.block < b)

theorem get_below (hsorted : live.Pairwise fun d d' => d.block ≤ d'.block) (b : Int) (i : Nat) :
    (below b live)[i]? = live[i]?.filter fun d => decide (d.block < b) := by
  induction live generalizing i with
  | nil => simp [below]
  | cons d rest ih =>
    obtain ⟨hfirst, hrest⟩ := List.pairwise_cons.mp hsorted
    unfold below at ih ⊢
    by_cases hd : d.block < b
    · rw [List.filter_cons_of_pos (by simpa using hd)]
      cases i with
      | zero => exact (Option.filter_eq_some_iff.mpr ⟨rfl, by simpa using hd⟩).symm
      | succ i => simpa using ih hrest i
    · have hnone : ∀ d' ∈ d :: rest, ¬d'.block < b := by
        intro d' hmem
        rcases List.mem_cons.mp hmem with rfl | hmem
        · exact hd
        · have := hfirst d' hmem
          omega
      rw [List.filter_eq_nil_iff.mpr fun d' hmem => by simpa using hnone d' hmem, List.getElem?_nil,
        eq_comm, Option.filter_eq_none_iff]
      intro d' hget
      simpa using hnone d' (List.mem_of_getElem? hget)

theorem numbered_below (hsorted : live.Pairwise fun d d' => d.block ≤ d'.block) (b : Int) (key : Str) :
    (numbered (below b live))[key]? = (numbered live)[key]?.filter fun d => decide (d.block < b) := by
  refine Option.ext fun d => ?_
  rw [numbered_eq_some_iff, Option.filter_eq_some_iff, numbered_eq_some_iff]
  simp only [get_below hsorted, Option.filter_eq_some_iff]
  constructor
  · rintro ⟨i, ⟨hi, hd⟩, hkey⟩
    exact ⟨⟨i, hi, hkey⟩, hd⟩
  · rintro ⟨⟨i, hi, hkey⟩, hd⟩
    exact ⟨i, ⟨hi, hd⟩, hkey⟩

/-- The block that is read from a record. -/
def feeBlock (value : Str) : Int := (lexicalCastInt 32 ((splitColons value).getD 0 [])).getD 0

theorem feeBlock_value (hproper : d.Proper) : feeBlock d.value = d.block := by
  simp [feeBlock, splitColons_value hproper, lexicalCastInt_showInt hproper.block_fits]

theorem foldlM_rollBackRecord (b : Int) {entries : List (Str × Str)}
    (hproper : ∀ e ∈ entries, ∃ d : Distribution, d.Proper ∧ e.2 = d.value) (acc : Nat × Database) :
    entries.foldlM (rollBackRecord b) acc.2 = some (scanErase (fun (_ : Unit) _ => ())
      (fun _ value => decide (feeBlock value ≥ b)) () entries acc).2 := by
  induction entries generalizing acc with
  | nil => rfl
  | cons e rest ih =>
    obtain ⟨⟨d, hd, hvalue⟩, hrest⟩ := List.forall_mem_cons.mp hproper
    have hstep : rollBackRecord b acc.2 e =
        some (if feeBlock e.2 ≥ b then acc.2.erase e.1 else acc.2) := by
      unfold rollBackRecord
      rw [hvalue, feeBlock_value hd]
      simp [splitColons_value hd, lexicalCastInt_showInt hd.block_fits]
    rw [List.foldlM_cons, hstep, scanErase, ← ih hrest]
    by_cases hlate : feeBlock e.2 ≥ b
    · simp [hlate]
    · simp [hlate]

/-- **A rollback removes the distributions of the blocks from `b` on.** -/
theorem rollBackHistory_records (hproper : ∀ d ∈ live, d.Proper)
    (hsorted : live.Pairwise fun d d' => d.block ≤ d'.block) (b : Int) :
    rollBackHistory b (records live) = some (records (below b live)) := by
  have hstored : ∀ (key : Str) (d : Distribution), (numbered live)[key]? = some d → d.Proper := by
    intro key d hget
    obtain ⟨i, hi, -⟩ := numbered_eq_some_iff.mp hget
    exact hproper d (List.mem_of_getElem? hi)
  have hentries : ∀ e ∈ (records live).toList, ∃ d : Distribution, d.Proper ∧ e.2 = d.value := by
    intro e he
    have hget := mem_toList.mp he
    rw [get_records, Option.map_eq_some_iff] at hget
    obtain ⟨d, hd, hvalue⟩ := hget
    exact ⟨d, hstored _ d hd, hvalue.symm⟩
  rw [rollBackHistory, foldlM_rollBackRecord b hentries (0, records live)]
  refine congrArg some (ExtTreeMap.ext_getElem? fun key => ?_)
  rw [get_records, numbered_below hsorted]
  refine scanErase_unit_exact_iff (fun d : Distribution => decide (d.block < b)) |>.mpr ?_ key
  intro key d hget
  rw [feeBlock_value (hstored key d hget), ← decide_not]
  exact decide_eq_decide.mpr Int.not_lt.symm

end Records

/-! ### Sequences of calls -/

/-- A call of `RecordFeeDistribution` or of `RollBackHistory`; `none` is an exception. -/
def runCall (db : Database) : Edit Distribution → Option Database
  | .add d => some (recordFeeDistribution db d.propertyId d.block d.total d.recipients)
  | .rollBack block => rollBackHistory block db

/-- The distributions that have been recorded and not rolled back. -/
def liveAfter (calls : List (Edit Distribution)) : List Distribution :=
  calls.foldl (Edit.apply Distribution.block) []

/-- **The numbers of fee distributions.**  After every sequence of calls whose blocks never decrease
between rollbacks, and go on at or above the block of a rollback, the records are the live ones, under the
numbers 1 to n in the order in which they were recorded; the number of the next record is not one of
them; and each live record is read back as it was recorded. -/
theorem distribution_numbers {calls : List (Edit Distribution)}
    (horder : Edit.InOrder Distribution.block Distribution.Proper (-2 ^ 31) calls)
    (hlength : calls.length < 2 ^ 31) :
    ∃ db, calls.foldlM runCall ∅ = some db ∧
      (∀ key value, db[key]? = some value ↔
        ∃ (i : Nat) (d : Distribution), (liveAfter calls)[i]? = some d ∧ key = showInt (i + 1) ∧
          value = d.value) ∧
      countRecords db = (liveAfter calls).length ∧
      db[showInt (countRecords db + 1)]? = none ∧
      ∀ (i : Nat) (d : Distribution), (liveAfter calls)[i]? = some d →
        getDistributionData db (i + 1) = some (some (d.propertyId, d.block, d.total)) ∧
          getFeeDistribution db (i + 1) = some d.recipients := by
  have hempty : records [] = ∅ := by simp [records, numbered]
  have hrule : calls.foldlM runCall (records []) = some (records (liveAfter calls)) ∧
      (liveAfter calls).length ≤ 2 ^ 31 - 1 ∧
      ∃ floor, Edit.Sorted Distribution.block Distribution.Proper floor (liveAfter calls) :=
    Edit.foldlM_eq (2 ^ 31 - 1) horder ⟨by simp, by simp, by simp⟩ (by simp; omega)
      (fun live d _ hlive => congrArg some (recordFeeDistribution_records (by omega) d))
      fun _ live b hlive => rollBackHistory_records hlive.all_ok hlive.pairwise b
  obtain ⟨hrun, hlive, floor, hsorted⟩ := hrule
  have hcount : countRecords (records (liveAfter calls)) = _ := countRecords_records (by omega)
  refine ⟨records (liveAfter calls), by rw [← hempty, hrun], ?_, hcount, ?_, ?_⟩
  · intro key value
    rw [get_records, Option.map_eq_some_iff]
    constructor
    · rintro ⟨d, hd, rfl⟩
      obtain ⟨i, hi, hkey⟩ := numbered_eq_some_iff.mp hd
      exact ⟨i, d, hi, hkey, rfl⟩
    · rintro ⟨i, d, hi, hkey, rfl⟩
      exact ⟨d, numbered_eq_some_iff.mpr ⟨i, hi, hkey⟩, rfl⟩
  · rw [hcount]
    exact get_records_next _
  · intro i d hi
    have hproper := hsorted.all_ok d (List.mem_of_getElem? hi)
    exact ⟨getDistributionData_records hi hproper, getFeeDistribution_records hi hproper⟩

/-- Two distributions, a rollback that removes the second, and one of the same block. -/
def sampleCalls : List (Edit Distribution) := [
  .add ⟨3, 100, 9, [("first".toList, 4), ("second".toList, 5)]⟩,
  .add ⟨4, 120, 7, []⟩,
  .rollBack 120,
  .add ⟨4, 120, 8, [("first".toList, 8)]⟩]

theorem distribution_numbers_rolledBack :
    ∃ db, sampleCalls.foldlM runCall ∅ = some db ∧ countRecords db = (liveAfter sampleCalls).length := by
  have horder : Edit.InOrder Distribution.block Distribution.Proper (-2 ^ 31) sampleCalls := by
    refine ⟨⟨?_, ?_, ?_, ?_, ?_⟩, ?_, ⟨?_, ?_, ?_, ?_, ?_⟩, ?_, ⟨?_, ?_, ?_, ?_, ?_⟩, ?_, trivial⟩ <;>
      decide +kernel
  obtain ⟨db, hrun, -, hcount, -⟩ := distribution_numbers horder (by decide)
  exact ⟨db, hrun, hcount⟩

end COmniFeeHistoryDB

end HcOmni
