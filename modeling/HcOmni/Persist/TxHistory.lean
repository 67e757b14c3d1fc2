import HcOmni.Lib.Bisect
import HcOmni.Persist.Rollbacks

/-!
# The transaction log

`dbTxHistory.cpp`: the transactions seen so far, in the order in which they came, and the payments in a
second log of the same kind.  Each entry is stored twice in one database, under its index and under the
hash of the transaction.  The length of the log is not stored; it is found by bisection.  A rollback
walks backwards from the newest entry to the first one of an earlier block.
-/

namespace HcOmni

open Std MapSum Text Bisection

namespace COmniTxHistoryDB

/-! ### The functions of the database -/

/-- `CountRecords` -/
def countRecords (db : Database) : Int := db.size

/-- `IsExist` -/
def isExist (db : Database) (index : Int) : Bool := db.contains (showInt index)

/-- `GetTop` -/
def getTop (db : Database) : Int :=
  lastFound (isExist db) (search (isExist db) ((countRecords db).toNat + 1)
    { left := 0, right := countRecords db })

/-- `PutHistory` -/
def putHistory (db : Database) (key : Str) (nBlock : Int) (history : Str) : Database :=
  let index := getTop db + 1
  (db.insert (showInt index) (colons [key, showInt nBlock])).insert key
    (colons [showInt nBlock, history, showInt index])

/-- `GetHistory(key)` -/
def getHistory (db : Database) (key : Str) : List UInt8 :=
  match db[key]? with
  | none => []
  | some strValue =>
      let vHistoryDetail := splitColons strValue
      if vHistoryDetail.length ≠ 3 then [] else parseHex (vHistoryDetail.getD 1 [])

/-- `GetHistory(index)` -/
def getHistoryAt (db : Database) (index : Int) : List UInt8 :=
  match db[showInt index]? with
  | none => []
  | some strValue =>
      let vHistoryDetail := splitColons strValue
      if vHistoryDetail.length ≠ 2 then [] else getHistory db (vHistoryDetail.getD 0 [])

/-- `(uint32_t)x` -/
def toUInt32 (x : Int) : Int := x % 2 ^ 32

/-- The loop of `RollBackHistory`; a block that cannot be read is an exception.  Every round but the last
ones finds another record, which bounds their number. -/
def rollBackLoop (block : Int) :
    (rounds : Nat) → (historyBlock index : Int) → Database → Option Database
  | 0, _, _, db => some db
  | rounds + 1, historyBlock, index, db =>
      if historyBlock ≥ toUInt32 block then
        match db[showInt index]? with
        | none => some db
        | some strValue =>
            let vHistoryDetail := splitColons strValue
            if vHistoryDetail.length ≠ 2 then some db
            else do
              let value ← lexicalCastInt 32 (vHistoryDetail.getD 1 [])
              let db := if toUInt32 value ≥ toUInt32 block then
                  (db.erase (showInt index)).erase (vHistoryDetail.getD 0 [])
                else db
              rollBackLoop block rounds (toUInt32 value) (index - 1) db
      else some db

/-- `RollBackHistory` -/
def rollBackHistory (block : Int) (db : Database) : Option Database :=
  rollBackLoop block (db.size + 2) (toUInt32 (-1)) (getTop db) db

/-! ### The log that is stored -/

/-- An entry of the log: the key, the block and the text that is stored in hexadecimal digits. -/
structure LogEntry where
  key : Str
  nBlock : Int
  text : List UInt8
  deriving DecidableEq, Repr

/-- What an entry is allowed to be. -/
structure LogEntry.Proper (entry : LogEntry) : Prop where
  isHex64 : IsHex64 entry.key
  nonneg : 0 ≤ entry.nBlock
  lt : entry.nBlock < 2 ^ 31
  text_ne : entry.text ≠ []

/-- The record under the index of an entry. -/
def LogEntry.indexValue (entry : LogEntry) : Str := colons [entry.key, showInt entry.nBlock]

/-- The record under the key of an entry. -/
def LogEntry.keyValue (entry : LogEntry) (index : Int) : Str :=
  colons [showInt entry.nBlock, hexStr entry.text, showInt index]

/-- The entries of a log: proper ones, with different keys, and no more than an index can count. -/
structure IsLog (entries : List LogEntry) : Prop where
  proper : ∀ entry ∈ entries, entry.Proper
  distinct : (entries.map LogEntry.key).Nodup
  length_lt : entries.length < 2 ^ 61

/-- The two records of an entry. -/
def store (db : Database) (entry : LogEntry × Nat) : Database :=
  (db.insert (showInt entry.2) entry.1.indexValue).insert entry.1.key (entry.1.keyValue entry.2)

/-- The database of a log. -/
def records (entries : List LogEntry) : Database := entries.zipIdx.foldl store ∅

section Log

variable {entries : List LogEntry} {entry : LogEntry}

theorem records_append (entries : List LogEntry) (entry : LogEntry) :
    records (entries ++ [entry]) = store (records entries) (entry, entries.length) := by
  rw [records, List.zipIdx_append, List.foldl_append]
  simp [records]

theorem IsLog.of_append (hlog : IsLog (entries ++ [entry])) : IsLog entries := by
  refine ⟨fun e he => hlog.proper e (List.mem_append_left _ he), ?_, ?_⟩
  · have hnodup := hlog.distinct
    rw [List.map_append] at hnodup
    exact hnodup.of_append_left
  · have hlength := hlog.length_lt
    rw [List.length_append] at hlength
    omega

theorem IsLog.last_proper (hlog : IsLog (entries ++ [entry])) : entry.Proper :=
  hlog.proper entry (List.mem_append_right _ (List.mem_singleton_self entry))

theorem IsLog.last_fresh (hlog : IsLog (entries ++ [entry])) : entry.key ∉ entries.map LogEntry.key := by
  intro hmem
  have hnodup := hlog.distinct
  rw [List.map_append, List.nodup_append] at hnodup
  exact hnodup.2.2 _ hmem _ (List.mem_singleton_self _) rfl

theorem IsLog.fits (hlog : IsLog entries) {i : Nat} (hi : i ≤ entries.length) :
    FitsInt 64 (i : Int) := by
  have := hlog.length_lt
  exact ⟨by omega, by omega⟩

theorem get_store_index {db : Database} {i : Nat} (hproper : entry.Proper) {x : Int}
    (hx : FitsInt 64 x) :
    (store db (entry, i))[showInt x]? = if x = i then some entry.indexValue else db[showInt x]? := by
  unfold store
  rw [getElem?_insert_of_ne (hproper.isHex64.ne_showInt hx), ExtTreeMap.getElem?_insert]
  simp only [LawfulEqCmp.compare_eq_iff_eq]
  by_cases heq : x = i
  · rw [if_pos heq, if_pos (by rw [heq])]
  · rw [if_neg heq, if_neg fun h => heq (showInt_injective h).symm]

theorem get_store_key {db : Database} {i : Nat} (hi : FitsInt 64 (i : Int)) {key : Str}
    (hkey : IsHex64 key) :
    (store db (entry, i))[key]? = if key = entry.key then some (entry.keyValue i) else db[key]? := by
  unfold store
  rw [ExtTreeMap.getElem?_insert]
  simp only [LawfulEqCmp.compare_eq_iff_eq]
  by_cases heq : key = entry.key
  · rw [if_pos heq, if_pos heq.symm]
  · rw [if_neg heq, if_neg fun h => heq h.symm, getElem?_insert_of_ne (hkey.ne_showInt hi).symm]

theorem get_records_index (hlog : IsLog entries) {x : Int} (hx : FitsInt 64 x) :
    (records entries)[showInt x]? =
      if 0 ≤ x then entries[x.toNat]?.map LogEntry.indexValue else none := by
  induction entries using List.reverseRecOn with
  | nil => simp [records]
  | append_singleton entries entry ih =>
    rw [records_append, get_store_index hlog.last_proper hx, ih hlog.of_append]
    by_cases hneg : 0 ≤ x
    · by_cases heq : x = entries.length
      · simp [heq]
      · have hne : x.toNat ≠ entries.length := by omega
        rw [if_neg heq, if_pos hneg, if_pos hneg, List.getElem?_append]
        by_cases hlt : x.toNat < entries.length
        · rw [if_pos hlt]
        · rw [if_neg hlt, List.getElem?_eq_none (by omega), List.getElem?_eq_none (by simp; omega)]
    · rw [if_neg (by omega), if_neg hneg, if_neg hneg]

theorem get_records_key_none (hlog : IsLog entries) {key : Str} (hkey : IsHex64 key)
    (hout : key ∉ entries.map LogEntry.key) : (records entries)[key]? = none := by
  induction entries using List.reverseRecOn with
  | nil => simp [records]
  | append_singleton entries entry ih =>
    rw [List.map_append, List.mem_append, not_or] at hout
    rw [records_append, get_store_key (hlog.of_append.fits le_rfl) hkey,
      if_neg fun heq => hout.2 (by simp [heq])]
    exact ih hlog.of_append hout.1

theorem get_records_key (hlog : IsLog entries) {i : Nat} (hi : entries[i]? = some entry) :
    (records entries)[entry.key]? = some (entry.keyValue i) := by
  have hproper := hlog.proper entry (List.mem_of_getElem? hi)
  induction entries using List.reverseRecOn with
  | nil => simp at hi
  | append_singleton entries last ih =>
    rw [records_append, get_store_key (hlog.of_append.fits le_rfl) hproper.isHex64]
    rw [List.getElem?_append] at hi
    split at hi
    · next hlt =>
        have hmem : entry.key ∈ entries.map LogEntry.key :=
          List.mem_map_of_mem (List.mem_of_getElem? hi)
        rw [if_neg fun heq : entry.key = last.key => hlog.last_fresh (heq ▸ hmem)]
        exact ih hlog.of_append hi
    · next hge =>
        rw [List.getElem?_singleton] at hi
        split at hi
        · next hzero =>
            obtain rfl : entries.length = i := by omega
            rw [Option.some.inj hi, if_pos rfl]
        · cases hi

theorem size_records (hlog : IsLog entries) : (records entries).size = 2 * entries.length := by
  induction entries using List.reverseRecOn with
  | nil => simp [records]
  | append_singleton entries entry ih =>
    have hold := hlog.of_append
    have hindex : ¬(records entries).contains (showInt entries.length) = true := by
      rw [ExtTreeMap.contains_iff_mem, ExtTreeMap.mem_iff_isSome_getElem?,
        get_records_index hold (hold.fits le_rfl)]
      simp
    have hkey : ¬((records entries).insert (showInt entries.length) entry.indexValue).contains
        entry.key = true := by
      rw [ExtTreeMap.contains_iff_mem, ExtTreeMap.mem_iff_isSome_getElem?, getElem?_insert_of_ne
        (hlog.last_proper.isHex64.ne_showInt (hold.fits le_rfl)).symm,
        get_records_key_none hold hlog.last_proper.isHex64 hlog.last_fresh]
      simp
    rw [records_append, store, ExtTreeMap.size_insert, if_neg hkey, ExtTreeMap.size_insert,
      if_neg hindex, ih hold, List.length_append, List.length_singleton]
    omega

/-- **The end of the log is found.** -/
theorem getTop_records (hlog : IsLog entries) : getTop (records entries) = entries.length - 1 := by
  have hmax := hlog.length_lt
  have hsize := size_records hlog
  refine lastFound_search (by omega) (by simp only [countRecords]; omega) fun x hlo hhi => ?_
  simp only [countRecords] at hhi
  unfold isExist
  rw [ExtTreeMap.contains_iff_mem, ExtTreeMap.mem_iff_isSome_getElem?,
    get_records_index hlog ⟨by omega, by omega⟩]
  by_cases hneg : 0 ≤ x
  · rw [if_pos hneg, Option.isSome_map, Option.isSome_iff_ne_none, ne_eq, List.getElem?_eq_none_iff]
    omega
  · rw [if_neg hneg]
    exact iff_of_false (by simp) fun h => hneg h.1

theorem putHistory_records (hlog : IsLog entries) (entry : LogEntry) :
    putHistory (records entries) entry.key entry.nBlock (hexStr entry.text) =
      records (entries ++ [entry]) := by
  rw [records_append, putHistory, getTop_records hlog, sub_add_cancel]
  rfl

theorem erase_records (hlog : IsLog (entries ++ [entry])) :
    ((records (entries ++ [entry])).erase (showInt entries.length)).erase entry.key =
      records entries := by
  have hold := hlog.of_append
  have hindex : (records entries)[showInt entries.length]? = none := by
    rw [get_records_index hold (hold.fits le_rfl)]
    simp
  have hkey := get_records_key_none hold hlog.last_proper.isHex64 hlog.last_fresh
  refine ExtTreeMap.ext_getElem? fun key => ?_
  rw [records_append, store]
  simp only [ExtTreeMap.getElem?_erase, ExtTreeMap.getElem?_insert, LawfulEqCmp.compare_eq_iff_eq]
  by_cases hk : entry.key = key
  · rw [if_pos hk, ← hk, hkey]
  · by_cases hi : showInt (entries.length : Int) = key
    · rw [if_neg hk, if_pos hi, ← hi, hindex]
    · rw [if_neg hk, if_neg hi, if_neg hk, if_neg hi]

/-! ### Rolling back -/

theorem toUInt32_of_height {x : Int} (hnonneg : 0 ≤ x) (hlt : x < 2 ^ 31) : toUInt32 x = x :=
  Int.emod_eq_of_lt hnonneg (by omega)

theorem splitColons_indexValue (hproper : entry.Proper) :
    splitColons entry.indexValue = [entry.key, showInt entry.nBlock] := by
  refine splitColons_colons hproper.isHex64.field.1 fun token htoken => ?_
  rw [List.mem_singleton.mp htoken]
  exact field_showInt _

theorem rollBackLoop_records {b : Int} (hb : 0 ≤ b) (hb' : b < 2 ^ 31) (hlog : IsLog entries)
    {rounds : Nat} (hrounds : entries.length < rounds) {historyBlock : Int} (hhistory : b ≤ historyBlock) :
    rollBackLoop b rounds historyBlock (entries.length - 1) (records entries) =
      some (records (entries.rdropWhile fun entry => decide (b ≤ entry.nBlock))) := by
  have hblock := toUInt32_of_height hb hb'
  induction entries using List.reverseRecOn generalizing rounds historyBlock with
  | nil =>
    obtain ⟨rounds, rfl⟩ := Nat.exists_eq_add_one_of_ne_zero (Nat.ne_zero_of_lt hrounds)
    rw [rollBackLoop, if_pos (by omega), get_records_index hlog ⟨by simp, by simp⟩]
    simp
  | append_singleton entries entry ih =>
    obtain ⟨rounds, rfl⟩ := Nat.exists_eq_add_one_of_ne_zero (Nat.ne_zero_of_lt hrounds)
    have hproper := hlog.last_proper
    have hlength : (entries ++ [entry]).length = entries.length + 1 := by simp
    have hindex : (((entries ++ [entry]).length : Int) - 1) = (entries.length : Int) := by
      rw [hlength]
      omega
    have hget : (records (entries ++ [entry]))[showInt entries.length]? = some entry.indexValue := by
      rw [records_append, get_store_index hproper (hlog.of_append.fits le_rfl), if_pos rfl]
    have hcast : lexicalCastInt 32 (showInt entry.nBlock) = some entry.nBlock :=
      lexicalCastInt_showInt ⟨by have := hproper.nonneg; omega, hproper.lt⟩
    have hentry := toUInt32_of_height hproper.nonneg hproper.lt
    rw [rollBackLoop, if_pos (by omega), hindex, hget]
    simp only [splitColons_indexValue hproper, List.length_cons, List.length_nil, zero_add,
      Nat.reduceAdd, ne_eq, not_true_eq_false, if_false, List.getD_cons_succ, List.getD_cons_zero,
      hcast, Option.bind_eq_bind, Option.bind_some, hentry, hblock]
    by_cases hlater : b ≤ entry.nBlock
    · rw [if_pos hlater, erase_records hlog, List.rdropWhile_concat_pos _ _ _ (by simpa using hlater)]
      exact ih hlog.of_append (by omega) hlater
    · rw [if_neg hlater, List.rdropWhile_concat_neg _ _ _ (by simpa using hlater)]
      -- the condition of the loop fails in the next round
      cases rounds with
      | zero => rfl
      | succ rounds => rw [rollBackLoop, if_neg (by omega)]

/-- **A rollback drops the newest entries**, up to the first one of an earlier block. -/
theorem rollBackHistory_records {b : Int} (hb : 0 ≤ b) (hb' : b < 2 ^ 31) (hlog : IsLog entries) :
    rollBackHistory b (records entries) =
      some (records (entries.rdropWhile fun entry => decide (b ≤ entry.nBlock))) := by
  rw [rollBackHistory, getTop_records hlog, size_records hlog]
  refine rollBackLoop_records hb hb' hlog (by omega) ?_
  have hmax : toUInt32 (-1) = 2 ^ 32 - 1 := by decide
  omega

theorem rdropWhile_eq_filter_iff {α : Type*} {p : α → Bool} {l : List α} :
    l.rdropWhile p = l.filter (fun x => !p x) ↔ l.Pairwise fun x y => p x = true → p y = true := by
  induction l using List.reverseRecOn with
  | nil => simp
  | append_singleton l x ih =>
    rw [List.filter_append, List.pairwise_append]
    cases hx : p x with
    | true =>
      rw [List.rdropWhile_concat_pos _ _ _ hx, List.filter_cons_of_neg (by simp [hx]),
        List.filter_nil, List.append_nil, ih]
      simp [hx]
    | false =>
      rw [List.rdropWhile_concat_neg _ _ _ (by simp [hx]), List.filter_cons_of_pos (by simp [hx]),
        List.filter_nil, List.append_cancel_right_eq, eq_comm, List.filter_eq_self]
      constructor
      · intro hnone
        have hnone' : ∀ y ∈ l, ¬p y = true := fun y hy => by simpa using hnone y hy
        refine ⟨?_, List.pairwise_singleton _ _, fun y hy _ _ hp => absurd hp (hnone' y hy)⟩
        refine List.pairwise_of_forall_mem_list fun y hy _ _ hp => absurd hp (hnone' y hy)
      · rintro ⟨-, -, hlast⟩ y hy
        have hy' : ¬p y = true := fun hp => by
          have := hlast y hy x (List.mem_singleton_self x) hp
          rw [hx] at this
          cases this
        simpa using hy'

/-! ### Reading an entry -/

theorem hexStr_cons (byte : UInt8) (bytes : List UInt8) :
    hexStr (byte :: bytes) = Nat.digitChar (byte.toNat / 16 % 16) :: Nat.digitChar (byte.toNat % 16) ::
      hexStr bytes := rfl

/-- **Texts in hexadecimal digits are read back.** -/
theorem parseHex_hexStr (bytes : List UInt8) : parseHex (hexStr bytes) = bytes := by
  induction bytes with
  | nil => rfl
  | cons byte bytes ih =>
    have hspace : ∀ d < 16, isSpace (Nat.digitChar d) = false := by decide
    have hbyte : byte.toNat / 16 % 16 = byte.toNat / 16 := by
      have := byte.toNat_lt
      omega
    rw [hexStr_cons, parseHex, hspace _ (Nat.mod_lt _ (by decide)),
      hexDigit?_digitChar (Nat.mod_lt _ (by decide)), hexDigit?_digitChar (Nat.mod_lt _ (by decide)),
      hbyte]
    simp only [Bool.false_eq_true, if_false, Nat.div_add_mod, UInt8.ofNat_toNat, ih]

theorem splitColons_keyValue (hproper : entry.Proper) (index : Int) :
    splitColons (entry.keyValue index) =
      [showInt entry.nBlock, hexStr entry.text, showInt index] := by
  refine splitColons_colons (field_showInt _).1 fun token htoken => ?_
  rcases List.mem_cons.mp htoken with rfl | htoken
  · refine ⟨fun c hc => ?_, fun hnil => ?_⟩
    · obtain ⟨byte, -, hmem⟩ := List.mem_flatMap.mp hc
      obtain ⟨d, hd, rfl⟩ := mem_hexDigits hmem
      exact (by decide : ∀ d < 16, (Nat.digitChar d == ':') = false) d hd
    · cases htext : entry.text with
      | nil => exact hproper.text_ne htext
      | cons byte bytes =>
        rw [htext, hexStr_cons] at hnil
        cases hnil
  · rw [List.mem_singleton.mp htoken]
    exact field_showInt _

theorem getHistory_records (hlog : IsLog entries) {i : Nat} (hi : entries[i]? = some entry) :
    getHistory (records entries) entry.key = entry.text := by
  have hproper := hlog.proper entry (List.mem_of_getElem? hi)
  rw [getHistory, get_records_key hlog hi]
  dsimp only
  rw [splitColons_keyValue hproper]
  simpa using parseHex_hexStr entry.text

theorem getHistory_records_none (hlog : IsLog entries) {key : Str} (hkey : IsHex64 key)
    (hout : key ∉ entries.map LogEntry.key) : getHistory (records entries) key = [] := by
  rw [getHistory, get_records_key_none hlog hkey hout]

theorem getHistoryAt_records (hlog : IsLog entries) {i : Nat} (hi : entries[i]? = some entry) :
    getHistoryAt (records entries) i = entry.text := by
  have hproper := hlog.proper entry (List.mem_of_getElem? hi)
  have hlt : i < entries.length := (List.getElem?_eq_some_iff.mp hi).1
  rw [getHistoryAt, get_records_index hlog (hlog.fits hlt.le), if_pos (by omega), Int.toNat_natCast, hi]
  simp only [Option.map_some, splitColons_indexValue hproper]
  exact getHistory_records hlog hi

end Log

/-! ### Sequences of calls -/

/-- A call that changes the log. -/
inductive LogCall where
  | putHistory (entry : LogEntry)
  | rollBackHistory (block : Int)
  deriving DecidableEq, Repr

/-- The database after a call, if it is made without an exception. -/
def LogCall.run (db : Database) : LogCall → Option Database
  | .putHistory entry => some (COmniTxHistoryDB.putHistory db entry.key entry.nBlock (hexStr entry.text))
  | .rollBackHistory block => COmniTxHistoryDB.rollBackHistory block db

/-- What a call does to the live entries: a rollback removes those of the blocks from `block` on. -/
def LogCall.live (entries : List LogEntry) : LogCall → List LogEntry
  | .putHistory entry => entries ++ [entry]
  | .rollBackHistory block => entries.filter fun entry => decide (entry.nBlock < block)

/-- The block at or above which the log is continued. -/
def LogCall.floor : LogCall → Int
  | .putHistory entry => entry.nBlock
  | .rollBackHistory block => block

/-- Whether a call may follow: the entry is a proper one with a key that is not live, and its block is
not below the last one, or the one of the last rollback. -/
def LogCall.Allowed (floor : Int) (entries : List LogEntry) : LogCall → Prop
  | .putHistory entry => entry.Proper ∧ entry.key ∉ entries.map LogEntry.key ∧ floor ≤ entry.nBlock
  | .rollBackHistory block => 0 ≤ block ∧ block < 2 ^ 31

/-- A sequence of calls each of which may follow the ones before. -/
def AllAllowed : (floor : Int) → List LogEntry → List LogCall → Prop
  | _, _, [] => True
  | floor, entries, call :: calls =>
      call.Allowed floor entries ∧ AllAllowed call.floor (call.live entries) calls

/-- The invariant of the log: its blocks never decrease, and stay below the floor. -/
structure Ordered (floor : Int) (entries : List LogEntry) : Prop where
  sorted : entries.Pairwise fun entry entry' => entry.nBlock ≤ entry'.nBlock
  le_floor : ∀ entry ∈ entries, entry.nBlock ≤ floor

theorem LogCall.run_records {call : LogCall} {floor : Int} {entries : List LogEntry}
    (hallowed : call.Allowed floor entries) (hlog : IsLog entries)
    (hlength : entries.length + 1 < 2 ^ 61) (hordered : Ordered floor entries) :
    call.run (records entries) = some (records (call.live entries)) ∧ IsLog (call.live entries) ∧
      Ordered call.floor (call.live entries) := by
  cases call with
  | putHistory entry =>
    obtain ⟨hproper, hfresh, hfloor⟩ := hallowed
    refine ⟨congrArg some (putHistory_records hlog entry), ⟨?_, ?_, ?_⟩, ⟨?_, ?_⟩⟩
    · intro e he
      rcases List.mem_append.mp he with he | he
      · exact hlog.proper e he
      · rw [List.mem_singleton.mp he]
        exact hproper
    · simp only [LogCall.live]
      rw [List.map_append]
      exact List.nodup_append.mpr ⟨hlog.distinct, List.nodup_singleton _, fun k hk k' hk' heq =>
        hfresh (List.mem_singleton.mp hk' ▸ heq ▸ hk)⟩
    · simpa [LogCall.live] using hlength
    · refine List.pairwise_append.mpr ⟨hordered.sorted, List.pairwise_singleton _ _, ?_⟩
      intro e he e' he'
      rw [List.mem_singleton.mp he']
      exact (hordered.le_floor e he).trans hfloor
    · intro e he
      rcases List.mem_append.mp he with he | he
      · exact (hordered.le_floor e he).trans hfloor
      · rw [List.mem_singleton.mp he]
        exact le_rfl
  | rollBackHistory block =>
    obtain ⟨hnonneg, hlt⟩ := hallowed
    have hdrop : entries.rdropWhile (fun entry => decide (block ≤ entry.nBlock)) =
        entries.filter fun entry => decide (entry.nBlock < block) := by
      have hfilter := rdropWhile_eq_filter_iff.mpr
        (hordered.sorted.imp fun hle h => by simp only [decide_eq_true_iff] at h ⊢; omega :
          entries.Pairwise fun x y => decide (block ≤ x.nBlock) = true →
            decide (block ≤ y.nBlock) = true)
      rw [hfilter]
      refine List.filter_congr fun entry _ => ?_
      rw [← decide_not]
      exact decide_eq_decide.mpr Int.not_le
    refine ⟨?_, ⟨?_, ?_, ?_⟩, ⟨?_, ?_⟩⟩
    · rw [LogCall.run, rollBackHistory_records hnonneg hlt hlog, hdrop]
      rfl
    · intro e he
      exact hlog.proper e (List.mem_of_mem_filter he)
    · exact hlog.distinct.sublist (List.filter_sublist.map _)
    · exact (List.length_filter_le _ _).trans_lt hlog.length_lt
    · exact hordered.sorted.sublist List.filter_sublist
    · intro e he
      have hlt' := (List.mem_filter.mp he).2
      rw [decide_eq_true_iff] at hlt'
      exact hlt'.le

theorem foldlM_run_records {calls : List LogCall} {floor : Int} {entries : List LogEntry}
    (hallowed : AllAllowed floor entries calls) (hlog : IsLog entries)
    (hlength : entries.length + calls.length < 2 ^ 61) (hordered : Ordered floor entries) :
    calls.foldlM LogCall.run (records entries) = some (records (calls.foldl LogCall.live entries)) ∧
      IsLog (calls.foldl LogCall.live entries) := by
  induction calls generalizing floor entries with
  | nil => exact ⟨rfl, hlog⟩
  | cons call calls ih =>
    rw [List.length_cons] at hlength
    obtain ⟨hrun, hlog', hordered'⟩ :=
      call.run_records hallowed.1 hlog (by omega) hordered
    have hshorter : (call.live entries).length + calls.length < 2 ^ 61 := by
      have hgrow : (call.live entries).length ≤ entries.length + 1 := by
        cases call with
        | putHistory entry => simp [LogCall.live]
        | rollBackHistory block =>
          exact (List.length_filter_le _ _).trans (Nat.le_succ _)
      omega
    rw [List.foldlM_cons, hrun]
    exact ih hallowed.2 hlog' hshorter hordered'

/-- **The log.**  After every sequence of calls whose blocks never decrease between rollbacks, the top is
the last index of the live entries, each of them is stored under its index, and its text is found under
its key and under its index; nothing is found under other keys. -/
theorem transaction_log {calls : List LogCall} (hallowed : AllAllowed 0 [] calls)
    (hlength : calls.length < 2 ^ 61) :
    ∃ db, calls.foldlM LogCall.run ∅ = some db ∧
      getTop db = (calls.foldl LogCall.live []).length - 1 ∧
      (∀ (i : Nat) (entry : LogEntry), (calls.foldl LogCall.live [])[i]? = some entry →
        db[showInt i]? = some (colons [entry.key, showInt entry.nBlock]) ∧
          getHistoryAt db i = entry.text ∧ getHistory db entry.key = entry.text) ∧
      ∀ key, IsHex64 key → key ∉ (calls.foldl LogCall.live []).map LogEntry.key →
        getHistory db key = [] := by
  have hempty : IsLog [] := ⟨by simp, by simp, by simp⟩
  obtain ⟨hrun, hlog⟩ := foldlM_run_records hallowed hempty (by simpa using hlength) ⟨by simp, by simp⟩
  refine ⟨_, hrun, getTop_records hlog, fun i entry hi => ⟨?_, ?_, ?_⟩, fun key hkey hout => ?_⟩
  · have hlt : i < (calls.foldl LogCall.live []).length := (List.getElem?_eq_some_iff.mp hi).1
    rw [get_records_index hlog (hlog.fits hlt.le), if_pos (by omega), Int.toNat_natCast, hi]
    rfl
  · exact getHistoryAt_records hlog hi
  · exact getHistory_records hlog hi
  · exact getHistory_records_none hlog hkey hout

/-- Two entries, a rollback that removes the second, and an entry of the same block. -/
def sampleCalls : List LogCall := [
  .putHistory ⟨uint256ToString 1, 5, [0]⟩,
  .putHistory ⟨uint256ToString 2, 7, [0]⟩,
  .rollBackHistory 7,
  .putHistory ⟨uint256ToString 3, 7, [0]⟩]

theorem transaction_log_rolledBack :
    ∃ db, sampleCalls.foldlM LogCall.run ∅ = some db ∧
      getTop db = (sampleCalls.foldl LogCall.live []).length - 1 := by
  have hallowed : AllAllowed 0 [] sampleCalls := by
    refine ⟨⟨⟨isHex64_uint256ToString _, ?_, ?_, ?_⟩, ?_, ?_⟩,
      ⟨⟨isHex64_uint256ToString _, ?_, ?_, ?_⟩, ?_, ?_⟩, ⟨?_, ?_⟩,
      ⟨⟨isHex64_uint256ToString _, ?_, ?_, ?_⟩, ?_, ?_⟩, trivial⟩ <;> decide +kernel
  obtain ⟨db, hrun, htop, -⟩ := transaction_log hallowed (by decide)
  exact ⟨db, hrun, htop⟩

end COmniTxHistoryDB

end HcOmni
