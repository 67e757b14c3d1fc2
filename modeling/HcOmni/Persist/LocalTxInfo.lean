import HcOmni.Node.Stores
import HcOmni.Persist.Rollbacks

/-!
# Parked transactions as texts

`dbLocalInfo.cpp`: transactions that arrive too early are kept in one text per height, the JSON texts of
their parameters joined by colons and split again when the block is connected.  `UniValue` writes no
colon between the values of an array, so a colon can only come from a parameter.  A vector passed to
`GetTxInfo` keeps what it contained if there is no text for the height; its callers look at the text
that is returned.
-/

namespace HcOmni

open Std Text

/-! ### JSON texts -/

/-- A value of an array of parameters: a string, or a number in the digits it was given in. -/
inductive UniParam where
  | str (val : Str)
  | num (val : Str)
  deriving DecidableEq, Repr

namespace UniParam

/-- The entry of `escapes` for a character. -/
def escapes (c : Char) : Option Str :=
  if c = '\x08' then some ['\\', 'b']
  else if c = '\t' then some ['\\', 't']
  else if c = '\n' then some ['\\', 'n']
  else if c = '\x0c' then some ['\\', 'f']
  else if c = '\r' then some ['\\', 'r']
  else if c = '"' then some ['\\', '"']
  else if c = '\\' then some ['\\', '\\']
  else if c.toNat < 32 ∨ c.toNat = 127 then some (['\\', 'u', '0', '0'] ++ hexDigits 2 c.toNat)
  else none

/-- `json_escape` -/
def jsonEscape (inS : Str) : Str := inS.flatMap fun c => (escapes c).getD [c]

def write : UniParam → Str
  | .str val => '"' :: (jsonEscape val ++ ['"'])
  | .num val => val

def val : UniParam → Str
  | .str val => val
  | .num val => val

/-- `UniValue::write` of an array -/
def writeArray (params : List UniParam) : Str :=
  '[' :: ([','].intercalate (params.map write) ++ [']'])

theorem colonFree_digitChar : ∀ d < 16, (Nat.digitChar d == ':') = false := by decide

theorem colonFree_escapes {c : Char} {text : Str} (h : escapes c = some text) : ColonFree text := by
  have hhex : ColonFree (['\\', 'u', '0', '0'] ++ hexDigits 2 c.toNat) := by
    refine List.forall_mem_append.mpr ⟨by simp, fun d hd => ?_⟩
    obtain ⟨digit, hlt, rfl⟩ := mem_hexDigits hd
    exact colonFree_digitChar digit hlt
  unfold escapes at h
  split_ifs at h <;> cases h
  any_goals decide
  exact hhex

theorem colonFree_jsonEscape {inS : Str} (h : ColonFree inS) : ColonFree (jsonEscape inS) := by
  intro c hc
  obtain ⟨d, hd, hmem⟩ := List.mem_flatMap.mp hc
  cases hescape : escapes d with
  | none =>
    rw [hescape, Option.getD_none] at hmem
    rw [List.mem_singleton.mp hmem]
    exact h d hd
  | some text =>
    rw [hescape, Option.getD_some] at hmem
    exact colonFree_escapes hescape c hmem

theorem colonFree_write {param : UniParam} (h : ColonFree param.val) : ColonFree param.write := by
  cases param with
  | str val =>
    exact List.forall_mem_cons.mpr ⟨rfl, List.forall_mem_append.mpr
      ⟨colonFree_jsonEscape h, List.forall_mem_singleton.mpr rfl⟩⟩
  | num val => exact h

theorem colonFree_commas {texts : List Str} (h : ∀ text ∈ texts, ColonFree text) :
    ColonFree ([','].intercalate texts) := by
  induction texts with
  | nil => exact fun _ hc => absurd hc List.not_mem_nil
  | cons text rest ih =>
    obtain ⟨htext, hrest⟩ := List.forall_mem_cons.mp h
    cases rest with
    | nil =>
      rw [List.intercalate_singleton]
      exact htext
    | cons next rest =>
      rw [List.intercalate_cons_cons]
      exact List.forall_mem_append.mpr ⟨List.forall_mem_append.mpr
        ⟨htext, List.forall_mem_singleton.mpr rfl⟩, ih hrest⟩

theorem field_writeArray {params : List UniParam} (h : ∀ param ∈ params, ColonFree param.val) :
    ColonFree (writeArray params) ∧ writeArray params ≠ [] := by
  have htexts : ∀ text ∈ params.map write, ColonFree text := by
    intro text htext
    obtain ⟨param, hparam, rfl⟩ := List.mem_map.mp htext
    exact colonFree_write (h param hparam)
  exact ⟨List.forall_mem_cons.mpr ⟨rfl, List.forall_mem_append.mpr
    ⟨colonFree_commas htexts, List.forall_mem_singleton.mpr rfl⟩⟩, List.cons_ne_nil _ _⟩

end UniParam

/-! ### The database -/

namespace CLocalTxInfoDB

/-- `GetTxInfo`: the text of a height, and the vector after the call. -/
def getTxInfo (db : Database) (index : Int) (vecTxList : List Str) : Str × List Str :=
  match db[showInt index]? with
  | none => ([], vecTxList)
  | some strValue => (strValue, splitColons strValue)

/-- `PutData` -/
def putData (db : Database) (nBlock : Int) (data : Str) : Database :=
  let info := (getTxInfo db nBlock []).1
  db.insert (showInt nBlock) (if info.isEmpty then data else info ++ ':' :: data)

/-- `Delete` -/
def delete (db : Database) (block : Int) : Database := db.erase (showInt block)

/-- A call that changes the database. -/
inductive Call where
  | putData (nBlock : Int) (data : Str)
  | delete (block : Int)
  deriving DecidableEq, Repr

def call (db : Database) : Call → Database
  | .putData nBlock data => putData db nBlock data
  | .delete block => delete db block

/-- The texts the calls put for a height, in their order. -/
def textsFor (b : Int) (calls : List Call) : List Str :=
  calls.filterMap fun
    | .putData nBlock data => if nBlock = b then some data else none
    | .delete _ => none

/-- The texts of a height, joined; nothing is stored for none of them. -/
def joined (texts : List Str) : Option Str := if texts = [] then none else some (colons texts)

theorem isEmpty_colons {texts : List Str} (hsome : texts ≠ []) (hne : ∀ text ∈ texts, text ≠ []) :
    (colons texts).isEmpty = false := by
  cases texts with
  | nil => exact absurd rfl hsome
  | cons first rest =>
    have hfirst : first ≠ [] := hne first List.mem_cons_self
    cases rest with
    | nil => simpa [colons] using hfirst
    | cons next rest =>
      rw [colons, List.intercalate_cons_cons]
      simp

theorem getElem?_putData_self {db : Database} {b : Int} {texts : List Str} (data : Str)
    (hdb : db[showInt b]? = joined texts) (hne : ∀ text ∈ texts, text ≠ []) :
    (putData db b data)[showInt b]? = joined (texts ++ [data]) := by
  have hnew : joined (texts ++ [data]) = some (colons (texts ++ [data])) := if_neg (by simp)
  unfold putData getTxInfo
  rw [ExtTreeMap.getElem?_insert_self, hnew, hdb]
  by_cases hsome : texts = []
  · simp [hsome, joined, colons]
  · have hold : joined texts = some (colons texts) := if_neg hsome
    rw [hold]
    simp only [isEmpty_colons hsome hne, Bool.false_eq_true, if_false]
    rw [colons, colons, intercalate_concat ':' hsome]

theorem getElem?_putData_of_ne {db : Database} {b nBlock : Int} (data : Str) (hblock : nBlock ≠ b) :
    (putData db nBlock data)[showInt b]? = db[showInt b]? := by
  have hkey : showInt nBlock ≠ showInt b := fun heq => hblock (showInt_injective heq)
  unfold putData
  rw [ExtTreeMap.getElem?_insert, if_neg (by simpa using hkey)]

theorem getElem?_delete {db : Database} {b block : Int} (hblock : block ≠ b) :
    (delete db block)[showInt b]? = db[showInt b]? := by
  have hkey : showInt block ≠ showInt b := fun heq => hblock (showInt_injective heq)
  unfold delete
  rw [ExtTreeMap.getElem?_erase, if_neg (by simpa using hkey)]

theorem getElem?_calls {b : Int} {calls : List Call} (hdelete : Call.delete b ∉ calls)
    {db : Database} {texts : List Str} (hdb : db[showInt b]? = joined texts)
    (hne : ∀ text ∈ texts ++ textsFor b calls, text ≠ []) :
    (calls.foldl call db)[showInt b]? = joined (texts ++ textsFor b calls) := by
  induction calls generalizing db texts with
  | nil => simpa [textsFor] using hdb
  | cons first rest ih =>
    obtain ⟨hfirst, hrest⟩ := not_or.mp (List.mem_cons.not.mp hdelete)
    rw [List.foldl_cons]
    cases first with
    | putData nBlock data =>
      by_cases hblock : nBlock = b
      · subst hblock
        have htexts : textsFor nBlock (.putData nBlock data :: rest) = data :: textsFor nBlock rest := by
          simp [textsFor]
        have happend : texts ++ data :: textsFor nBlock rest =
            (texts ++ [data]) ++ textsFor nBlock rest := by simp
        rw [htexts, happend] at hne ⊢
        refine ih hrest (getElem?_putData_self data hdb fun text htext => ?_) hne
        exact hne text (by simp [htext])
      · have htexts : textsFor b (.putData nBlock data :: rest) = textsFor b rest := by
          simp [textsFor, hblock]
        rw [htexts] at hne ⊢
        exact ih hrest ((getElem?_putData_of_ne data hblock).trans hdb) hne
    | delete block =>
      have hblock : block ≠ b := fun heq => hfirst (congrArg Call.delete heq.symm)
      have htexts : textsFor b (.delete block :: rest) = textsFor b rest := by simp [textsFor]
      rw [htexts] at hne ⊢
      exact ih hrest ((getElem?_delete hblock).trans hdb) hne

theorem getTxInfo_of_joined {db : Database} {b : Int} {texts : List Str}
    (hdb : db[showInt b]? = joined texts) (hsome : texts ≠ [])
    (hfields : ∀ text ∈ texts, ColonFree text ∧ text ≠ []) (vecTxList : List Str) :
    getTxInfo db b vecTxList = (colons texts, texts) := by
  have hjoined : joined texts = some (colons texts) := if_neg hsome
  unfold getTxInfo
  rw [hdb, hjoined]
  obtain ⟨first, rest, rfl⟩ := List.exists_cons_of_ne_nil hsome
  obtain ⟨hfirst, hrest⟩ := List.forall_mem_cons.mp hfields
  simp only [splitColons_colons hfirst.1 hrest]

/-- **Parked transactions come back in their order.**  The arrays that are put for a height without an
entry are returned as they were written, one after the other, whatever the vector contained and whatever
is put or deleted for other heights.  If none was put, the vector is left as it was and the text that is
returned is empty. -/
theorem getTxInfo_calls (db : Database) (b : Int) (calls : List Call) (vecTxList : List Str)
    (hempty : db[showInt b]? = none) (hdelete : Call.delete b ∉ calls)
    (harrays : ∀ text ∈ textsFor b calls, ∃ params : List UniParam,
      text = UniParam.writeArray params ∧ ∀ param ∈ params, ColonFree param.val) :
    (textsFor b calls ≠ [] →
      (getTxInfo (calls.foldl call db) b vecTxList).1 ≠ [] ∧
        (getTxInfo (calls.foldl call db) b vecTxList).2 = textsFor b calls) ∧
    (textsFor b calls = [] → getTxInfo (calls.foldl call db) b vecTxList = ([], vecTxList)) := by
  have hfields : ∀ text ∈ textsFor b calls, ColonFree text ∧ text ≠ [] := by
    intro text htext
    obtain ⟨params, rfl, hfree⟩ := harrays text htext
    exact UniParam.field_writeArray hfree
  have hstored : (calls.foldl call db)[showInt b]? = joined (textsFor b calls) := by
    have hdb : db[showInt b]? = joined [] := hempty
    have hcalls := getElem?_calls hdelete hdb (by simpa using fun text htext => (hfields text htext).2)
    rwa [List.nil_append] at hcalls
  constructor
  · intro hsome
    have hnonempty := isEmpty_colons hsome fun text htext => (hfields text htext).2
    rw [getTxInfo_of_joined hstored hsome hfields]
    exact ⟨by simpa using hnonempty, rfl⟩
  · intro hnone
    simp [getTxInfo, hstored, hnone, joined]

/-- Two transactions for block 7, with calls for block 8 between them. -/
def sampleCalls : List Call :=
  [.putData 7 (UniParam.writeArray [.str "alice".toList, .num "7".toList]), .putData 8 "x".toList,
    .delete 8, .putData 7 (UniParam.writeArray [.str "bob".toList, .num "7".toList])]

theorem getTxInfo_calls_sample :
    (getTxInfo (sampleCalls.foldl call ∅) 7 ["rest".toList]).2 =
      ["[\"alice\",7]".toList, "[\"bob\",7]".toList] := by
  have htexts : textsFor 7 sampleCalls = ["[\"alice\",7]".toList, "[\"bob\",7]".toList] := by decide
  have hcalls := (getTxInfo_calls ∅ 7 sampleCalls ["rest".toList] rfl (by decide) ?_).1 (by decide)
  · exact hcalls.2.trans htexts
  · intro text htext
    rw [htexts] at htext
    rcases List.mem_cons.mp htext with rfl | htext
    · exact ⟨[.str "alice".toList, .num "7".toList], by decide, by decide⟩
    · rw [List.mem_singleton.mp htext]
      exact ⟨[.str "bob".toList, .num "7".toList], by decide, by decide⟩

/-- **For a height without parked transactions the vector keeps what it contained.** -/
theorem exists_vector_kept :
    (∅ : Database)[showInt 7]? = none ∧ textsFor 7 [] = [] ∧
      getTxInfo (([] : List Call).foldl call ∅) 7 ["[]".toList] = ([], ["[]".toList]) := by
  decide

end CLocalTxInfoDB

end HcOmni
