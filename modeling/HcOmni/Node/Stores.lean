import HcOmni.Lib.Bisect
import HcOmni.Persist.Format

/-!
# The databases of the node

The stores around the engine: the messages parked for later (`dbLocalInfo.cpp`), the transactions
seen so far (`dbTxHistory.cpp`) and the connected blocks (`dbBlockHistory.cpp`).

Each of them keeps its records under decimal numbers or hashes in one database.  The two kinds of
keys never meet, a hash having 64 digits, so they are kept as two maps.  Where a record is a text
composed from fields, its fields are kept.
-/

namespace HcOmni

open Std Text MapSum

/-! ### Messages of the chain -/

/-- The parameters of `omni_processtx`, with the hashes and the script as texts. -/
structure TxMessage where
  sender : Address
  reference : Address
  txHash : Str
  blockHash : Str
  block : Int
  idx : Int
  scriptEncode : Str
  fee : Int
  time : Int
  deriving DecidableEq, Repr

/-- `vecTxHash` -/
def TxMessage.vecTxHash (message : TxMessage) : Hash := uint256S message.txHash

/-- Parked messages are joined by colons and separated again at every colon, so a message with one
in a field comes back in pieces, the first of which is no JSON text. -/
def TxMessage.readable (message : TxMessage) : Bool :=
  [message.sender, message.reference, message.txHash, message.blockHash,
    message.scriptEncode].all fun field => !field.contains ':'

/-- The parameters of `omni_onblockconnected`. -/
structure BlockMessage where
  height : Int
  hash : Str
  time : Int
  deriving DecidableEq, Repr

/-! ### Parked messages -/

theorem keyed_noBlocks (height : Int) (message : BlockMessage)
    (h : (∅ : ExtTreeMap Int BlockMessage compare)[height]? = some message) :
    message.height = height := by
  simp at h

/-- `CLocalBlockInfo`: at most one message for a height. -/
structure CLocalBlockInfo where
  info : ExtTreeMap Int BlockMessage compare := ∅
  keyed : ∀ (height : Int) (message : BlockMessage), info[height]? = some message →
    message.height = height := by exact keyed_noBlocks

namespace CLocalBlockInfo

def putInfo (store : CLocalBlockInfo) (message : BlockMessage) : CLocalBlockInfo where
  info := store.info.insert message.height message
  keyed := by
    intro height message' hget
    rcases getElem?_of_insert hget with ⟨rfl, rfl⟩ | ⟨-, hget⟩
    · rfl
    · exact store.keyed _ _ hget

def getBlockInfo (store : CLocalBlockInfo) (index : Int) : Option BlockMessage := store.info[index]?

theorem getBlockInfo_putInfo (store : CLocalBlockInfo) (message : BlockMessage) (index : Int) :
    (store.putInfo message).getBlockInfo index =
      if message.height = index then some message else store.getBlockInfo index := by
  unfold getBlockInfo putInfo
  rw [ExtTreeMap.getElem?_insert]
  simp only [LawfulEqCmp.compare_eq_iff_eq]

/-- The store with the messages of some heights removed. -/
def discard (store : CLocalBlockInfo) (gone : Int → Bool) : CLocalBlockInfo where
  info := store.info.filter fun height _ => !gone height
  keyed := by
    intro height message hget
    exact store.keyed _ _ (getElem?_filter_eq_some.mp hget).1

def delete (store : CLocalBlockInfo) (block : Int) : CLocalBlockInfo :=
  store.discard fun height => decide (height = block)

def rollBackHistory (store : CLocalBlockInfo) (block : Int) : CLocalBlockInfo :=
  store.discard fun height => decide (block ≤ height)

end CLocalBlockInfo

theorem keyed_noTxs (height : Int) (messages : List TxMessage)
    (h : (∅ : ExtTreeMap Int (List TxMessage) compare)[height]? = some messages) :
    ∀ message ∈ messages, message.block = height := by
  simp at h

/-- `CLocalTxInfo`: for every height the messages in the order in which they arrived. -/
structure CLocalTxInfo where
  info : ExtTreeMap Int (List TxMessage) compare := ∅
  keyed : ∀ (height : Int) (messages : List TxMessage), info[height]? = some messages →
    ∀ message ∈ messages, message.block = height := by exact keyed_noTxs

namespace CLocalTxInfo

/-- `GetTxInfo`: the messages of a height, none if there is no record. -/
def getTxInfo (store : CLocalTxInfo) (index : Int) : List TxMessage := store.info.getD index []

theorem block_of_mem_getTxInfo {store : CLocalTxInfo} {index : Int} {message : TxMessage}
    (h : message ∈ store.getTxInfo index) : message.block = index := by
  unfold getTxInfo at h
  rw [ExtTreeMap.getD_eq_getD_getElem?] at h
  cases hget : store.info[index]? with
  | none => simp [hget] at h
  | some messages =>
    rw [hget] at h
    exact store.keyed index messages hget message h

def putData (store : CLocalTxInfo) (message : TxMessage) : CLocalTxInfo where
  info := store.info.insert message.block (store.getTxInfo message.block ++ [message])
  keyed := by
    intro height messages hget message' hmem
    rcases getElem?_of_insert hget with ⟨rfl, rfl⟩ | ⟨-, hget⟩
    · rcases List.mem_append.mp hmem with hold | hnew
      · exact block_of_mem_getTxInfo hold
      · rw [List.mem_singleton.mp hnew]
    · exact store.keyed _ _ hget _ hmem

theorem getTxInfo_putData (store : CLocalTxInfo) (message : TxMessage) (index : Int) :
    (store.putData message).getTxInfo index =
      store.getTxInfo index ++ if message.block = index then [message] else [] := by
  unfold getTxInfo putData
  simp only [ExtTreeMap.getD_insert, LawfulEqCmp.compare_eq_iff_eq]
  by_cases h : message.block = index
  · rw [if_pos h, if_pos h, h]
    rfl
  · rw [if_neg h, if_neg h, List.append_nil]

def discard (store : CLocalTxInfo) (gone : Int → Bool) : CLocalTxInfo where
  info := store.info.filter fun height _ => !gone height
  keyed := by
    intro height messages hget
    exact store.keyed _ _ (getElem?_filter_eq_some.mp hget).1

theorem getTxInfo_discard (store : CLocalTxInfo) (gone : Int → Bool) (index : Int) :
    (store.discard gone).getTxInfo index = if gone index then [] else store.getTxInfo index := by
  unfold getTxInfo discard
  rw [ExtTreeMap.getD_eq_getD_getElem?, ExtTreeMap.getD_eq_getD_getElem?, getElem?_filter]
  cases hgone : gone index with
  | true => cases store.info[index]? <;> rfl
  | false => cases store.info[index]? <;> rfl

def delete (store : CLocalTxInfo) (block : Int) : CLocalTxInfo :=
  store.discard fun height => decide (height = block)

def rollBackHistory (store : CLocalTxInfo) (block : Int) : CLocalTxInfo :=
  store.discard fun height => decide (block ≤ height)

end CLocalTxInfo

/-! ### Transactions seen so far -/

theorem dense_noTxs (i : Int) : i ∈ (∅ : ExtTreeMap Int (Str × Int) compare) ↔
    0 ≤ i ∧ i < (∅ : ExtTreeMap Int (Str × Int) compare).size := by
  simp

/-- `COmniTxHistory`: the records by index, each naming a key and a block, and the records by key,
each with a block and an index.  The text of the transaction is not kept. -/
structure COmniTxHistory where
  byIndex : ExtTreeMap Int (Str × Int) compare := ∅
  byKey : ExtTreeMap Str (Int × Int) compare := ∅
  dense : ∀ i, i ∈ byIndex ↔ 0 ≤ i ∧ i < byIndex.size := by exact dense_noTxs

namespace COmniTxHistory

variable (history : COmniTxHistory)

def countRecords : Int := history.byIndex.size + history.byKey.size

def isExist (index : Int) : Bool := history.byIndex.contains index

/-- `GetTop`: the largest index, found by bisection. -/
def getTop : Int :=
  let b := Bisection.search history.isExist (history.countRecords.toNat + 1)
    { left := 0, right := history.countRecords }
  let index := (b.left + b.right) / 2
  if !history.isExist index then b.lastIndex
  else if b.lastIndex > index then b.lastIndex else index

theorem isExist_iff {history : COmniTxHistory} {i : Int} :
    history.isExist i = true ↔ 0 ≤ i ∧ i < history.byIndex.size := by
  unfold isExist
  rw [ExtTreeMap.contains_iff_mem, history.dense]

theorem getTop_eq : history.getTop = history.byIndex.size - 1 :=
  Bisection.lastFound_search (by omega) (by simp only [countRecords]; omega) fun _ _ _ => isExist_iff

/-- `PutHistory` -/
def putHistory (key : Str) (nBlock : Int) : COmniTxHistory where
  byIndex := history.byIndex.insert (history.getTop + 1) (key, nBlock)
  byKey := history.byKey.insert key (nBlock, history.getTop + 1)
  dense := by
    intro i
    have hnew : ¬history.byIndex.contains (history.getTop + 1) = true := by
      rw [ExtTreeMap.contains_iff_mem, history.dense, getTop_eq]
      omega
    rw [ExtTreeMap.mem_insert, ExtTreeMap.size_insert, if_neg hnew, history.dense, getTop_eq,
      LawfulEqCmp.compare_eq_iff_eq]
    omega

/-- `GetHistory(key)`, nothing for the empty text. -/
def getHistory (key : Str) : Option (Int × Int) := history.byKey[key]?

/-- Removes the newest record and the one its key leads to. -/
def dropTop (key : Str) : COmniTxHistory where
  byIndex := history.byIndex.erase (history.byIndex.size - 1 : Int)
  byKey := history.byKey.erase key
  dense := by
    intro i
    rw [ExtTreeMap.mem_erase, ExtTreeMap.size_erase, history.dense, ne_eq,
      LawfulEqCmp.compare_eq_iff_eq]
    split
    · next htop =>
        rw [ExtTreeMap.contains_iff_mem, history.dense] at htop
        omega
    · next hnone =>
        rw [ExtTreeMap.contains_iff_mem, history.dense] at hnone
        omega

/-- `(uint32_t)x` -/
def toUInt32 (x : Int) : Int := x % 2 ^ 32

/-- The loop of `RollBackHistory`: from the newest record on, until one of an earlier block. -/
def rollBackLoop (block : Int) : (rounds : Nat) → COmniTxHistory → COmniTxHistory
  | 0, history => history
  | rounds + 1, history =>
      match history.byIndex[history.getTop]? with
      | none => history
      | some (key, historyBlock) =>
          if toUInt32 historyBlock ≥ toUInt32 block then
            rollBackLoop block rounds (history.dropTop key)
          else history

def rollBackHistory (block : Int) : COmniTxHistory :=
  rollBackLoop block history.byIndex.size history

end COmniTxHistory

/-! ### Connected blocks -/

structure BlockRecord where
  height : Int
  hash : Hash
  time : Int
  deriving DecidableEq, Repr

theorem keyed_noRecords (height : Int) (record : BlockRecord)
    (h : (∅ : ExtTreeMap Int BlockRecord compare)[height]? = some record) :
    record.height = height := by
  simp at h

/-- `COmniBlockHistory`: every block under its height and under its hash. -/
structure COmniBlockHistory where
  byHeight : ExtTreeMap Int BlockRecord compare := ∅
  byHash : ExtTreeMap Hash BlockRecord compare := ∅
  keyed : ∀ (height : Int) (record : BlockRecord), byHeight[height]? = some record →
    record.height = height := by exact keyed_noRecords

namespace COmniBlockHistory

variable (history : COmniBlockHistory)

/-- `GetBlockHistory(index, ...)` -/
def getBlockHistory (index : Int) : Option BlockRecord := history.byHeight[index]?

/-- `GetBlockHistory(hash, ...)` -/
def getBlockHistoryByHash (hash : Hash) : Option BlockRecord := history.byHash[hash]?

def putBlockHistory (height : Int) (hash : Hash) (blockTime : Int) : COmniBlockHistory where
  byHeight := history.byHeight.insert height ⟨height, hash, blockTime⟩
  byHash := history.byHash.insert hash ⟨height, hash, blockTime⟩
  keyed := by
    intro height' record hget
    rcases getElem?_of_insert hget with ⟨rfl, rfl⟩ | ⟨-, hget⟩
    · rfl
    · exact history.keyed _ _ hget

theorem getBlockHistoryByHash_putBlockHistory (height : Int) (hash hash' : Hash)
    (blockTime : Int) :
    (history.putBlockHistory height hash blockTime).getBlockHistoryByHash hash' =
      if hash = hash' then some ⟨height, hash, blockTime⟩
      else history.getBlockHistoryByHash hash' := by
  unfold getBlockHistoryByHash putBlockHistory
  simp only [ExtTreeMap.getElem?_insert, LawfulEqCmp.compare_eq_iff_eq]

/-- What the search loops look at: `GetBlockHistory` left `curHeight` at something else than -1. -/
def isThere (index : Int) : Bool :=
  match history.getBlockHistory index with
  | some record => record.height != -1
  | none => false

/-- The records with their keys as texts. -/
def rows : List (Str × BlockRecord) :=
  history.byHeight.toList.map (fun entry => (showInt entry.1, entry.2)) ++
    history.byHash.toList.map fun entry => (uint256ToString entry.1, entry.2)

/-- `GetLeftTopBlock`: the height in the record that comes first in the order of the texts. -/
def getLeftTopBlock : Int :=
  match history.rows.foldl (fun first row => match first with
      | none => some row
      | some best => if compare row.1 best.1 = .lt then some row else some best) none with
  | some row => row.2.height
  | none => 0

/-- The loop of `GetRightNilBlock`; every round finds another block. -/
def doubleUntilNil : (rounds : Nat) → Int → Int
  | 0, right => right
  | rounds + 1, right =>
      if history.isThere right then doubleUntilNil rounds (2 * right) else right

def getRightNilBlock (left : Int) : Int :=
  history.doubleUntilNil (history.byHeight.size + 1) (if left ≤ 0 then 1 else left)

/-- `GetTopBlock` -/
def getTopBlock : Int :=
  let left := history.getLeftTopBlock
  let right := history.getRightNilBlock left
  let b := Bisection.search history.isThere ((right - left).toNat + 1)
    { left := left, right := right }
  match history.getBlockHistory b.left with
  | some record => if record.height = -1 then b.index else record.height
  | none => b.index

/-- One round of the loop of `RollBackHistory`. -/
def dropBlock (block : Int) (history : COmniBlockHistory) (index : Int) : COmniBlockHistory :=
  match history.getBlockHistory index with
  | some record =>
      if record.height ≥ block then
        { byHeight := history.byHeight.erase record.height
          byHash := history.byHash.erase record.hash
          keyed := fun height _ hget =>
            history.keyed height _ (getElem?_of_erase hget).2 }
      else history
  | none => history

/-- `RollBackHistory`: the blocks from `block` to `top` are removed. -/
def rollBackHistory (block top : Int) : COmniBlockHistory :=
  ((List.range (top - block + 1).toNat).map fun i : Nat => block + (i : Int)).foldl (dropBlock block)
    history

end COmniBlockHistory

end HcOmni
