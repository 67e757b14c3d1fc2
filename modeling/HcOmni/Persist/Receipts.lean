import HcOmni.Persist.Rollbacks

/-!
# Receipts of owners

What an address has received from senders to all owners is kept as one text: each receipt is followed by
a comma, and its four fields are separated by colons.  A rollback takes the text apart and writes the
receipts of the earlier blocks back.  The text of an address that has lost all of them is empty, and its
key stays.

The texts are the images of lists of receipts, on which both operations are what they are meant to be.
-/

namespace HcOmni

open Std MapSum Text Scan

/-! ### One receipt -/

namespace STOReceipt

/-- What the types of the arguments promise. -/
structure WellFormed (receipt : STOReceipt) : Prop where
  txid : receipt.txid < 2 ^ 256
  nBlock : FitsInt 32 receipt.nBlock
  propertyId : receipt.propertyId < 2 ^ 64
  amount : receipt.amount < 2 ^ 64

/-- A record as `getRecipients` reads it: a text without four fields is skipped. -/
def read (record : Str) : Option STOReceipt :=
  match splitColons record with
  | [txid, nBlock, propertyId, amount] => do
      let amount ← lexicalCastNat 64 amount
      let propertyId ← lexicalCastNat 64 propertyId
      some ⟨uint256S txid, atoi32 nBlock, propertyId, amount⟩
  | _ => none

theorem splitColons_value (receipt : STOReceipt) :
    splitColons receipt.value = [uint256ToString receipt.txid, showInt receipt.nBlock,
      decimal receipt.propertyId, decimal receipt.amount] := by
  refine splitColons_colons (field_uint256ToString _).1 ?_
  simp only [List.forall_mem_cons, List.not_mem_nil, false_imp_iff, implies_true, and_true]
  exact ⟨field_showInt _, field_decimal _, field_decimal _⟩

theorem read_value {receipt : STOReceipt} (h : receipt.WellFormed) :
    read receipt.value = some receipt := by
  simp only [read, splitColons_value, lexicalCastNat_decimal h.amount,
    lexicalCastNat_decimal h.propertyId, uint256S_uint256ToString h.txid,
    atoi32_showInt_of_fits h.nBlock]
  rfl

theorem value_commaFree (receipt : STOReceipt) : ∀ c ∈ receipt.value, (c == ',') = false := by
  intro c hc
  unfold value colons at hc
  simp only [List.intercalate_cons_cons, List.intercalate_singleton, List.mem_append,
    List.mem_singleton] at hc
  rcases hc with (hfield | rfl) | ((hfield | rfl) | ((hfield | rfl) | hfield))
  · exact (isWord_uint256ToString _).commaFree c hfield
  · decide
  · exact (isWord_showInt _).commaFree c hfield
  · decide
  · exact (isWord_decimal _).commaFree c hfield
  · decide
  · exact (isWord_decimal _).commaFree c hfield

theorem value_ne_nil (receipt : STOReceipt) : receipt.value ≠ [] := by
  intro h
  have hfields := congrArg List.length receipt.splitColons_value
  have hnone : (splitColons []).length = 1 := rfl
  rw [h, hnone] at hfields
  simp at hfields

end STOReceipt

/-! ### The text of an address -/

namespace CMPSTOList

/-- The text of a list of receipts. -/
def textOf (receipts : List STOReceipt) : Str := receipts.flatMap fun receipt => receipt.value ++ [',']

theorem splitCommas_textOf (receipts : List STOReceipt) :
    splitCommas (textOf receipts) = receipts.map STOReceipt.value ++ [[]] := by
  have htext : textOf receipts = (receipts.map STOReceipt.value).flatMap (· ++ [',']) := by
    rw [List.flatMap_map]
    rfl
  rw [htext]
  refine splitTokens_flatMap (by decide) ?_ ?_
  · exact List.forall_mem_map.mpr fun receipt _ => receipt.value_commaFree
  · exact List.forall_mem_map.mpr fun receipt _ => receipt.value_ne_nil

theorem keepRecord_value {b : Int} {receipt : STOReceipt} (h : receipt.WellFormed) (acc : Str × Bool) :
    keepRecord b acc receipt.value =
      if receipt.nBlock < b then (acc.1 ++ (receipt.value ++ [',']), acc.2) else (acc.1, true) := by
  have hblock : [uint256ToString receipt.txid, showInt receipt.nBlock, decimal receipt.propertyId,
      decimal receipt.amount].getD 1 [] = showInt receipt.nBlock := rfl
  simp only [keepRecord, receipt.splitColons_value, hblock, atoi32_showInt_of_fits h.nBlock]
  rfl

theorem foldl_keepRecord {b : Int} {receipts : List STOReceipt} (h : ∀ r ∈ receipts, r.WellFormed)
    (acc : Str × Bool) :
    (receipts.map STOReceipt.value).foldl (keepRecord b) acc =
      (acc.1 ++ textOf (receipts.filter fun r => decide (r.nBlock < b)),
        acc.2 || receipts.any fun r => decide (b ≤ r.nBlock)) := by
  induction receipts generalizing acc with
  | nil => simp [textOf]
  | cons receipt rest ih =>
    obtain ⟨hreceipt, hrest⟩ := List.forall_mem_cons.mp h
    rw [List.map_cons, List.foldl_cons, keepRecord_value hreceipt, ih hrest]
    by_cases hbelow : receipt.nBlock < b
    · have hfalse : ¬ b ≤ receipt.nBlock := by omega
      rw [if_pos hbelow, List.filter_cons_of_pos (by simpa using hbelow), List.any_cons,
        decide_eq_false hfalse, Bool.false_or]
      simp [textOf]
    · have htrue : b ≤ receipt.nBlock := by omega
      rw [if_neg hbelow, List.filter_cons_of_neg (by simpa using hbelow), List.any_cons,
        decide_eq_true htrue, Bool.true_or, Bool.or_true]

/-- **The inner loop.** -/
theorem keepRecords_textOf {b : Int} {receipts : List STOReceipt} (h : ∀ r ∈ receipts, r.WellFormed) :
    keepRecords b (textOf receipts) =
      (textOf (receipts.filter fun r => decide (r.nBlock < b)),
        receipts.any fun r => decide (b ≤ r.nBlock)) := by
  -- the empty text behind the last comma has one field and is skipped
  have hend : ∀ acc : Str × Bool, keepRecord b acc [] = acc := fun acc => rfl
  unfold keepRecords
  rw [splitCommas_textOf, List.foldl_append, foldl_keepRecord h, List.foldl_cons, List.foldl_nil, hend,
    List.nil_append, Bool.false_or]

/-- The receipts in a text. -/
def readReceipts (strValue : Str) : List STOReceipt := (splitCommas strValue).filterMap STOReceipt.read

theorem readReceipts_textOf {receipts : List STOReceipt} (h : ∀ r ∈ receipts, r.WellFormed) :
    readReceipts (textOf receipts) = receipts := by
  unfold readReceipts
  rw [splitCommas_textOf, List.filterMap_append]
  have hend : [[]].filterMap STOReceipt.read = [] := rfl
  rw [hend, List.append_nil]
  induction receipts with
  | nil => rfl
  | cons receipt rest ih =>
    obtain ⟨hreceipt, hrest⟩ := List.forall_mem_cons.mp h
    rw [List.map_cons, List.filterMap_cons, STOReceipt.read_value hreceipt, ih hrest]

end CMPSTOList

/-! ### The database -/

/-- A call that changes the database. -/
inductive STOCall where
  | recordSTOReceive (address : Address) (receipt : STOReceipt)
  | deleteAboveBlock (blockNum : Int)
  deriving DecidableEq, Repr

def STOCall.WellFormed : STOCall → Prop
  | .recordSTOReceive _ receipt => receipt.WellFormed
  | .deleteAboveBlock _ => True

/-- The lists of receipts of all addresses. -/
abbrev Receipts := ExtTreeMap Address (List STOReceipt) compare

namespace CMPSTOList

def call (db : Database) : STOCall → Database
  | .recordSTOReceive address receipt => recordSTOReceive address receipt db
  | .deleteAboveBlock blockNum => (deleteAboveBlock blockNum db).2

/-- The database after a sequence of calls. -/
def after (calls : List STOCall) : Database := calls.foldl call ∅

/-- The receipts of an address, in the order of their text. -/
def receiptsFor (db : Database) (address : Address) : List STOReceipt :=
  (db[address]?.map readReceipts).getD []

/-- What a call is meant to do to the lists. -/
def meant (lists : Receipts) : STOCall → Receipts
  | .recordSTOReceive address receipt => lists.insert address (lists[address]?.getD [] ++ [receipt])
  | .deleteAboveBlock blockNum =>
      lists.map fun _ receipts => receipts.filter fun r => decide (r.nBlock < blockNum)

/-- All receipts are of the types of their arguments. -/
def Valid (lists : Receipts) : Prop :=
  ∀ (address : Address) (receipts : List STOReceipt), lists[address]? = some receipts →
    ∀ r ∈ receipts, r.WellFormed

variable {lists : Receipts}

theorem recordSTOReceive_map (address : Address) (receipt : STOReceipt) :
    recordSTOReceive address receipt (lists.map fun _ => textOf) =
      (meant lists (.recordSTOReceive address receipt)).map fun _ => textOf := by
  unfold recordSTOReceive meant
  rw [map_insert, ExtTreeMap.getElem?_map]
  cases lists[address]? with
  | none => simp [textOf]
  | some receipts => simp [textOf]

/-- **A rollback on the lists**: the number of lists that get shorter, and the lists after it. -/
theorem deleteAboveBlock_map (hvalid : Valid lists) (b : Int) :
    deleteAboveBlock b (lists.map fun _ => textOf) =
      (lists.toList.countP fun e => e.2.any fun r => decide (b ≤ r.nBlock),
        (meant lists (.deleteAboveBlock b)).map fun _ => textOf) := by
  have hloop : deleteAboveBlock b (lists.map fun _ => textOf) =
      (lists.map fun _ => textOf).toList.foldl
        (scanUpdate (fun text => (keepRecords b text).2) fun text => (keepRecords b text).1)
        (0, lists.map fun _ => textOf) := rfl
  rw [hloop, foldl_scanUpdate]
  refine Prod.ext ?_ (ExtTreeMap.ext_getElem? fun address => ?_)
  · rw [ExtTreeMap.toList_map, List.countP_map]
    refine List.countP_congr fun e he => ?_
    rw [Function.comp_apply, keepRecords_textOf (hvalid e.1 e.2 (mem_toList.mp he))]
  · simp only [meant, ExtTreeMap.getElem?_map, Option.map_map]
    cases hget : lists[address]? with
    | none => rfl
    | some receipts =>
      simp only [Option.map_some, Function.comp_apply, keepRecords_textOf (hvalid address receipts hget)]
      split
      · rfl
      next hnone =>
        -- nothing is of a later block, so nothing is filtered out
        have hall : ∀ r ∈ receipts, decide (r.nBlock < b) = true := by
          intro r hr
          rw [decide_eq_true_eq]
          by_contra hlate
          exact hnone (List.any_eq_true.mpr ⟨r, hr, decide_eq_true (by omega)⟩)
        rw [List.filter_eq_self.mpr hall]

theorem valid_meant (hvalid : Valid lists) {c : STOCall} (hc : c.WellFormed) : Valid (meant lists c) := by
  intro address receipts hget r hr
  cases c with
  | recordSTOReceive other receipt =>
    rcases getElem?_of_insert hget with ⟨-, rfl⟩ | ⟨-, hold⟩
    · rcases List.mem_append.mp hr with hbefore | hnew
      · cases hother : lists[other]? with
        | none => simp [hother] at hbefore
        | some before =>
          rw [hother] at hbefore
          exact hvalid other before hother r hbefore
      · rw [List.mem_singleton.mp hnew]
        exact hc
    · exact hvalid address receipts hold r hr
  | deleteAboveBlock b =>
    rw [meant, ExtTreeMap.getElem?_map, Option.map_eq_some_iff] at hget
    obtain ⟨before, hbefore, rfl⟩ := hget
    exact hvalid address before hbefore r (List.mem_of_mem_filter hr)

theorem call_map (hvalid : Valid lists) (c : STOCall) :
    call (lists.map fun _ => textOf) c = (meant lists c).map fun _ => textOf := by
  cases c with
  | recordSTOReceive address receipt => exact recordSTOReceive_map address receipt
  | deleteAboveBlock b => exact congrArg Prod.snd (deleteAboveBlock_map hvalid b)

/-- **The texts are the lists**, after every sequence of calls. -/
theorem after_eq {calls : List STOCall} (hcalls : ∀ c ∈ calls, c.WellFormed) :
    ∃ lists, Valid lists ∧ after calls = lists.map fun _ => textOf := by
  suffices h : ∀ lists, Valid lists →
      ∃ lists', Valid lists' ∧
        calls.foldl call (lists.map fun _ => textOf) = lists'.map fun _ => textOf by
    have hempty : Valid ∅ := by
      intro address receipts hget
      rw [ExtTreeMap.getElem?_empty] at hget
      cases hget
    rw [after, ← map_empty textOf]
    exact h ∅ hempty
  induction calls with
  | nil => exact fun lists hvalid => ⟨lists, hvalid, rfl⟩
  | cons c rest ih =>
    intro lists hvalid
    obtain ⟨hc, hrest⟩ := List.forall_mem_cons.mp hcalls
    rw [List.foldl_cons, call_map hvalid]
    exact ih hrest _ (valid_meant hvalid hc)

theorem receiptsFor_map (hvalid : Valid lists) (address : Address) :
    receiptsFor (lists.map fun _ => textOf) address = lists[address]?.getD [] := by
  unfold receiptsFor
  rw [ExtTreeMap.getElem?_map]
  cases hget : lists[address]? with
  | none => rfl
  | some receipts => exact readReceipts_textOf (hvalid address receipts hget)

theorem ncard_lost (lists : Receipts) (b : Int) :
    Set.ncard {address : Address | (meant lists (.deleteAboveBlock b))[address]?.getD [] ≠
        lists[address]?.getD []} =
      lists.toList.countP fun e => e.2.any fun r => decide (b ≤ r.nBlock) := by
  have hlost : ∀ receipts : List STOReceipt,
      (receipts.filter fun r => decide (r.nBlock < b)) ≠ receipts ↔
        (receipts.any fun r => decide (b ≤ r.nBlock)) = true := by
    intro receipts
    rw [ne_eq, List.filter_eq_self]
    simp
  have hset : {address : Address | (meant lists (.deleteAboveBlock b))[address]?.getD [] ≠
      lists[address]?.getD []} =
      (((lists.toList.filter fun e => e.2.any fun r => decide (b ≤ r.nBlock)).map
        Prod.fst).toFinset : Set Address) := by
    ext address
    simp only [meant, ExtTreeMap.getElem?_map, Set.mem_ofPred_eq, List.coe_toFinset, List.mem_map,
      List.mem_filter]
    cases hget : lists[address]? with
    | none =>
      refine ⟨fun h => absurd rfl h, ?_⟩
      rintro ⟨e, ⟨he, -⟩, rfl⟩
      rw [mem_toList, hget] at he
      cases he
    | some receipts =>
      rw [Option.map_some, Option.getD_some, Option.getD_some, hlost]
      constructor
      · exact fun hany => ⟨(address, receipts), ⟨mem_toList.mpr hget, hany⟩, rfl⟩
      · rintro ⟨e, ⟨he, hany⟩, rfl⟩
        rw [mem_toList, hget] at he
        rw [Option.some.inj he]
        exact hany
  have hnodup : ((lists.toList.filter fun e => e.2.any fun r => decide (b ≤ r.nBlock)).map
      Prod.fst).Nodup := (nodup_keys_toList lists).sublist (List.filter_sublist.map Prod.fst)
  rw [hset, Set.ncard_coe_finset, List.toFinset_card_of_nodup hnodup, List.length_map,
    List.countP_eq_length_filter]

/-- **The rollback of the receipts is exact.**  After every sequence of calls a rollback leaves every
address its receipts of the blocks below `b`, in their order, and returns the number of addresses that
lost one; and a new receipt is appended to those of its address, which may be none. -/
theorem deleteAboveBlock_receiptsFor {calls : List STOCall} (hcalls : ∀ c ∈ calls, c.WellFormed) :
    (∀ b : Int,
      (∀ address, receiptsFor (deleteAboveBlock b (after calls)).2 address =
        (receiptsFor (after calls) address).filter fun r => decide (r.nBlock < b)) ∧
      (deleteAboveBlock b (after calls)).1 =
        Set.ncard {address | receiptsFor (deleteAboveBlock b (after calls)).2 address ≠
          receiptsFor (after calls) address}) ∧
    ∀ (address : Address) (receipt : STOReceipt), receipt.WellFormed → ∀ other,
      receiptsFor (recordSTOReceive address receipt (after calls)) other =
        receiptsFor (after calls) other ++ if other = address then [receipt] else [] := by
  obtain ⟨lists, hvalid, hafter⟩ := after_eq hcalls
  rw [hafter]
  refine ⟨fun b => ?_, fun address receipt hreceipt other => ?_⟩
  · have hrolled : Valid (meant lists (.deleteAboveBlock b)) := valid_meant hvalid trivial
    simp only [deleteAboveBlock_map hvalid, receiptsFor_map hrolled, receiptsFor_map hvalid]
    refine ⟨fun address => ?_, (ncard_lost lists b).symm⟩
    rw [meant, ExtTreeMap.getElem?_map]
    cases lists[address]? with
    | none => rfl
    | some receipts => rfl
  · have hrecorded : Valid (meant lists (.recordSTOReceive address receipt)) :=
      valid_meant hvalid hreceipt
    rw [recordSTOReceive_map, receiptsFor_map hrecorded, receiptsFor_map hvalid, meant]
    by_cases hother : other = address
    · rw [hother, ExtTreeMap.getElem?_insert_self, if_pos rfl, Option.getD_some]
    · rw [getElem?_insert_of_ne (Ne.symm hother), if_neg hother, List.append_nil]

/-- Two receipts of one address and their rollback, behind which a third is written. -/
theorem deleteAboveBlock_receiptsFor_sample :
    let calls : List STOCall := [.recordSTOReceive "owner".toList ⟨1, 10, 3, 500⟩,
      .deleteAboveBlock 10, .recordSTOReceive "owner".toList ⟨2, 11, 3, 600⟩]
    receiptsFor (deleteAboveBlock 12 (after calls)).2 "owner".toList =
      (receiptsFor (after calls) "owner".toList).filter fun r => decide (r.nBlock < 12) := by
  intro calls
  have hfits : ∀ c ∈ calls, c.WellFormed := by
    have hten : FitsInt 32 10 := ⟨by decide, by decide⟩
    have heleven : FitsInt 32 11 := ⟨by decide, by decide⟩
    simp only [calls, List.forall_mem_cons, List.not_mem_nil, false_imp_iff, implies_true, and_true]
    exact ⟨⟨by decide, hten, by decide, by decide⟩, trivial, ⟨by decide, heleven, by decide, by decide⟩⟩
  exact ((deleteAboveBlock_receiptsFor hfits).1 12).1 "owner".toList

end CMPSTOList

end HcOmni
