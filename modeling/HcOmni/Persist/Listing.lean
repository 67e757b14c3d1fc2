import HcOmni.Persist.Rollbacks

/-!
# Listing the recorded transactions

`getMPTransactionHash` takes every record with four fields for the main record of a transaction and reads
the hash from the front of its key.  The main record of cancelled orders has four fields as well, under
a key with a suffix, and so has a payment whose buyer or seller is empty.
-/

namespace HcOmni

open MapSum Text Scan

namespace TxListCall

/-- The transaction a call is about. -/
def txid : TxListCall → Hash
  | .recordTX txid .. => txid
  | .recordPaymentTX txid .. => txid
  | .recordMetaDExCancelTX txidMaster .. => txidMaster
  | .recordSendAllSubRecord txid .. => txid
  | .setDBVersion => 0

def isCancel : TxListCall → Bool
  | .recordMetaDExCancelTX .. => true
  | _ => false

end TxListCall

/-- The number of fields of a record. -/
def TxListEntry.fieldCount (entry : TxListEntry) : Nat := (splitColons entry.value).length

def TxListEntry.isPayment : TxListEntry → Bool
  | .payment .. => true
  | _ => false

theorem length_uint256ToString (hash : Hash) : (uint256ToString hash).length = 64 :=
  length_hexDigits 64 hash

namespace CMPTxList

/-- What the loop makes of a record: its second field, and the hash its key begins with. -/
def listed? (entry : Str × Str) : Option (Int × Hash) :=
  let vstr := splitColons entry.2
  if vstr.length = 4 then some (atoi32 (vstr.getD 1 []), uint256S entry.1) else none

/-- `getMPTransactionHash` -/
def getMPTransactionHash (db : Database) : List Hash :=
  ((db.toList.filterMap listed?).mergeSort loadsBefore).map Prod.snd

/-- The transaction has a main record, of a block. -/
def MainRecord (calls : List TxListCall) (txid : Hash) (nBlock : Int) : Prop :=
  ∃ fValid type nValue, (entries calls)[uint256ToString txid]? = some (.main fValid nBlock type nValue)

/-- Every transaction with a main record once, nothing else, and blocks in order. -/
structure ListsMainRecords (calls : List TxListCall) (hashs : List Hash) : Prop where
  nodup : hashs.Nodup
  mem_iff : ∀ txid, txid ∈ hashs ↔ txid < 2 ^ 256 ∧ ∃ nBlock, MainRecord calls txid nBlock
  ordered : hashs.Pairwise fun txid txid' => ∀ nBlock nBlock', MainRecord calls txid nBlock →
    MainRecord calls txid' nBlock' → nBlock ≤ nBlock'

/-! ### Where records are stored -/

/-- The places of records: main records under the hash, those of cancelled orders and payments under the
hash and a suffix, and the others. -/
inductive StoredAs : Str → TxListEntry → Prop
  | main {txid : Hash} {fValid : Bool} {nBlock : Int} {type nValue : Nat} (htxid : txid < 2 ^ 256) :
      StoredAs (uint256ToString txid) (.main fValid nBlock type nValue)
  | cancels {txid : Hash} {fValid : Bool} {nBlock : Int} {type nValue : Nat}
      (htxid : txid < 2 ^ 256) :
      StoredAs (uint256ToString txid ++ ['-', 'C']) (.main fValid nBlock type nValue)
  | payment {txid : Hash} {nBlock : Int} {number vout nValue : Nat} {buyer seller : Str}
      {propertyId : PropertyId} (htxid : txid < 2 ^ 256) :
      StoredAs (uint256ToString txid ++ '-' :: decimal number)
        (.payment nBlock vout buyer seller propertyId nValue)
  | other {key : Str} {entry : TxListEntry} (hfields : entry.fieldCount ≠ 4) : StoredAs key entry

theorem splitColons_main (fValid : Bool) (nBlock : Int) (type nValue : Nat) :
    splitColons (TxListEntry.main fValid nBlock type nValue).value =
      [decimal (if fValid then 1 else 0), showInt nBlock, decimal type, decimal nValue] :=
  splitColons_colons (field_decimal _).1 (by
    simp only [List.forall_mem_cons, List.not_mem_nil, false_imp_iff, implies_true, and_true]
    exact ⟨field_showInt _, field_decimal _, field_decimal _⟩)

theorem fieldCount_cancel (nBlock : Int) (txidSub : Hash) (propertyId : PropertyId) (nValue : Nat) :
    (TxListEntry.cancel nBlock txidSub propertyId nValue).fieldCount = 3 := by
  unfold TxListEntry.fieldCount TxListEntry.value
  rw [splitColons_colons (field_uint256ToString _).1 (by
    simp only [List.forall_mem_cons, List.not_mem_nil, false_imp_iff, implies_true, and_true]
    exact ⟨field_decimal _, field_decimal _⟩)]
  rfl

theorem fieldCount_sendAll (propertyId : PropertyId) (block nValue : Int) :
    (TxListEntry.sendAll propertyId block nValue).fieldCount = 3 := by
  unfold TxListEntry.fieldCount TxListEntry.value
  rw [splitColons_colons (field_decimal _).1 (by
    simp only [List.forall_mem_cons, List.not_mem_nil, false_imp_iff, implies_true, and_true]
    exact ⟨field_showInt _, field_showInt _⟩)]
  rfl

theorem fieldCount_dbversion (version : Nat) : (TxListEntry.dbversion version).fieldCount = 1 := by
  unfold TxListEntry.fieldCount TxListEntry.value
  rw [splitColons, splitTokens, splitFrom_of_free (field_decimal version).1]
  rfl

theorem storedAs_written {stored : Str → Option Str} {call : TxListCall}
    (htxid : call.txid < 2 ^ 256) : ∀ entry ∈ written stored call, StoredAs entry.1 entry.2 := by
  cases call with
  | recordTX => exact List.forall_mem_singleton.mpr (.main htxid)
  | recordPaymentTX =>
    exact List.forall_mem_cons.mpr ⟨.main htxid, List.forall_mem_singleton.mpr
      (.payment htxid)⟩
  | recordMetaDExCancelTX =>
    exact List.forall_mem_cons.mpr ⟨.cancels htxid, List.forall_mem_singleton.mpr
      (.other (by rw [fieldCount_cancel]; decide))⟩
  | recordSendAllSubRecord =>
    exact List.forall_mem_singleton.mpr (.other (by rw [fieldCount_sendAll]; decide))
  | setDBVersion =>
    exact List.forall_mem_singleton.mpr (.other (by rw [fieldCount_dbversion]; decide))

variable {calls : List TxListCall} {key : Str} {entry : TxListEntry}

theorem storedAs_of_entries (htxids : ∀ call ∈ calls, call.txid < 2 ^ 256)
    (hget : (entries calls)[key]? = some entry) : StoredAs key entry := by
  obtain ⟨call, hcall, stored, hwritten⟩ := exists_written_of_entries hget
  exact storedAs_written (htxids call hcall) _ hwritten

theorem cancel_of_entries {txid : Hash}
    (hget : (entries calls)[uint256ToString txid ++ ['-', 'C']]? = some entry) :
    (∃ call ∈ calls, call.isCancel = true) ∧ ∃ fValid nBlock type nValue,
      entry = .main fValid nBlock type nValue := by
  obtain ⟨call, hcall, stored, hwritten⟩ := exists_written_of_entries hget
  have hsuffix : ∀ {other : Hash} {suffix : Str},
      uint256ToString txid ++ ['-', 'C'] = uint256ToString other ++ suffix → suffix = ['-', 'C'] := by
    intro other suffix heq
    have hlength : (uint256ToString txid).length = (uint256ToString other).length := by
      rw [length_uint256ToString, length_uint256ToString]
    exact (List.append_inj_right heq hlength).symm
  cases call with
  | recordTX other =>
    obtain ⟨hkey, -⟩ := Prod.mk.inj (List.mem_singleton.mp hwritten)
    have := hsuffix (hkey.trans (List.append_nil _).symm)
    cases this
  | recordPaymentTX other =>
    rcases List.mem_cons.mp hwritten with hmain | hsub
    · obtain ⟨hkey, -⟩ := Prod.mk.inj hmain
      have := hsuffix (hkey.trans (List.append_nil _).symm)
      cases this
    · obtain ⟨hkey, -⟩ := Prod.mk.inj (List.mem_singleton.mp hsub)
      have hnumber := (List.cons.inj (hsuffix hkey)).2
      have hdigit := isDigit_of_mem_decimal (hnumber ▸ List.mem_cons_self : 'C' ∈ decimal _)
      cases hdigit
  | recordMetaDExCancelTX other =>
    rcases List.mem_cons.mp hwritten with hmain | hsub
    · obtain ⟨-, hentry⟩ := Prod.mk.inj hmain
      exact ⟨⟨_, hcall, rfl⟩, _, _, _, _, hentry⟩
    · obtain ⟨hkey, -⟩ := Prod.mk.inj (List.mem_singleton.mp hsub)
      rw [List.append_assoc] at hkey
      have hnumber := hsuffix hkey
      exact absurd (List.append_right_eq_self.mp hnumber) (decimal_ne_nil _)
  | recordSendAllSubRecord other =>
    obtain ⟨hkey, -⟩ := Prod.mk.inj (List.mem_singleton.mp hwritten)
    have hnumber := (List.cons.inj (hsuffix hkey)).2
    have hchar := mem_showInt (hnumber ▸ List.mem_cons_self : 'C' ∈ showInt _)
    exact absurd hchar (by decide)
  | setDBVersion =>
    obtain ⟨hkey, -⟩ := Prod.mk.inj (List.mem_singleton.mp hwritten)
    have hlength := congrArg List.length hkey
    rw [List.length_append, length_uint256ToString] at hlength
    exact absurd hlength (by decide)

theorem mem_put {stored : Std.ExtTreeMap Str TxListEntry compare} {call : TxListCall}
    (h : key ∈ stored ∨
      ∃ entry, (key, entry) ∈ written (fun key => stored[key]?.map TxListEntry.value) call) :
    key ∈ put stored call := by
  unfold put
  generalize written (fun key => stored[key]?.map TxListEntry.value) call = new at h
  induction new generalizing stored with
  | nil => simpa using h
  | cons first rest ih =>
    refine ih ?_
    rw [Std.ExtTreeMap.mem_insert, Std.compare_eq_iff_eq]
    rcases h with hold | ⟨entry, hmem⟩
    · exact .inl (.inr hold)
    · rcases List.mem_cons.mp hmem with rfl | hrest
      · exact .inl (.inl rfl)
      · exact .inr ⟨entry, hrest⟩

theorem mem_entries {call : TxListCall} (hcall : call ∈ calls)
    (hwritten : ∀ stored, ∃ entry, (key, entry) ∈ written stored call) : key ∈ entries calls := by
  have hstays : ∀ (rest : List TxListCall) (stored : Std.ExtTreeMap Str TxListEntry compare),
      key ∈ stored → key ∈ rest.foldl put stored := by
    intro rest
    induction rest with
    | nil => exact fun _ h => h
    | cons _ _ ih => exact fun stored h => ih _ (mem_put (.inl h))
  obtain ⟨front, back, rfl⟩ := List.append_of_mem hcall
  rw [entries, List.foldl_append, List.foldl_cons]
  exact hstays back _ (mem_put (.inr (hwritten _)))

/-! ### What is listed -/

theorem listed?_of_suffix {txid : Hash} {rest : Str} (htxid : txid < 2 ^ 256)
    (hrest : ∀ c ∈ rest.head?, (hexDigit? c).isSome = false) (hfields : entry.fieldCount = 4) :
    listed? (uint256ToString txid ++ rest, entry.value) =
      some (atoi32 ((splitColons entry.value).getD 1 []), txid) := by
  have hlength : (splitColons entry.value).length = 4 := hfields
  unfold listed?
  simp only [hlength, if_true, uint256S_append htxid hrest]

theorem dash_not_digit {rest : Str} :
    ∀ c ∈ ('-' :: rest).head?, (hexDigit? c).isSome = false := by
  intro c hc
  obtain rfl : '-' = c := by simpa using hc
  decide

theorem listed?_main {txid : Hash} {fValid : Bool} {nBlock : Int} {type nValue : Nat}
    (htxid : txid < 2 ^ 256) (hblock : FitsInt 32 nBlock) :
    listed? (uint256ToString txid, (TxListEntry.main fValid nBlock type nValue).value) =
      some (nBlock, txid) := by
  have hfields := splitColons_main fValid nBlock type nValue
  have hlisted := @listed?_of_suffix (.main fValid nBlock type nValue) txid [] htxid (by simp)
    (by rw [TxListEntry.fieldCount, hfields]; rfl)
  rwa [List.append_nil, hfields, List.getD_cons_succ, List.getD_cons_zero,
    atoi32_showInt_of_fits hblock] at hlisted

theorem listed?_of_fieldCount {key : Str} (hfields : entry.fieldCount ≠ 4) :
    listed? (key, entry.value) = none := if_neg hfields

theorem after_filterMap (calls : List TxListCall) :
    (after calls).toList.filterMap listed? =
      (entries calls).toList.filterMap fun entry => listed? (entry.1, entry.2.value) := by
  rw [after_eq, Std.ExtTreeMap.toList_map, List.filterMap_map]
  rfl

theorem loadsBefore_trans (a b c : Int × Hash) (hab : loadsBefore a b = true)
    (hbc : loadsBefore b c = true) : loadsBefore a c = true := by
  simp only [loadsBefore, Bool.or_eq_true, Bool.and_eq_true, decide_eq_true_eq] at hab hbc ⊢
  rcases hab with hab | ⟨hab, hhash⟩
  · rcases hbc with hbc | ⟨hbc, -⟩
    · exact .inl (hab.trans hbc)
    · exact .inl (hbc ▸ hab)
  · rcases hbc with hbc | ⟨hbc, hhash'⟩
    · exact .inl (hab ▸ hbc)
    · exact .inr ⟨hab.trans hbc, hhash.trans hhash'⟩

theorem loadsBefore_total (a b : Int × Hash) : (loadsBefore a b || loadsBefore b a) = true := by
  simp only [loadsBefore, Bool.or_eq_true, Bool.and_eq_true, decide_eq_true_eq]
  rcases lt_trichotomy a.1 b.1 with hlt | heq | hgt
  · exact .inl (.inl hlt)
  · rcases le_total (hashBytes a.2) (hashBytes b.2) with hle | hge
    · exact .inl (.inr ⟨heq, hle⟩)
    · exact .inr (.inr ⟨heq.symm, hge⟩)
  · exact .inr (.inl hgt)

theorem le_of_loadsBefore {a b : Int × Hash} (h : loadsBefore a b = true) : a.1 ≤ b.1 := by
  simp only [loadsBefore, Bool.or_eq_true, Bool.and_eq_true, decide_eq_true_eq] at h
  rcases h with hlt | ⟨heq, -⟩
  · exact hlt.le
  · exact heq.le

theorem getMPTransactionHash_perm (calls : List TxListCall) :
    (getMPTransactionHash (after calls)).Perm
      (((entries calls).toList.filterMap fun entry => listed? (entry.1, entry.2.value)).map
        Prod.snd) := by
  unfold getMPTransactionHash
  rw [after_filterMap]
  exact (List.mergeSort_perm _ _).map _

theorem mem_getMPTransactionHash {txid : Hash} :
    txid ∈ getMPTransactionHash (after calls) ↔ ∃ (key : Str) (entry : TxListEntry) (block : Int),
      (entries calls)[key]? = some entry ∧ listed? (key, entry.value) = some (block, txid) := by
  rw [(getMPTransactionHash_perm calls).mem_iff, List.mem_map]
  constructor
  · rintro ⟨⟨block, _⟩, hmem, rfl⟩
    obtain ⟨⟨key, entry⟩, hentry, hlisted⟩ := List.mem_filterMap.mp hmem
    exact ⟨key, entry, block, mem_toList.mp hentry, hlisted⟩
  · rintro ⟨key, entry, block, hget, hlisted⟩
    exact ⟨(block, txid), List.mem_filterMap.mpr ⟨(key, entry), mem_toList.mpr hget, hlisted⟩, rfl⟩

theorem nodup_getMPTransactionHash_iff :
    (getMPTransactionHash (after calls)).Nodup ↔
      ∀ (key key' : Str) (entry entry' : TxListEntry) (block block' : Int) (txid : Hash),
        (entries calls)[key]? = some entry → (entries calls)[key']? = some entry' →
        listed? (key, entry.value) = some (block, txid) →
        listed? (key', entry'.value) = some (block', txid) → key = key' := by
  rw [(getMPTransactionHash_perm calls).nodup_iff, List.Nodup, List.pairwise_map,
    List.pairwise_filterMap]
  constructor
  · intro hpairs key key' entry entry' block block' txid hget hget' hlisted hlisted'
    by_contra hne
    have hsymm : Std.Symm fun e e' : Str × TxListEntry =>
        ∀ b, listed? (e.1, e.2.value) = some b → ∀ b', listed? (e'.1, e'.2.value) = some b' →
          b.2 ≠ b'.2 := ⟨fun e e' h b hb b' hb' heq => h b' hb' b hb heq.symm⟩
    have hmem : (key, entry) ∈ (entries calls).toList := mem_toList.mpr hget
    have hmem' : (key', entry') ∈ (entries calls).toList := mem_toList.mpr hget'
    exact hpairs.forall hmem hmem' (fun heq => hne (congrArg Prod.fst heq)) _ hlisted _ hlisted' rfl
  · intro hkeys
    refine (nodup_toList (entries calls)).imp_of_mem fun {e e'} he he' hne => ?_
    rintro ⟨block, txid⟩ hlisted ⟨block', txid'⟩ hlisted' heq
    obtain rfl : txid = txid' := heq
    have hget := mem_toList.mp he
    have hget' := mem_toList.mp he'
    have hkey := hkeys e.1 e'.1 e.2 e'.2 block block' txid hget hget' hlisted hlisted'
    rw [hkey, hget'] at hget
    exact hne (Prod.ext hkey (Option.some_inj.mp hget).symm)

/-! ### Exactly the main records -/

/-- Nothing but main records has four fields. -/
structure OnlyMainRecords (calls : List TxListCall) : Prop where
  noCancel : ∀ call ∈ calls, call.isCancel = false
  payments : ∀ (key : Str) (entry : TxListEntry), (entries calls)[key]? = some entry →
    entry.isPayment = true → entry.fieldCount ≠ 4

section Exact

variable (hcalls : ∀ call ∈ calls, call.WellFormed)
include hcalls

theorem ListsMainRecords.unique (hlists : ListsMainRecords calls (getMPTransactionHash (after calls)))
    {block : Int} {txid : Hash} (hget : (entries calls)[key]? = some entry)
    (hlisted : listed? (key, entry.value) = some (block, txid)) : key = uint256ToString txid := by
  obtain ⟨htxid, nBlock, fValid, type, nValue, hmain⟩ := (hlists.mem_iff txid).mp
    (mem_getMPTransactionHash.mpr ⟨key, entry, block, hget, hlisted⟩)
  exact nodup_getMPTransactionHash_iff.mp hlists.nodup _ _ _ _ _ _ _ hget hmain hlisted
    (listed?_main htxid (wellFormed_of_entries hcalls hmain))

variable (htxids : ∀ call ∈ calls, call.txid < 2 ^ 256)
include htxids

theorem OnlyMainRecords.listed?_iff (honly : OnlyMainRecords calls) {block : Int} {txid : Hash}
    (hget : (entries calls)[key]? = some entry) :
    listed? (key, entry.value) = some (block, txid) ↔ txid < 2 ^ 256 ∧ key = uint256ToString txid ∧
      ∃ fValid type nValue, entry = .main fValid block type nValue := by
  constructor
  · intro hlisted
    cases storedAs_of_entries htxids hget with
    | main htxid =>
      rw [listed?_main htxid (wellFormed_of_entries hcalls hget)] at hlisted
      obtain ⟨rfl, rfl⟩ := Prod.mk.inj (Option.some_inj.mp hlisted)
      exact ⟨htxid, rfl, _, _, _, rfl⟩
    | cancels htxid =>
      obtain ⟨⟨call, hcall, hcancel⟩, -⟩ := cancel_of_entries hget
      rw [honly.noCancel call hcall] at hcancel
      cases hcancel
    | payment htxid =>
      rw [listed?_of_fieldCount (honly.payments _ _ hget rfl)] at hlisted
      cases hlisted
    | other hfields =>
      rw [listed?_of_fieldCount hfields] at hlisted
      cases hlisted
  · rintro ⟨htxid, hkey, fValid, type, nValue, hentry⟩
    rw [hkey, hentry]
    rw [hentry] at hget
    exact listed?_main htxid (wellFormed_of_entries hcalls hget)

/-- **When the list is right.**  Every transaction with a main record is listed once, in the order of
the blocks, and nothing else, if and only if no orders were cancelled and no payment that is stored has
four fields. -/
theorem getMPTransactionHash_exact_iff :
    ListsMainRecords calls (getMPTransactionHash (after calls)) ↔ OnlyMainRecords calls := by
  constructor
  · intro hlists
    have hplain : ∀ (txid : Hash) (rest : Str),
        uint256ToString txid ++ rest = uint256ToString txid → rest = [] := fun txid rest heq =>
      List.append_right_eq_self.mp heq
    refine ⟨fun call hcall => ?_, fun key entry hget hpayment hfields => ?_⟩
    · -- the main record of the cancelled orders is listed
      cases call with
      | recordMetaDExCancelTX txid txidSub fValid nBlock propertyId nValue =>
          have htxid : txid < 2 ^ 256 := htxids _ hcall
          have hmem : uint256ToString txid ++ ['-', 'C'] ∈ entries calls :=
            mem_entries hcall fun stored => ⟨_, List.mem_cons_self⟩
          obtain ⟨entry, hget⟩ := Option.isSome_iff_exists.mp
            (Std.ExtTreeMap.mem_iff_isSome_getElem?.mp hmem)
          obtain ⟨-, fValid', nBlock', type', nValue', rfl⟩ := cancel_of_entries hget
          have hlisted := @listed?_of_suffix (.main fValid' nBlock' type' nValue') txid ['-', 'C']
            htxid dash_not_digit (by rw [TxListEntry.fieldCount, splitColons_main]; rfl)
          exact absurd (hplain _ _ (hlists.unique hcalls hget hlisted)) (by decide)
      | _ => rfl
    · cases storedAs_of_entries htxids hget with
      | main => cases hpayment
      | cancels => cases hpayment
      | payment htxid =>
          have hkey := hlists.unique hcalls hget (listed?_of_suffix htxid dash_not_digit hfields)
          exact absurd (hplain _ _ hkey) (List.cons_ne_nil _ _)
      | other hother => exact hother hfields
  · intro honly
    refine ⟨nodup_getMPTransactionHash_iff.mpr ?_, fun txid => ?_, ?_⟩
    · intro key key' entry entry' block block' txid hget hget' hlisted hlisted'
      rw [((honly.listed?_iff hcalls htxids hget).mp hlisted).2.1,
        ((honly.listed?_iff hcalls htxids hget').mp hlisted').2.1]
    · rw [mem_getMPTransactionHash]
      constructor
      · rintro ⟨key, entry, block, hget, hlisted⟩
        obtain ⟨htxid, hkey, fValid, type, nValue, hentry⟩ :=
          (honly.listed?_iff hcalls htxids hget).mp hlisted
        rw [hkey, hentry] at hget
        exact ⟨htxid, block, fValid, type, nValue, hget⟩
      · rintro ⟨htxid, nBlock, fValid, type, nValue, hget⟩
        exact ⟨_, _, nBlock, hget, listed?_main htxid (wellFormed_of_entries hcalls hget)⟩
    · have hsorted := List.pairwise_mergeSort loadsBefore_trans loadsBefore_total
        ((after calls).toList.filterMap listed?)
      refine List.pairwise_map.mpr (hsorted.imp_of_mem fun {a b} ha hb hbefore => ?_)
      -- the blocks the list is sorted by are those of the main records
      have hblock : ∀ {a : Int × Hash}, a ∈ ((after calls).toList.filterMap listed?).mergeSort
          loadsBefore → ∀ nBlock, MainRecord calls a.2 nBlock → a.1 = nBlock := by
        rintro ⟨block, txid⟩ hmem nBlock ⟨fValid, type, nValue, hmain⟩
        rw [List.mem_mergeSort, after_filterMap] at hmem
        obtain ⟨⟨key, entry⟩, hentry, hlisted⟩ := List.mem_filterMap.mp hmem
        have hget := mem_toList.mp hentry
        obtain ⟨-, hkey, fValid', type', nValue', hvalue⟩ :=
          (honly.listed?_iff hcalls htxids hget).mp hlisted
        rw [hkey, hvalue, hmain] at hget
        cases hget
        rfl
      intro nBlock nBlock' hmain hmain'
      rw [← hblock ha nBlock hmain, ← hblock hb nBlock' hmain']
      exact le_of_loadsBefore hbefore

end Exact

/-- A send, a payment and a "send all", in this order of calls. -/
def plainCalls : List TxListCall :=
  [.recordTX 5 true 20 0 700, .recordPaymentTX 2 true 10 0 1 500 "buyer".toList "seller".toList,
    .recordSendAllSubRecord 5 1 3 20 700]

/-- They are listed in the order of their blocks. -/
theorem getMPTransactionHash_exact_iff_plain :
    (∀ call ∈ plainCalls, call.WellFormed) ∧ (∀ call ∈ plainCalls, call.txid < 2 ^ 256) ∧
      ListsMainRecords plainCalls (getMPTransactionHash (after plainCalls)) := by
  have hten : FitsInt 32 10 := ⟨by decide, by decide⟩
  have htwenty : FitsInt 32 20 := ⟨by decide, by decide⟩
  have hcalls : ∀ call ∈ plainCalls, call.WellFormed :=
    List.forall_mem_cons.mpr ⟨htwenty, List.forall_mem_cons.mpr ⟨hten,
      List.forall_mem_singleton.mpr htwenty⟩⟩
  have htxids : ∀ call ∈ plainCalls, call.txid < 2 ^ 256 := by
    simp only [plainCalls, List.forall_mem_cons, TxListCall.txid]
    norm_num
  have hpayment : ∀ entry : TxListEntry, entry.isPayment = true →
      (∃ (key : Str), (entries plainCalls)[key]? = some entry) → entry.fieldCount = 5 := by
    rintro entry hpayment ⟨key, hget⟩
    obtain ⟨call, hcall, stored, hwritten⟩ := exists_written_of_entries hget
    simp only [plainCalls, List.mem_cons, List.not_mem_nil, or_false] at hcall
    rcases hcall with rfl | rfl | rfl
    · obtain ⟨-, rfl⟩ := Prod.mk.inj (List.mem_singleton.mp hwritten)
      cases hpayment
    · rcases List.mem_cons.mp hwritten with hmain | hsub
      · obtain ⟨-, rfl⟩ := Prod.mk.inj hmain
        cases hpayment
      · obtain ⟨-, rfl⟩ := Prod.mk.inj (List.mem_singleton.mp hsub)
        decide +kernel
    · obtain ⟨-, rfl⟩ := Prod.mk.inj (List.mem_singleton.mp hwritten)
      cases hpayment
  refine ⟨hcalls, htxids, (getMPTransactionHash_exact_iff hcalls htxids).mpr ⟨by decide, ?_⟩⟩
  intro key entry hget hpays hfields
  rw [hpayment entry hpays ⟨key, hget⟩] at hfields
  cases hfields

/-- **A transaction that cancels an order is listed twice**, and is the only one that was recorded. -/
theorem exists_listed_twice :
    let calls : List TxListCall :=
      [.recordMetaDExCancelTX 2 7 true 10 3 500, .recordTX 2 true 10 26 0]
    (∀ call ∈ calls, call.WellFormed) ∧ (∀ call ∈ calls, call.txid < 2 ^ 256) ∧
      (getMPTransactionHash (after calls)).Perm [2, 2] ∧
      ¬ListsMainRecords calls (getMPTransactionHash (after calls)) := by
  intro calls
  have hten : FitsInt 32 10 := ⟨by decide, by decide⟩
  have hperm : (getMPTransactionHash (after calls)).Perm [2, 2] := by
    refine (getMPTransactionHash_perm calls).trans (List.Perm.of_eq ?_)
    decide +kernel
  refine ⟨?_, ?_, hperm, fun hlists => ?_⟩
  · exact List.forall_mem_cons.mpr ⟨⟨hten, by decide⟩, List.forall_mem_singleton.mpr hten⟩
  · simp only [calls, List.forall_mem_cons, TxListCall.txid]
    norm_num
  · exact absurd (hperm.nodup_iff.mp hlists.nodup) (by decide)

end CMPTxList

end HcOmni
