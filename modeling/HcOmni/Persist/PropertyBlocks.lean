import HcOmni.Core.SPInfo
import HcOmni.Lib.MapSum

/-!
# Undoing a block in the property database

`popBlock` (`dbspinfo.cpp`) takes back what a block has done to the properties: an entry created by the
block is deleted, together with the index of its transaction, and an updated one is replaced by the entry
that `updateSP` has put aside.  There is one place for that entry per block and property, so of several
updates only the last one can be taken back.
-/

namespace HcOmni

open Std MapSum

namespace CMPSPInfo

/-! ### What `popBlock` does -/

section PopBlock

variable {db : CMPSPInfo} {h : Hash}

/-- The entry was updated by the block and the one before it is not there. -/
def Lost (db : CMPSPInfo) (h : Hash) (p : PropertyId) (info : Entry) : Prop :=
  info.updateBlock = h ∧ info.creationBlock ≠ h ∧ db.prevEntries[toLex (h, p)]? = none

/-- The entry of a property once the block is undone. -/
def undone (db : CMPSPInfo) (h : Hash) (p : PropertyId) (info : Entry) : Option Entry :=
  if info.updateBlock = h then
    if info.creationBlock = h then none else db.prevEntries[toLex (h, p)]?
  else some info

/-- The entry was created by the block, as far as `popBlock` can see. -/
def Created (h : Hash) (info : Entry) : Prop := info.updateBlock = h ∧ info.creationBlock = h

theorem popEntry_of_lost {p : PropertyId} {info : Entry} (hlost : Lost db h p info) (batch : CMPSPInfo) :
    popEntry db h p info batch = .error (-3) := by
  obtain ⟨hupdate, hcreation, hnone⟩ := hlost
  unfold popEntry
  rw [if_pos hupdate, if_neg fun heq => hcreation (heq.symm.trans hupdate), hupdate, hnone]

/-- What the writes for one record do. -/
structure Undoes (db : CMPSPInfo) (h : Hash) (p : PropertyId) (info : Entry)
    (batch batch' : CMPSPInfo) : Prop where
  entry : batch.entries[p]? = some info → batch'.entries[p]? = undone db h p info
  others : ∀ q, q ≠ p → batch'.entries[q]? = batch.entries[q]?
  created : Created h info → batch'.txIndex[info.txid]? = none
  kept : ∀ txid : Hash, ¬(Created h info ∧ info.txid = txid) →
    batch'.txIndex[txid]? = batch.txIndex[txid]?

theorem popEntry_of_not_lost {p : PropertyId} {info : Entry} (hkeeps : ¬Lost db h p info)
    (batch : CMPSPInfo) :
    ∃ batch' n, popEntry db h p info batch = .ok (batch', n) ∧ 0 ≤ n ∧
      Undoes db h p info batch batch' := by
  unfold popEntry
  by_cases hupdate : info.updateBlock = h
  · rw [if_pos hupdate]
    by_cases hcreation : info.updateBlock = info.creationBlock
    · have hcreated : Created h info := ⟨hupdate, hcreation ▸ hupdate⟩
      rw [if_pos hcreation]
      refine ⟨_, 0, rfl, le_rfl, ?_, ?_, ?_, ?_⟩
      · intro _
        simp [undone, hupdate, hcreated.2]
      · intro q hq
        exact getElem?_erase_of_ne (Ne.symm hq)
      · intro _
        simp
      · intro txid hother
        exact getElem?_erase_of_ne fun heq => hother ⟨hcreated, heq⟩
    · rw [if_neg hcreation]
      have hnew : info.creationBlock ≠ h := fun heq => hcreation (hupdate.trans heq.symm)
      cases hprev : db.prevEntries[toLex (h, p)]? with
      | none => exact absurd ⟨hupdate, hnew, hprev⟩ hkeeps
      | some previous =>
        rw [hupdate, hprev]
        refine ⟨_, 1, rfl, by decide, ?_, ?_, ?_, fun _ _ => rfl⟩
        · intro _
          simp [undone, hupdate, hnew, hprev]
        · intro q hq
          exact getElem?_insert_of_ne (Ne.symm hq)
        · exact fun hcreated => absurd hcreated.2 hnew
  · rw [if_neg hupdate]
    refine ⟨batch, 1, rfl, by decide, ?_, fun _ _ => rfl, ?_, fun _ _ => rfl⟩
    · intro hget
      rw [hget]
      simp [undone, hupdate]
    · exact fun hcreated => absurd hcreated.1 hupdate

/-- The scan. -/
def popScan (db : CMPSPInfo) (h : Hash) (records : List (PropertyId × Entry))
    (acc : CMPSPInfo × Int) : Except Int (CMPSPInfo × Int) :=
  records.foldlM (fun (acc : CMPSPInfo × Int) (record : PropertyId × Entry) =>
    (popEntry db h record.1 record.2 acc.1).map fun undone => (undone.1, acc.2 + undone.2)) acc

theorem popScan_cons (record : PropertyId × Entry) (records : List (PropertyId × Entry))
    (acc : CMPSPInfo × Int) :
    popScan db h (record :: records) acc =
      match popEntry db h record.1 record.2 acc.1 with
      | .ok (batch, n) => popScan db h records (batch, acc.2 + n)
      | .error rc => .error rc := by
  unfold popScan
  rw [List.foldlM_cons]
  cases popEntry db h record.1 record.2 acc.1 with
  | ok result => rfl
  | error rc => rfl

theorem popScan_of_lost {records : List (PropertyId × Entry)} (acc : CMPSPInfo × Int)
    (hlost : ∃ record ∈ records, Lost db h record.1 record.2) : popScan db h records acc = .error (-3) := by
  induction records generalizing acc with
  | nil =>
    obtain ⟨record, hmem, -⟩ := hlost
    exact absurd hmem List.not_mem_nil
  | cons record rest ih =>
    rw [popScan_cons]
    by_cases hfirst : Lost db h record.1 record.2
    · rw [popEntry_of_lost hfirst]
    · obtain ⟨batch', n, hpop, -⟩ := popEntry_of_not_lost hfirst acc.1
      obtain ⟨other, hmem, hother⟩ := hlost
      rw [hpop]
      rcases List.mem_cons.mp hmem with rfl | hmem
      · exact absurd hother hfirst
      · exact ih _ ⟨other, hmem, hother⟩

/-- What the writes for several records do. -/
structure UndoesAll (db : CMPSPInfo) (h : Hash) (records : List (PropertyId × Entry))
    (batch batch' : CMPSPInfo) : Prop where
  entry : ∀ record ∈ records, batch.entries[record.1]? = some record.2 →
    batch'.entries[record.1]? = undone db h record.1 record.2
  others : ∀ q, q ∉ records.map Prod.fst → batch'.entries[q]? = batch.entries[q]?
  created : ∀ record ∈ records, Created h record.2 → batch'.txIndex[record.2.txid]? = none
  kept : ∀ txid : Hash, (∀ record ∈ records, ¬(Created h record.2 ∧ record.2.txid = txid)) →
    batch'.txIndex[txid]? = batch.txIndex[txid]?

theorem UndoesAll.cons {record : PropertyId × Entry} {records : List (PropertyId × Entry)}
    {batch batch₁ batch₂ : CMPSPInfo} (hfresh : record.1 ∉ records.map Prod.fst)
    (hfirst : Undoes db h record.1 record.2 batch batch₁) (hrest : UndoesAll db h records batch₁ batch₂) :
    UndoesAll db h (record :: records) batch batch₂ where
  entry r hr hget := by
    rcases List.mem_cons.mp hr with rfl | hr
    · rw [hrest.others _ hfresh]
      exact hfirst.entry hget
    · have hne : r.1 ≠ record.1 := fun heq => hfresh (heq ▸ List.mem_map_of_mem hr)
      exact hrest.entry r hr (by rw [hfirst.others _ hne, hget])
  others q hq := by
    rw [List.map_cons, List.mem_cons, not_or] at hq
    rw [hrest.others q hq.2, hfirst.others q hq.1]
  created r hr hcreated := by
    by_cases hlater : ∃ r' ∈ records, Created h r'.2 ∧ r'.2.txid = r.2.txid
    · obtain ⟨r', hr', hcreated', htxid⟩ := hlater
      rw [← htxid]
      exact hrest.created r' hr' hcreated'
    · rcases List.mem_cons.mp hr with rfl | hr
      · rw [hrest.kept _ fun r' hr' heq => hlater ⟨r', hr', heq⟩]
        exact hfirst.created hcreated
      · exact absurd ⟨r, hr, hcreated, rfl⟩ hlater
  kept txid hnone := by
    obtain ⟨hnone', hnone''⟩ := List.forall_mem_cons.mp hnone
    rw [hrest.kept txid hnone'', hfirst.kept txid hnone']

theorem popScan_of_not_lost {records : List (PropertyId × Entry)} (acc : CMPSPInfo × Int)
    (hnodup : (records.map Prod.fst).Nodup) (hkeeps : ∀ record ∈ records, ¬Lost db h record.1 record.2) :
    ∃ batch' n, popScan db h records acc = .ok (batch', n) ∧ acc.2 ≤ n ∧
      UndoesAll db h records acc.1 batch' := by
  induction records generalizing acc with
  | nil => exact ⟨acc.1, acc.2, rfl, le_rfl, by simp, fun _ _ => rfl, by simp, fun _ _ => rfl⟩
  | cons record rest ih =>
    obtain ⟨hfirst, hrest⟩ := List.forall_mem_cons.mp hkeeps
    rw [List.map_cons, List.nodup_cons] at hnodup
    obtain ⟨batch₁, n₁, hpop, hn₁, hundoes⟩ := popEntry_of_not_lost hfirst acc.1
    obtain ⟨batch₂, n₂, hscan, hn₂, hundoesAll⟩ := ih (batch₁, acc.2 + n₁) hnodup.2 hrest
    refine ⟨batch₂, n₂, ?_, ?_, .cons hnodup.1 hundoes hundoesAll⟩
    · rw [popScan_cons, hpop]
      exact hscan
    · dsimp only at hn₂
      omega

theorem popBlock_eq (db : CMPSPInfo) (h : Hash) :
    db.popBlock h = match popScan db h db.entries.toList (db, 0) with
      | .ok (batch, n) => (n, batch)
      | .error rc => (rc, db) := rfl

/-- An entry that cannot be undone makes `popBlock` fail. -/
theorem popBlock_of_lost {p : PropertyId} {info : Entry} (hget : db.entries[p]? = some info)
    (hlost : Lost db h p info) : (db.popBlock h).1 = -3 := by
  rw [popBlock_eq, popScan_of_lost _ ⟨(p, info), mem_toList.mpr hget, hlost⟩]

/-- **What `popBlock` does**, if every entry can be undone. -/
theorem popBlock_of_not_lost
    (hkeeps : ∀ p info, db.entries[p]? = some info → ¬Lost db h p info) :
    0 ≤ (db.popBlock h).1 ∧
      (∀ p : PropertyId, (db.popBlock h).2.entries[p]? = (db.entries[p]?).bind (undone db h p)) ∧
      ∀ txid : Hash, (db.popBlock h).2.txIndex[txid]? = none ∧
          (∃ (p : PropertyId) (info : Entry), db.entries[p]? = some info ∧ Created h info ∧
            info.txid = txid) ∨
        (db.popBlock h).2.txIndex[txid]? = db.txIndex[txid]? ∧
          ¬∃ (p : PropertyId) (info : Entry), db.entries[p]? = some info ∧ Created h info ∧
            info.txid = txid := by
  obtain ⟨batch, n, hscan, hn, hundoes⟩ := @popScan_of_not_lost db h db.entries.toList (db, 0)
    (nodup_keys_toList db.entries) fun record hmem => hkeeps _ _ (mem_toList.mp hmem)
  rw [popBlock_eq, hscan]
  refine ⟨hn, fun p => ?_, fun txid => ?_⟩
  · cases hget : db.entries[p]? with
    | none =>
      have hout : p ∉ db.entries.toList.map Prod.fst := by
        intro hmem
        obtain ⟨record, hrecord, rfl⟩ := List.mem_map.mp hmem
        rw [mem_toList.mp hrecord] at hget
        cases hget
      exact (hundoes.others p hout).trans hget
    | some info => exact hundoes.entry (p, info) (mem_toList.mpr hget) hget
  · by_cases hcreated : ∃ (p : PropertyId) (info : Entry), db.entries[p]? = some info ∧
        Created h info ∧ info.txid = txid
    · obtain ⟨p, info, hget, hinfo, rfl⟩ := hcreated
      exact .inl ⟨hundoes.created (p, info) (mem_toList.mpr hget) hinfo, p, info, hget, hinfo, rfl⟩
    · refine .inr ⟨hundoes.kept txid fun record hmem hrecord => hcreated ?_, hcreated⟩
      exact ⟨record.1, record.2, mem_toList.mp hmem, hrecord⟩

end PopBlock

/-! ### The writes of a block -/

/-- A call that writes an entry. -/
inductive SPCall where
  | putSP (ecosystem : Nat) (info : Entry)
  | updateSP (propertyId : PropertyId) (info : Entry)

def SPCall.info : SPCall → Entry
  | .putSP _ info => info
  | .updateSP _ info => info

def SPCall.run (sps : CMPSPInfo) : SPCall → CMPSPInfo
  | .putSP ecosystem info => (sps.putSP ecosystem info).2
  | .updateSP propertyId info => (sps.updateSP propertyId info).2

/-- The property that a call writes to; the two implied properties are not updated. -/
def SPCall.target (sps : CMPSPInfo) : SPCall → Option PropertyId
  | .putSP ecosystem info => some (sps.putSP ecosystem info).1
  | .updateSP propertyId _ =>
      if propertyId = OMNI_PROPERTY_MSC ∨ propertyId = OMNI_PROPERTY_TMSC then none else some propertyId

/-- The database after a sequence of calls. -/
def runCalls (sps : CMPSPInfo) (calls : List SPCall) : CMPSPInfo := calls.foldl SPCall.run sps

/-- The calls that write to a property. -/
def writesTo (p : PropertyId) : CMPSPInfo → List SPCall → List SPCall
  | _, [] => []
  | sps, call :: rest =>
      (if call.target sps = some p then [call] else []) ++ writesTo p (call.run sps) rest

section Writes

variable {sps : CMPSPInfo} {calls : List SPCall} {call : SPCall} {p : PropertyId} {h : Hash}

theorem writesTo_append (p : PropertyId) (sps : CMPSPInfo) (calls : List SPCall) (call : SPCall) :
    writesTo p sps (calls ++ [call]) = writesTo p sps calls ++
      if call.target (runCalls sps calls) = some p then [call] else [] := by
  induction calls generalizing sps with
  | nil =>
    simp only [List.nil_append, writesTo, List.append_nil]
    rfl
  | cons first rest ih =>
    rw [List.cons_append, writesTo, ih, writesTo, List.append_assoc]
    rfl

theorem mem_of_mem_writesTo (hmem : call ∈ writesTo p sps calls) : call ∈ calls := by
  induction calls generalizing sps with
  | nil => exact absurd hmem List.not_mem_nil
  | cons first rest ih =>
    rw [writesTo, List.mem_append] at hmem
    rcases hmem with hmem | hmem
    · split at hmem
      · exact List.mem_singleton.mp hmem ▸ List.mem_cons_self
      · exact absurd hmem List.not_mem_nil
    · exact List.mem_cons_of_mem _ (ih hmem)

theorem eq_of_updateSP_mem {q : PropertyId} {info : Entry}
    (hmem : SPCall.updateSP q info ∈ writesTo p sps calls) : q = p := by
  induction calls generalizing sps with
  | nil => exact absurd hmem List.not_mem_nil
  | cons first rest ih =>
    rw [writesTo, List.mem_append] at hmem
    rcases hmem with hmem | hmem
    · split at hmem
      · next htarget =>
          rw [← List.mem_singleton.mp hmem, SPCall.target] at htarget
          split at htarget
          · cases htarget
          · exact Option.some.inj htarget
      · exact absurd hmem List.not_mem_nil
    · exact ih hmem

theorem entries_run (sps : CMPSPInfo) (call : SPCall) (p : PropertyId) :
    (call.run sps).entries[p]? =
      if call.target sps = some p then some call.info else sps.entries[p]? := by
  have hinsert : ∀ (q : PropertyId) (info : Entry), (sps.entries.insert q info)[p]? =
      if some q = some p then some info else sps.entries[p]? := by
    intro q info
    rw [ExtTreeMap.getElem?_insert]
    simp
  cases call with
  | putSP ecosystem info =>
    unfold SPCall.run SPCall.target CMPSPInfo.putSP
    dsimp only
    split
    · exact hinsert _ _
    · split
      · exact hinsert _ _
      · exact hinsert _ _
  | updateSP q info =>
    unfold SPCall.run SPCall.target CMPSPInfo.updateSP
    dsimp only
    split
    · rw [if_neg (by simp)]
    · exact hinsert _ _

theorem prevEntries_run_putSP (sps : CMPSPInfo) (ecosystem : Nat) (info : Entry) :
    ((SPCall.putSP ecosystem info).run sps).prevEntries = sps.prevEntries := by
  unfold SPCall.run CMPSPInfo.putSP
  dsimp only
  split
  · rfl
  · split <;> rfl

theorem prevEntries_run_updateSP (sps : CMPSPInfo) {q : PropertyId} {info : Entry}
    (hinfo : info.updateBlock = h) (p : PropertyId) :
    ((SPCall.updateSP q info).run sps).prevEntries[toLex (h, p)]? =
      if (SPCall.updateSP q info).target sps = some p ∧ (sps.entries[p]?).isSome = true then
        sps.entries[p]?
      else sps.prevEntries[toLex (h, p)]? := by
  unfold SPCall.run SPCall.target CMPSPInfo.updateSP
  dsimp only
  split
  · rw [if_neg fun hand => by cases hand.1]
  · by_cases hq : q = p
    · subst hq
      cases hget : sps.entries[q]? with
      | none => simp
      | some previous => simp [hinfo]
    · have hne : some q ≠ some p := fun heq => hq (Option.some.inj heq)
      rw [if_neg fun hand => hne hand.1]
      cases hget : sps.entries[q]? with
      | none => rfl
      | some previous =>
        refine getElem?_insert_of_ne fun heq => hq ?_
        exact (Prod.ext_iff.mp (toLex.injective heq)).2

/-- The entry of a property after some writes to it. -/
def entryAfter (sps : CMPSPInfo) (p : PropertyId) (writes : List SPCall) : Option Entry :=
  match writes.getLast? with
  | some call => some call.info
  | none => sps.entries[p]?

/-- What the database holds for a property after some writes to it. -/
structure Traced (h : Hash) (sps db : CMPSPInfo) (p : PropertyId) (writes : List SPCall) : Prop where
  entry : db.entries[p]? = entryAfter sps p writes
  aside : ∀ earlier info, writes = earlier ++ [.updateSP p info] →
    db.prevEntries[toLex (h, p)]? = entryAfter sps p earlier
  untouched : writes = [] → db.prevEntries[toLex (h, p)]? = none

theorem entryAfter_concat (sps : CMPSPInfo) (p : PropertyId) (writes : List SPCall) (call : SPCall) :
    entryAfter sps p (writes ++ [call]) = some call.info := by
  simp [entryAfter]

theorem Traced.run {db : CMPSPInfo} {writes : List SPCall} (htraced : Traced h sps db p writes)
    (hcall : call.info.updateBlock = h) :
    Traced h sps (call.run db) p (writes ++ if call.target db = some p then [call] else []) := by
  by_cases htarget : call.target db = some p
  · rw [if_pos htarget]
    refine ⟨?_, ?_, by simp⟩
    · rw [entries_run, if_pos htarget, entryAfter_concat]
    · intro earlier info heq
      obtain ⟨rfl, hlast⟩ := List.append_inj' heq rfl
      obtain rfl : call = .updateSP p info := by simpa using hlast
      have hinfo : info.updateBlock = h := hcall
      rw [prevEntries_run_updateSP db hinfo, ← htraced.entry]
      cases hget : db.entries[p]? with
      | some previous => simp [htarget]
      | none =>
        -- nothing was there, so nothing has been written either
        have hnone : writes = [] := by
          have hentry := htraced.entry
          rw [hget, entryAfter] at hentry
          cases hlast : writes.getLast? with
          | none => exact List.getLast?_eq_none_iff.mp hlast
          | some last =>
            rw [hlast] at hentry
            cases hentry
        rw [if_neg (by simp), htraced.untouched hnone]
  · rw [if_neg htarget, List.append_nil]
    have haside : (call.run db).prevEntries[toLex (h, p)]? = db.prevEntries[toLex (h, p)]? := by
      cases call with
      | putSP ecosystem info => rw [prevEntries_run_putSP]
      | updateSP q info =>
        have hinfo : info.updateBlock = h := hcall
        rw [prevEntries_run_updateSP db hinfo, if_neg fun hand => htarget hand.1]
    refine ⟨?_, ?_, ?_⟩
    · rw [entries_run, if_neg htarget, htraced.entry]
    · rw [haside]
      exact htraced.aside
    · rw [haside]
      exact htraced.untouched

theorem traced_runCalls (hupdate : ∀ call ∈ calls, call.info.updateBlock = h)
    (hunused : ∀ p : PropertyId, sps.prevEntries[toLex (h, p)]? = none) (p : PropertyId) :
    Traced h sps (runCalls sps calls) p (writesTo p sps calls) := by
  induction calls using List.reverseRecOn with
  | nil => exact ⟨rfl, fun earlier info heq => by simp [writesTo] at heq, fun _ => hunused p⟩
  | append_singleton calls call ih =>
    rw [writesTo_append, runCalls, List.foldl_append]
    exact (ih fun c hc => hupdate c (List.mem_append_left _ hc)).run
      (hupdate call (List.mem_append_right _ (List.mem_singleton_self _)))

end Writes

/-! ### Undoing a block -/

/-- What a block does, as far as it is assumed: everything it writes is marked with its hash, a created
entry also as created by it, and the hash has not been used before. -/
structure WrittenBy (h : Hash) (sps : CMPSPInfo) (calls : List SPCall) : Prop where
  update : ∀ call ∈ calls, call.info.updateBlock = h
  creation : ∀ ecosystem info, SPCall.putSP ecosystem info ∈ calls → info.creationBlock = h
  unused : ∀ (p : PropertyId) (info : Entry), sps.entries[p]? = some info → info.updateBlock ≠ h
  empty : ∀ p : PropertyId, sps.prevEntries[toLex (h, p)]? = none

/-- `popBlock` succeeds and restores the entry of every property; no transaction leads to a property that
the block has created. -/
structure Restored (h : Hash) (sps : CMPSPInfo) (calls : List SPCall) : Prop where
  nonneg : 0 ≤ ((runCalls sps calls).popBlock h).1
  entries : ∀ p : PropertyId, ((runCalls sps calls).popBlock h).2.entries[p]? = sps.entries[p]?
  index : ∀ (p : PropertyId) (txid : Hash), sps.entries[p]? = none → writesTo p sps calls ≠ [] →
    ((runCalls sps calls).popBlock h).2.txIndex[txid]? ≠ some p

/-- A property that was there is written to at most once, by an update that does not mark it as created by
the block.  The last write to another property marks it as created by the block, and every transaction
that leads to it is the one of such an entry. -/
structure Undoable (h : Hash) (sps : CMPSPInfo) (calls : List SPCall) : Prop where
  old : ∀ (p : PropertyId) (info : Entry), sps.entries[p]? = some info → writesTo p sps calls = [] ∨
    ∃ info', writesTo p sps calls = [.updateSP p info'] ∧ info'.creationBlock ≠ h
  new : ∀ (p : PropertyId) (call : SPCall), sps.entries[p]? = none →
    (writesTo p sps calls).getLast? = some call → call.info.creationBlock = h
  index : ∀ (p : PropertyId) (txid : Hash), sps.entries[p]? = none → writesTo p sps calls ≠ [] →
    (runCalls sps calls).txIndex[txid]? = some p →
      ∃ (q : PropertyId) (call : SPCall), (writesTo q sps calls).getLast? = some call ∧
        call.info.creationBlock = h ∧ call.info.txid = txid

section Undo

variable {sps : CMPSPInfo} {calls : List SPCall} {p : PropertyId} {h : Hash}

theorem WrittenBy.entry_iff (hwritten : WrittenBy h sps calls) {info : Entry} :
    (runCalls sps calls).entries[p]? = some info ∧ info.updateBlock = h ↔
      ∃ call, (writesTo p sps calls).getLast? = some call ∧ call.info = info := by
  rw [(traced_runCalls hwritten.update hwritten.empty p).entry, entryAfter]
  cases hlast : (writesTo p sps calls).getLast? with
  | none =>
    constructor
    · rintro ⟨hget, hinfo⟩
      exact absurd hinfo (hwritten.unused p info hget)
    · rintro ⟨call, hcall, -⟩
      cases hcall
  | some call =>
    have hmem := mem_of_mem_writesTo (List.mem_of_getLast? hlast)
    constructor
    · rintro ⟨hget, -⟩
      exact ⟨call, rfl, Option.some.inj hget⟩
    · rintro ⟨call', hcall, rfl⟩
      obtain rfl := Option.some.inj hcall
      exact ⟨rfl, hwritten.update call hmem⟩

theorem WrittenBy.aside (hwritten : WrittenBy h sps calls) {earlier : List SPCall} {call : SPCall}
    (hwrites : writesTo p sps calls = earlier ++ [call]) (hnew : call.info.creationBlock ≠ h) :
    (runCalls sps calls).prevEntries[toLex (h, p)]? = entryAfter sps p earlier := by
  have hmem : call ∈ writesTo p sps calls := by simp [hwrites]
  cases call with
  | putSP ecosystem info =>
    exact absurd (hwritten.creation ecosystem info (mem_of_mem_writesTo hmem)) hnew
  | updateSP q info =>
    obtain rfl := eq_of_updateSP_mem hmem
    exact (traced_runCalls hwritten.update hwritten.empty q).aside earlier info hwrites

theorem WrittenBy.undone_eq (hwritten : WrittenBy h sps calls) {earlier : List SPCall} {call : SPCall}
    (hwrites : writesTo p sps calls = earlier ++ [call]) :
    undone (runCalls sps calls) h p call.info =
      if call.info.creationBlock = h then none else entryAfter sps p earlier := by
  have hmem : call ∈ calls := mem_of_mem_writesTo (by rw [hwrites]; simp : call ∈ writesTo p sps calls)
  unfold undone
  rw [if_pos (hwritten.update call hmem)]
  split
  · rfl
  · next hnew => exact hwritten.aside hwrites hnew

theorem not_lost_of_nonneg {db : CMPSPInfo} (hnonneg : 0 ≤ (db.popBlock h).1) (p : PropertyId)
    (info : Entry) (hget : db.entries[p]? = some info) : ¬Lost db h p info := by
  intro hlost
  rw [popBlock_of_lost hget hlost] at hnonneg
  exact absurd hnonneg (by decide)

theorem WrittenBy.popped_nil (hwritten : WrittenBy h sps calls)
    (hkeeps : ∀ p info, (runCalls sps calls).entries[p]? = some info → ¬Lost (runCalls sps calls) h p info)
    (hwrites : writesTo p sps calls = []) :
    ((runCalls sps calls).popBlock h).2.entries[p]? = sps.entries[p]? := by
  have hentry := (traced_runCalls hwritten.update hwritten.empty p).entry
  rw [hwrites] at hentry
  rw [(popBlock_of_not_lost hkeeps).2.1 p, hentry]
  change (sps.entries[p]?).bind _ = _
  cases hget : sps.entries[p]? with
  | none => rfl
  | some info => simp [undone, hwritten.unused p info hget]

theorem WrittenBy.popped_concat (hwritten : WrittenBy h sps calls)
    (hkeeps : ∀ p info, (runCalls sps calls).entries[p]? = some info → ¬Lost (runCalls sps calls) h p info)
    {earlier : List SPCall} {call : SPCall} (hwrites : writesTo p sps calls = earlier ++ [call]) :
    ((runCalls sps calls).popBlock h).2.entries[p]? =
      if call.info.creationBlock = h then none else entryAfter sps p earlier := by
  have hentry := (traced_runCalls hwritten.update hwritten.empty p).entry
  rw [hwrites, entryAfter_concat] at hentry
  rw [(popBlock_of_not_lost hkeeps).2.1 p, hentry]
  exact hwritten.undone_eq hwrites

theorem WrittenBy.undoable_of_restored (hwritten : WrittenBy h sps calls)
    (hrestored : Restored h sps calls) : Undoable h sps calls := by
  have hkeeps := not_lost_of_nonneg hrestored.nonneg
  refine ⟨fun p info hget => ?_, fun p call hnone hlast => ?_, fun p txid hnone hsome hindex => ?_⟩
  · rcases List.eq_nil_or_concat (writesTo p sps calls) with hnil | ⟨earlier, call, hwrites⟩
    · exact .inl hnil
    · right
      rw [List.concat_eq_append] at hwrites
      have hpopped := hwritten.popped_concat hkeeps hwrites
      rw [hrestored.entries p, hget] at hpopped
      split at hpopped
      · cases hpopped
      · next hnew =>
          -- an entry of an earlier write would bear the hash of the block
          have hearlier : earlier = [] := by
            rcases List.eq_nil_or_concat earlier with hnil | ⟨first, last, rfl⟩
            · exact hnil
            · rw [List.concat_eq_append, entryAfter_concat] at hpopped
              have hmem : last ∈ writesTo p sps calls := by simp [hwrites]
              have hlast := hwritten.update last (mem_of_mem_writesTo hmem)
              rw [← Option.some.inj hpopped] at hlast
              exact absurd hlast (hwritten.unused p info hget)
          subst hearlier
          have hmem : call ∈ writesTo p sps calls := by simp [hwrites]
          cases call with
          | putSP ecosystem info' =>
            exact absurd (hwritten.creation ecosystem info' (mem_of_mem_writesTo hmem)) hnew
          | updateSP q info' =>
            obtain rfl := eq_of_updateSP_mem hmem
            exact ⟨info', hwrites, hnew⟩
  · obtain ⟨earlier, hwrites⟩ := List.getLast?_eq_some_iff.mp hlast
    have hpopped := hwritten.popped_concat hkeeps hwrites
    rw [hrestored.entries p, hnone] at hpopped
    by_contra hnew
    rw [if_neg hnew] at hpopped
    -- nothing was put aside, so that the block could not be undone
    obtain ⟨hget, hupdate⟩ := hwritten.entry_iff.mpr ⟨call, hlast, rfl⟩
    exact hkeeps p call.info hget ⟨hupdate, hnew, by rw [hwritten.aside hwrites hnew, ← hpopped]⟩
  · rcases (popBlock_of_not_lost hkeeps).2.2 txid with ⟨-, q, info, hget, hcreated, htxid⟩ | ⟨hsame, -⟩
    · obtain ⟨call, hlast, rfl⟩ := hwritten.entry_iff.mp ⟨hget, hcreated.1⟩
      exact ⟨q, call, hlast, hcreated.2, htxid⟩
    · exact absurd (hsame.trans hindex) (hrestored.index p txid hnone hsome)

theorem WrittenBy.restored_of_undoable (hwritten : WrittenBy h sps calls)
    (hundoable : Undoable h sps calls) : Restored h sps calls := by
  have hkeeps : ∀ p info, (runCalls sps calls).entries[p]? = some info →
      ¬Lost (runCalls sps calls) h p info := by
    rintro p info hget ⟨hupdate, hnew, hnone⟩
    obtain ⟨call, hlast, rfl⟩ := hwritten.entry_iff.mp ⟨hget, hupdate⟩
    obtain ⟨earlier, hwrites⟩ := List.getLast?_eq_some_iff.mp hlast
    rw [hwritten.aside hwrites hnew] at hnone
    cases hold : sps.entries[p]? with
    | none => exact hnew (hundoable.new p call hold hlast)
    | some old =>
      rcases hundoable.old p old hold with hnil | ⟨info', hone, -⟩
      · simp [hnil] at hlast
      · obtain ⟨rfl, -⟩ := List.append_inj' (hwrites.symm.trans hone : _ = [] ++ [_]) rfl
        rw [entryAfter, List.getLast?_nil, hold] at hnone
        cases hnone
  refine ⟨(popBlock_of_not_lost hkeeps).1, fun p => ?_, fun p txid hnone hsome hindex => ?_⟩
  · rcases List.eq_nil_or_concat (writesTo p sps calls) with hnil | ⟨earlier, call, hwrites⟩
    · exact hwritten.popped_nil hkeeps hnil
    · rw [List.concat_eq_append] at hwrites
      rw [hwritten.popped_concat hkeeps hwrites]
      cases hold : sps.entries[p]? with
      | none => rw [if_pos (hundoable.new p call hold (by simp [hwrites]))]
      | some old =>
        rcases hundoable.old p old hold with hnil | ⟨info', hone, hnew⟩
        · simp [hnil] at hwrites
        · obtain ⟨rfl, hcall⟩ := List.append_inj' (hwrites.symm.trans hone : _ = [] ++ [_]) rfl
          obtain rfl : call = .updateSP p info' := by simpa using hcall
          change (if info'.creationBlock = h then none else _) = _
          rw [if_neg hnew, entryAfter, List.getLast?_nil, hold]
  · rcases (popBlock_of_not_lost hkeeps).2.2 txid with ⟨hgone, -⟩ | ⟨hsame, hnone'⟩
    · rw [hgone] at hindex
      cases hindex
    · obtain ⟨q, call, hlast, hcreation, htxid⟩ := hundoable.index p txid hnone hsome (hsame ▸ hindex)
      obtain ⟨hget, hupdate⟩ := hwritten.entry_iff.mpr ⟨call, hlast, rfl⟩
      exact hnone' ⟨q, call.info, hget, ⟨hupdate, hcreation⟩, htxid⟩

/-- **A block can be undone exactly if every property that was there is written to at most once.**  (The
other conditions say that created properties are marked as such, and found by their transactions.) -/
theorem restored_iff (hwritten : WrittenBy h sps calls) :
    Restored h sps calls ↔ Undoable h sps calls :=
  ⟨hwritten.undoable_of_restored, hwritten.restored_of_undoable⟩

end Undo

/-- Property 3, as it was created by block 5. -/
def sampleEntry : Entry := { numTokens := 100, txid := 1, creationBlock := 5, updateBlock := 5 }

def sampleDatabase : CMPSPInfo where
  entries := (∅ : ExtTreeMap PropertyId Entry compare).insert 3 sampleEntry
  txIndex := (∅ : ExtTreeMap Hash PropertyId compare).insert 1 3
  nextSpid := 4

/-- Updates of property 3 by block 7. -/
def sampleUpdates (amounts : List Int) : List SPCall :=
  amounts.map fun n => .updateSP 3 { sampleEntry with numTokens := n, updateBlock := 7 }

theorem writtenBy_sampleUpdates (amounts : List Int) :
    WrittenBy 7 sampleDatabase (sampleUpdates amounts) where
  update call hcall := by
    obtain ⟨n, -, rfl⟩ := List.mem_map.mp hcall
    rfl
  creation ecosystem info hcall := by
    obtain ⟨n, -, hn⟩ := List.mem_map.mp hcall
    cases hn
  unused p info hget := by
    rcases getElem?_of_insert hget with ⟨-, rfl⟩ | ⟨-, hnone⟩
    · decide
    · simp at hnone
  empty p := by simp [sampleDatabase]

/-- One update is undone. -/
theorem restored_iff_once : Restored 7 sampleDatabase (sampleUpdates [150]) := by
  refine (restored_iff (writtenBy_sampleUpdates [150])).mpr ⟨?_, ?_, ?_⟩
  · intro p info hget
    rcases getElem?_of_insert hget with ⟨rfl, -⟩ | ⟨-, hnone⟩
    · exact .inr ⟨_, rfl, by decide⟩
    · simp at hnone
  · intro p call hnone hlast
    have hp : (3 : PropertyId) ≠ p := by
      rintro rfl
      simp [sampleDatabase] at hnone
    simp [sampleUpdates, writesTo, SPCall.target, OMNI_PROPERTY_MSC, OMNI_PROPERTY_TMSC, hp] at hlast
  · intro p txid hnone hsome
    have hp : (3 : PropertyId) ≠ p := by
      rintro rfl
      simp [sampleDatabase] at hnone
    simp [sampleUpdates, writesTo, SPCall.target, OMNI_PROPERTY_MSC, OMNI_PROPERTY_TMSC, hp] at hsome

/-- Of two updates only the second one is undone. -/
theorem exists_update_stays :
    WrittenBy 7 sampleDatabase (sampleUpdates [150, 180]) ∧
      (sampleDatabase.entries[(3 : PropertyId)]?).map Entry.numTokens = some 100 ∧
      ((runCalls sampleDatabase (sampleUpdates [150, 180])).popBlock 7).1 = 1 ∧
      ((((runCalls sampleDatabase (sampleUpdates [150, 180])).popBlock 7).2.entries)[
        (3 : PropertyId)]?).map Entry.numTokens = some 150 := by
  refine ⟨writtenBy_sampleUpdates _, ?_, ?_, ?_⟩ <;> decide +kernel

end CMPSPInfo

end HcOmni
