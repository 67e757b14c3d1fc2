import HcOmni.Core.Basic

/-!
# The smart property database

`CMPSPInfo` (`dbspinfo.h`, `dbspinfo.cpp`): the property entries, the index from creating
transactions to properties, the previous entries kept for undoing a block, and the two counters
from which new identifiers are taken.  The entries of properties 1 and 2 are implied and never
stored.
-/

namespace HcOmni

open Std

/-- `CMPSPInfo::Entry`. -/
structure Entry where
  issuer : Address := []
  propType : Nat := 0
  prevPropId : Nat := 0
  category : Str := []
  subcategory : Str := []
  name : Str := []
  url : Str := []
  data : Str := []
  numTokens : Int := 0
  -- crowdsale generated properties
  propertyDesired : PropertyId := 0
  deadline : Int := 0
  earlyBird : Nat := 0
  percentage : Nat := 0
  -- set when a crowdsale was closed early
  closeEarly : Bool := false
  maxTokens : Bool := false
  missedTokens : Int := 0
  timeclosed : Int := 0
  txidClose : Hash := 0
  -- other information
  txid : Hash := 0
  creationBlock : Hash := 0
  updateBlock : Hash := 0
  fixed : Bool := false
  manual : Bool := false
  /-- For crowdsales: amount invested, blocktime, tokens for the user, tokens for the issuer.
  For managed properties: granted amount, revoked amount. -/
  historicalData : ExtTreeMap Hash (List Int) compare := ∅

def Entry.isDivisible (info : Entry) : Bool :=
  info.propType == MSC_PROPERTY_TYPE_DIVISIBLE ||
    info.propType == MSC_PROPERTY_TYPE_DIVISIBLE_REPLACING ||
    info.propType == MSC_PROPERTY_TYPE_DIVISIBLE_APPENDING

/-- `CMPSPInfo`: the records of the database under their key letters, and the counters. -/
structure CMPSPInfo where
  /-- the issuer of the two implied properties, fixed when the database is opened -/
  exodusAddress : Address := []
  /-- records `s`: identifier to entry -/
  entries : ExtTreeMap PropertyId Entry compare := ∅
  /-- records `t`: creating transaction to identifier -/
  txIndex : ExtTreeMap Hash PropertyId compare := ∅
  /-- records `b`: updating block and identifier to the entry before the update -/
  prevEntries : ExtTreeMap (Hash ×ₗ PropertyId) Entry compare := ∅
  /-- record `B` -/
  watermark : Option Hash := none
  nextSpid : PropertyId := 3
  nextTestSpid : PropertyId := TEST_ECO_PROPERTY_1

namespace CMPSPInfo

def impliedOmni (sps : CMPSPInfo) : Entry :=
  { issuer := sps.exodusAddress
    propType := MSC_PROPERTY_TYPE_DIVISIBLE
    numTokens := 700000
    category := "N/A".toList
    subcategory := "N/A".toList
    name := "Omni".toList
    url := "http://www.omnilayer.org".toList
    data := ("Omni serve as the binding between HC, smart properties and contracts created on " ++
      "the Omni Layer.").toList }

def impliedTomni (sps : CMPSPInfo) : Entry :=
  { sps.impliedOmni with
    name := "Test Omni".toList
    data := ("Test Omni serve as the binding between HC, smart properties and contracts created " ++
      "on the Omni Layer.").toList }

def peekNextSPID (sps : CMPSPInfo) (ecosystem : Nat) : PropertyId :=
  if ecosystem = OMNI_PROPERTY_MSC then sps.nextSpid
  else if ecosystem = OMNI_PROPERTY_TMSC then sps.nextTestSpid
  else 0

/-- Stores an entry under its identifier and indexes its creating transaction.  An entry that
is there already is overwritten; the source only logs it. -/
def writeSP (sps : CMPSPInfo) (propertyId : PropertyId) (info : Entry) : CMPSPInfo :=
  { sps with
    entries := sps.entries.insert propertyId info
    txIndex := sps.txIndex.insert info.txid propertyId }

/-- `putSP`: the identifier is taken from the counter of the ecosystem, a `uint32_t`. -/
def putSP (sps : CMPSPInfo) (ecosystem : Nat) (info : Entry) : PropertyId × CMPSPInfo :=
  if ecosystem = OMNI_PROPERTY_MSC then
    (sps.nextSpid, { sps.writeSP sps.nextSpid info with nextSpid := (sps.nextSpid + 1) % 2 ^ 32 })
  else if ecosystem = OMNI_PROPERTY_TMSC then
    (sps.nextTestSpid,
      { sps.writeSP sps.nextTestSpid info with nextTestSpid := (sps.nextTestSpid + 1) % 2 ^ 32 })
  else
    (0, sps.writeSP 0 info)

def getSP (sps : CMPSPInfo) (propertyId : PropertyId) : Option Entry :=
  if propertyId = OMNI_PROPERTY_MSC then some sps.impliedOmni
  else if propertyId = OMNI_PROPERTY_TMSC then some sps.impliedTomni
  else sps.entries[propertyId]?

/-- `updateSP`: the entry replaced is kept under the block that replaces it. -/
def updateSP (sps : CMPSPInfo) (propertyId : PropertyId) (info : Entry) : Bool × CMPSPInfo :=
  if propertyId = OMNI_PROPERTY_MSC ∨ propertyId = OMNI_PROPERTY_TMSC then
    (false, sps)
  else
    let prevEntries :=
      match sps.entries[propertyId]? with
      | some previous => sps.prevEntries.insert (toLex (info.updateBlock, propertyId)) previous
      | none => sps.prevEntries
    (true, { sps with
      prevEntries := prevEntries
      entries := sps.entries.insert propertyId info })

/-- One record of the scan of `popBlock` over the database `db`: the batch of writes with those
that undo the record, and how many properties it leaves, or the code with which the scan stops. -/
def popEntry (db : CMPSPInfo) (blockHash : Hash) (propertyId : PropertyId) (info : Entry)
    (batch : CMPSPInfo) : Except Int (CMPSPInfo × Int) :=
  if info.updateBlock = blockHash then
    if info.updateBlock = info.creationBlock then
      .ok ({ batch with
        entries := batch.entries.erase propertyId
        txIndex := batch.txIndex.erase info.txid }, 0)
    else
      match db.prevEntries[toLex (info.updateBlock, propertyId)]? with
      | some previous =>
          .ok ({ batch with
            entries := batch.entries.insert propertyId previous
            prevEntries := batch.prevEntries.erase (toLex (info.updateBlock, propertyId)) }, 1)
      | none => .error (-3)
  else
    .ok (batch, 1)

/-- `popBlock`: undoes what the block did to the properties and returns how many remain.  The
writes are applied together at the end, so a failed scan changes nothing. -/
def popBlock (sps : CMPSPInfo) (blockHash : Hash) : Int × CMPSPInfo :=
  let scan := sps.entries.toList.foldlM
    (fun (acc : CMPSPInfo × Int) (record : PropertyId × Entry) =>
      (popEntry sps blockHash record.1 record.2 acc.1).map
        fun undone => (undone.1, acc.2 + undone.2)) (sps, 0)
  match scan with
  | .ok (sps', remainingSPs) => (remainingSPs, sps')
  | .error rc => (rc, sps)

def setWatermark (sps : CMPSPInfo) (watermark : Hash) : CMPSPInfo :=
  { sps with watermark := some watermark }

/-! ### What the operations do to the entries and the counters -/

theorem getSP_of_ne {sps : CMPSPInfo} {p : PropertyId} (hp : p ≠ 1 ∧ p ≠ 2) :
    sps.getSP p = sps.entries[p]? := by
  simp [getSP, OMNI_PROPERTY_MSC, OMNI_PROPERTY_TMSC, hp]

theorem updateSP_of_ne {sps : CMPSPInfo} {p : PropertyId} (hp : p ≠ 1 ∧ p ≠ 2) (info : Entry) :
    (sps.updateSP p info).1 = true ∧
      (sps.updateSP p info).2.entries = sps.entries.insert p info ∧
      (sps.updateSP p info).2.nextSpid = sps.nextSpid ∧
      (sps.updateSP p info).2.nextTestSpid = sps.nextTestSpid := by
  simp [updateSP, OMNI_PROPERTY_MSC, OMNI_PROPERTY_TMSC, hp]

theorem putSP_main (sps : CMPSPInfo) (info : Entry) :
    (sps.putSP 1 info).2.entries = sps.entries.insert sps.nextSpid info ∧
      (sps.putSP 1 info).2.nextSpid = (sps.nextSpid + 1) % 2 ^ 32 ∧
      (sps.putSP 1 info).2.nextTestSpid = sps.nextTestSpid :=
  ⟨rfl, rfl, rfl⟩

theorem putSP_test (sps : CMPSPInfo) (info : Entry) :
    (sps.putSP 2 info).2.entries = sps.entries.insert sps.nextTestSpid info ∧
      (sps.putSP 2 info).2.nextSpid = sps.nextSpid ∧
      (sps.putSP 2 info).2.nextTestSpid = (sps.nextTestSpid + 1) % 2 ^ 32 :=
  ⟨rfl, rfl, rfl⟩

end CMPSPInfo

end HcOmni
