import HcOmni.Core.Basic
import HcOmni.Lib.MapSum

/-!
# Balance records

The tally of one address (`tally.h`, `tally.cpp`): a map from property identifiers to records
of five amounts.  `CMPTally.updateMoney` is the only writer; it refuses an amount of zero, a
result outside `int64_t`, and a negative result for every kind of amount but the pending one.
-/

namespace HcOmni

open Std MapSum

/-- Balance record types. -/
inductive TallyType where
  | BALANCE
  | SELLOFFER_RESERVE
  | ACCEPT_RESERVE
  | PENDING
  | METADEX_RESERVE
  deriving DecidableEq, Repr

/-- The amounts of one property held by one address. -/
structure BalanceRecord where
  balance : Int := 0
  sellofferReserve : Int := 0
  acceptReserve : Int := 0
  pending : Int := 0
  metadexReserve : Int := 0
  deriving DecidableEq, Repr

namespace BalanceRecord

def get (record : BalanceRecord) : TallyType → Int
  | .BALANCE => record.balance
  | .SELLOFFER_RESERVE => record.sellofferReserve
  | .ACCEPT_RESERVE => record.acceptReserve
  | .PENDING => record.pending
  | .METADEX_RESERVE => record.metadexReserve

def set (record : BalanceRecord) (ttype : TallyType) (amount : Int) : BalanceRecord :=
  match ttype with
  | .BALANCE => { record with balance := amount }
  | .SELLOFFER_RESERVE => { record with sellofferReserve := amount }
  | .ACCEPT_RESERVE => { record with acceptReserve := amount }
  | .PENDING => { record with pending := amount }
  | .METADEX_RESERVE => { record with metadexReserve := amount }

theorem get_set (record : BalanceRecord) (ttype ttype' : TallyType) (amount : Int) :
    (record.set ttype amount).get ttype' = if ttype = ttype' then amount else record.get ttype' := by
  cases ttype <;> cases ttype' <;> rfl

end BalanceRecord

/-- The balance records of a single address. -/
structure CMPTally where
  mpToken : ExtTreeMap PropertyId BalanceRecord compare := ∅

namespace CMPTally

/-- Whether `a + b` leaves the range of `int64_t`. -/
def isOverflow (a b : Int) : Bool :=
  (decide (b > 0) && decide (a > MAX_INT_8_BYTES - b)) ||
    (decide (b < 0) && decide (a < MIN_INT_8_BYTES - b))

def getMoney (tally : CMPTally) (propertyId : PropertyId) (ttype : TallyType) : Int :=
  match tally.mpToken[propertyId]? with
  | some record => record.get ttype
  | none => 0

/-- The record read by `mp_token[propertyId]`, which a missing key creates with zero amounts. -/
def record (tally : CMPTally) (propertyId : PropertyId) : BalanceRecord :=
  tally.mpToken.getD propertyId {}

/-- The tally with `record` stored for the property. -/
def setRecord (tally : CMPTally) (propertyId : PropertyId) (record : BalanceRecord) : CMPTally :=
  { mpToken := tally.mpToken.insert propertyId record }

/-- The tally with the amount added, whatever the result. -/
def add (tally : CMPTally) (propertyId : PropertyId) (amount : Int) (ttype : TallyType) : CMPTally :=
  let record := tally.record propertyId
  tally.setRecord propertyId (record.set ttype (record.get ttype + amount))

/-- Updates the number of tokens for the given tally type, and says whether it did.  The record
exists afterwards unless the amount is zero. -/
def updateMoney (tally : CMPTally) (propertyId : PropertyId) (amount : Int) (ttype : TallyType) :
    Bool × CMPTally :=
  if amount = 0 then
    (false, tally)
  else
    let now64 := (tally.record propertyId).get ttype
    if isOverflow now64 amount then
      (false, tally.setRecord propertyId (tally.record propertyId))
    else if ttype ≠ .PENDING ∧ now64 + amount < 0 then
      (false, tally.setRecord propertyId (tally.record propertyId))
    else
      (true, tally.add propertyId amount ttype)

/-- The identifiers `next()` returns from `init()` on: ascending, up to a record of property 0. -/
def properties (tally : CMPTally) : List PropertyId :=
  tally.mpToken.keys.takeWhile (· ≠ 0)

/-! ### What the operations do to the amounts -/

theorem get_record (tally : CMPTally) (p : PropertyId) (ttype : TallyType) :
    (tally.record p).get ttype = tally.getMoney p ttype := by
  unfold record getMoney
  rw [ExtTreeMap.getD_eq_getD_getElem?]
  cases tally.mpToken[p]? with
  | none => cases ttype <;> rfl
  | some r => rfl

theorem getMoney_setRecord (tally : CMPTally) (p p' : PropertyId) (r : BalanceRecord)
    (ttype : TallyType) :
    (tally.setRecord p r).getMoney p' ttype =
      if p = p' then r.get ttype else tally.getMoney p' ttype := by
  unfold setRecord getMoney
  rw [ExtTreeMap.getElem?_insert]
  simp only [Nat.compare_eq_eq]
  by_cases h : p = p' <;> simp [h]

theorem getMoney_add (tally : CMPTally) (p p' : PropertyId) (amount : Int)
    (ttype ttype' : TallyType) :
    (tally.add p amount ttype).getMoney p' ttype' =
      tally.getMoney p' ttype' + if p = p' ∧ ttype = ttype' then amount else 0 := by
  unfold add
  rw [getMoney_setRecord, BalanceRecord.get_set, get_record, get_record]
  by_cases hp : p = p'
  · subst hp
    by_cases ht : ttype = ttype'
    · subst ht; simp
    · simp [ht]
  · simp [hp]

@[simp] theorem getMoney_empty (p : PropertyId) (ttype : TallyType) :
    ({} : CMPTally).getMoney p ttype = 0 := by
  simp [getMoney]

/-- The condition under which `updateMoney` adds an amount that is not pending. -/
def Admits (now64 amount : Int) : Prop :=
  amount ≠ 0 ∧ 0 ≤ now64 + amount ∧ (0 < amount → now64 + amount ≤ MAX_INT_8_BYTES)

theorem isOverflow_eq_false_of_admits {now64 amount : Int} (h : Admits now64 amount) :
    isOverflow now64 amount = false := by
  obtain ⟨-, hneg, hmax⟩ := h
  unfold isOverflow MIN_INT_8_BYTES
  unfold MAX_INT_8_BYTES at *
  simp only [Bool.or_eq_false_iff, Bool.and_eq_false_iff, decide_eq_false_iff_not]
  omega

/-- **The only writer.**  A successful update adds the amount, and an update succeeds exactly if
the amount is admitted. -/
theorem updateMoney_of_admits {tally : CMPTally} {p : PropertyId} {amount : Int}
    {ttype : TallyType} (h : Admits (tally.getMoney p ttype) amount) :
    tally.updateMoney p amount ttype = (true, tally.add p amount ttype) := by
  have hover := isOverflow_eq_false_of_admits h
  obtain ⟨hzero, hneg, -⟩ := h
  have hnot : ¬(ttype ≠ .PENDING ∧ tally.getMoney p ttype + amount < 0) := by
    rintro ⟨-, hlt⟩
    omega
  unfold updateMoney
  simp only [get_record, hzero, hover, hnot, if_false, Bool.false_eq_true]

theorem admits_of_updateMoney {tally : CMPTally} {p : PropertyId} {amount : Int}
    {ttype : TallyType} (hpending : ttype ≠ .PENDING)
    (h : (tally.updateMoney p amount ttype).1 = true) :
    Admits (tally.getMoney p ttype) amount := by
  unfold updateMoney at h
  simp only [get_record] at h
  by_cases hzero : amount = 0
  · simp [hzero] at h
  by_cases hover : isOverflow (tally.getMoney p ttype) amount = true
  · simp [hzero, hover] at h
  by_cases hneg : tally.getMoney p ttype + amount < 0
  · simp [hzero, hover, hneg, hpending] at h
  refine ⟨hzero, by omega, fun hpos => ?_⟩
  unfold isOverflow at hover
  simp only [Bool.or_eq_true, Bool.and_eq_true, decide_eq_true_eq] at hover
  omega

theorem setRecord_record (tally : CMPTally) (p : PropertyId) :
    tally.setRecord p (tally.record p) = tally.add p 0 .PENDING := by
  unfold add
  simp only [BalanceRecord.get, BalanceRecord.set, Int.add_zero]

theorem updateMoney_cases {tally : CMPTally} {p : PropertyId} {amount : Int} {ttype : TallyType}
    (hzero : amount ≠ 0) :
    tally.updateMoney p amount ttype = (false, tally.add p 0 .PENDING) ∨
      tally.updateMoney p amount ttype = (true, tally.add p amount ttype) := by
  unfold updateMoney
  rw [if_neg hzero, setRecord_record]
  dsimp only
  split
  · exact .inl rfl
  · split
    · exact .inl rfl
    · exact .inr rfl

end CMPTally

end HcOmni
