import Mathlib

/-!
# Constants, identifiers and the effects of the token engine

The basic vocabulary of `omnicore.h`: the property identifiers, the transaction types and the
return code bases, and the monad in which the engine's functions are written.

Strings are lists of characters, hashes and identifiers natural numbers, and amounts integers;
where a C++ type has a width, the function that can leave its range says so.
-/

namespace HcOmni

open Std

/-! ### Identifiers -/

/-- A `std::string`. -/
abbrev Str := List Char

/-- An address as the engine stores it: a plain string. -/
abbrev Address := Str

/-- A `uint256` used as the hash of a transaction or of a block. -/
abbrev Hash := Nat

/-- A property identifier, a `uint32_t`. -/
abbrev PropertyId := Nat

def OMNI_PROPERTY_BTC : PropertyId := 0
def OMNI_PROPERTY_MSC : PropertyId := 1
def OMNI_PROPERTY_TMSC : PropertyId := 2
def TEST_ECO_PROPERTY_1 : PropertyId := 0x80000003

def isTestEcosystemProperty (propertyId : PropertyId) : Bool :=
  propertyId == OMNI_PROPERTY_TMSC || decide (TEST_ECO_PROPERTY_1 ≤ propertyId)

def isMainEcosystemProperty (propertyId : PropertyId) : Bool :=
  propertyId != OMNI_PROPERTY_BTC && !isTestEcosystemProperty propertyId

/-- Keys of two components, compared by the first and then by the second. -/
instance instLawfulEqOrdLex {α β : Type} [Ord α] [Ord β] [LawfulEqOrd α] [LawfulEqOrd β] :
    LawfulEqOrd (α ×ₗ β) where
  compare_self {a} := by
    change (compare a.1 a.1).then (compare a.2 a.2) = .eq
    simp
  eq_of_compare {a b} h := by
    obtain ⟨h₁, h₂⟩ := Ordering.then_eq_eq.mp
      (show (compare a.1 b.1).then (compare a.2 b.2) = .eq from h)
    exact Prod.ext (LawfulEqOrd.eq_of_compare h₁) (LawfulEqOrd.eq_of_compare h₂)

/-- Prices are compared as numbers. -/
instance instTransCmpPrice : TransCmp (compare : ℚ → ℚ → Ordering) := inferInstance

/-- The key of an order inside a price level: its block, then its index within the block. -/
abbrev OrderKey := Int ×ₗ Nat

/-! ### Machine integers -/

/-- `std::numeric_limits<int64_t>::max()`, the `MAX_INT_8_BYTES` of the specification. -/
def MAX_INT_8_BYTES : Int := 9223372036854775807

/-- `std::numeric_limits<int64_t>::min()`. -/
def MIN_INT_8_BYTES : Int := -9223372036854775808

/-- Conversion of an arbitrary integer to `int64_t`. -/
def toInt64 (x : Int) : Int := x.bmod (2 ^ 64)

/-- Conversion of an arbitrary integer to a 32 bit `int`. -/
def toInt32 (x : Int) : Int := x.bmod (2 ^ 32)

theorem toInt64_le (x : Int) : toInt64 x ≤ MAX_INT_8_BYTES := by
  have := Int.bmod_lt (x := x) (m := 2 ^ 64) (by decide)
  unfold toInt64 MAX_INT_8_BYTES
  omega

theorem toInt64_of_range {x : Int} (hlo : MIN_INT_8_BYTES ≤ x) (hhi : x ≤ MAX_INT_8_BYTES) :
    toInt64 x = x := by
  unfold MIN_INT_8_BYTES at hlo
  unfold MAX_INT_8_BYTES at hhi
  unfold toInt64
  rw [Int.bmod_eq_of_le] <;> omega

/-! ### Transaction types, versions and return codes -/

def MP_TX_PKT_V0 : Nat := 0
def MP_TX_PKT_V1 : Nat := 1

def MSC_TYPE_SIMPLE_SEND : Nat := 0
def MSC_TYPE_SEND_TO_OWNERS : Nat := 3
def MSC_TYPE_SEND_ALL : Nat := 4
def MSC_TYPE_TRADE_OFFER : Nat := 20
def MSC_TYPE_ACCEPT_OFFER_BTC : Nat := 22
def MSC_TYPE_METADEX_TRADE : Nat := 25
def MSC_TYPE_METADEX_CANCEL_PRICE : Nat := 26
def MSC_TYPE_METADEX_CANCEL_PAIR : Nat := 27
def MSC_TYPE_METADEX_CANCEL_ECOSYSTEM : Nat := 28
def MSC_TYPE_OFFER_ACCEPT_A_BET : Nat := 40
def MSC_TYPE_CREATE_PROPERTY_FIXED : Nat := 50
def MSC_TYPE_CREATE_PROPERTY_VARIABLE : Nat := 51
def MSC_TYPE_CLOSE_CROWDSALE : Nat := 53
def MSC_TYPE_CREATE_PROPERTY_MANUAL : Nat := 54
def MSC_TYPE_GRANT_PROPERTY_TOKENS : Nat := 55
def MSC_TYPE_REVOKE_PROPERTY_TOKENS : Nat := 56
def MSC_TYPE_CHANGE_ISSUER_ADDRESS : Nat := 70
def MSC_TYPE_ENABLE_FREEZING : Nat := 71
def MSC_TYPE_DISABLE_FREEZING : Nat := 72
def MSC_TYPE_FREEZE_PROPERTY_TOKENS : Nat := 185
def MSC_TYPE_UNFREEZE_PROPERTY_TOKENS : Nat := 186
def MSC_TYPE_SEND_AGREEMENT : Nat := 202
def OMNICORE_MESSAGE_TYPE_DEACTIVATION : Nat := 65533
def OMNICORE_MESSAGE_TYPE_ACTIVATION : Nat := 65534
def OMNICORE_MESSAGE_TYPE_ALERT : Nat := 65535

def MSC_PROPERTY_TYPE_INDIVISIBLE : Nat := 1
def MSC_PROPERTY_TYPE_DIVISIBLE : Nat := 2
def MSC_PROPERTY_TYPE_DIVISIBLE_REPLACING : Nat := 66
def MSC_PROPERTY_TYPE_DIVISIBLE_APPENDING : Nat := 130

def PKT_ERROR : Int := -9000
def DEX_ERROR_SELLOFFER : Int := -10000
def DEX_ERROR_ACCEPT : Int := -20000
def DEX_ERROR_PAYMENT : Int := -30000
def PKT_ERROR_SP : Int := -40000
def PKT_ERROR_CROWD : Int := -45000
def PKT_ERROR_STO : Int := -50000
def PKT_ERROR_SEND : Int := -60000
def PKT_ERROR_TRADEOFFER : Int := -70000
def PKT_ERROR_METADEX : Int := -80000
def METADEX_ERROR : Int := -81000
def PKT_ERROR_TOKENS : Int := -82000
def PKT_ERROR_SEND_ALL : Int := -83000

/-! ### How a call ends -/

/-- The assertions of the source, told apart as far as the results about them do. -/
inductive Assertion where
  /-- `assert(update_tally_map(...))` -/
  | tallyUpdated
  /-- `assert(!isAddressFrozen(who, propertyId))` inside `update_tally_map` -/
  | notFrozen
  /-- `assert(sent_so_far == (int64_t)nValue)` of a send to owners -/
  | allSent
  /-- every other assertion -/
  | other
  deriving DecidableEq, Repr

/-- The ways a call ends other than by running to its last statement. -/
inductive Halt where
  /-- an early `return rc` -/
  | ret (rc : Int)
  /-- a thrown exception, caught by the caller of the packet interpreter -/
  | thrown
  /-- a failed assertion; the process is gone -/
  | abort (what : Assertion)
  /-- an access through a null pointer or past the end; the process is gone -/
  | crash
  /-- a loop that never ends -/
  | hang
  deriving DecidableEq, Repr

/-- The process survives early returns and exceptions, and nothing else. -/
def Halt.Live : Halt → Prop
  | .ret _ => True
  | .thrown => True
  | .abort _ => False
  | .crash => False
  | .hang => False

instance : DecidablePred Halt.Live
  | .ret _ => .isTrue trivial
  | .thrown => .isTrue trivial
  | .abort _ => .isFalse id
  | .crash => .isFalse id
  | .hang => .isFalse id

end HcOmni
