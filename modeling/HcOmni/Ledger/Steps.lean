import HcOmni.Core.System
import HcOmni.Ledger.Balances

/-!
# What the engine can do to its state

Every change a running transaction makes to the engine's state is one of the steps listed here,
each with the guard under which the source makes it.  The functions of the engine are shown to
take only such steps, and every invariant is shown to be kept by each of them, so the two can be
changed independently.

Freezing, and the activation of features, are not steps: a transaction that does the one does
nothing else, and one that does the other does it first.
-/

namespace HcOmni

open Std MapSum Program CMPTally

/-! ### Circumstances -/

/-- An address without the separators of the lookup keys of the classic exchange. -/
def CleanAddress (a : Address) : Prop := ∀ ch ∈ a, isKeySeparator ch = false

instance : DecidablePred CleanAddress := fun a => List.decidableBAll _ a

/-- What is known about the event that is being executed.  The propositions are promises of the
surroundings; the steps are listed for all circumstances, and some guards are only promised under
some of them. -/
structure Ctx where
  block : Int
  txid : Hash
  /-- the addresses that may open an accept -/
  Addr : Address → Prop
  /-- the places in the chain from which an order may come -/
  Place : Int → Nat → Prop
  /-- the transaction identifier is new, and no earlier event had a greater height -/
  Tracked : Prop
  /-- no payment computes a negative purchase -/
  Fits : Prop
  /-- developer tokens may vest -/
  Vests : Prop
  /-- no token movement may fail -/
  Strict : Prop
  tracked_of_strict : Strict → Tracked
  fits_of_strict : Strict → Fits
  clean_of_strict : Strict → ∀ a, Addr a → CleanAddress a

namespace State

/-- The counter of the main ecosystem has run into the identifiers of the test ecosystem, or has
been through all of them. -/
def Overrun (s : State) : Prop :=
  s.mySps.nextSpid = 0 ∨ TEST_ECO_PROPERTY_1 < s.mySps.nextSpid

theorem not_overrun_of_eq {s : State} {n : Nat} (h : s.mySps.nextSpid = n)
    (hn : ¬(n = 0 ∨ TEST_ECO_PROPERTY_1 < n)) : ¬s.Overrun := by
  unfold Overrun
  rwa [h]

/-- No item of the fee cache is from a block above the given one. -/
def FeesOrdered (s : State) (block : Int) : Prop :=
  ∀ (p : PropertyId) (history : ExtTreeMap Int Int compare), s.feecache[p]? = some history →
    ∀ (b v : Int), history[b]? = some v → b ≤ block

/-- A credit to the balance, if there is anything to credit. -/
def credit (s : State) (who : Address) (p : PropertyId) (n : Int) : State :=
  { s with
    mpTallyMap := if 0 < n then (s.addTally who p n .BALANCE).mpTallyMap else s.mpTallyMap }

/-- There is room for the credit. -/
def CanCredit (s : State) (who : Address) (p : PropertyId) (n : Int) : Prop :=
  0 < n → s.money who p .BALANCE + n ≤ MAX_INT_8_BYTES

/-- The order is replaced by what is left of it, or leaves the book. -/
def replaceOrder (s : State) (prop : PropertyId) (price : ℚ) (order : CMPMetaDEx) (left : Int) :
    State :=
  s.putMdSet prop price
    (if 0 < left then
      ((s.mdSet prop price).erase order.key).insert order.key { order with amountRemaining := left }
    else
      (s.mdSet prop price).erase order.key)

/-- The state with a property stored under the next identifier of the ecosystem. -/
def putNew (s : State) (ecosystem : Nat) (info : Entry) : State :=
  { s with mySps := (s.mySps.putSP ecosystem info).2 }

/-- The state with the entry of a property replaced. -/
def putEntry (s : State) (p : PropertyId) (info : Entry) : State :=
  { s with mySps := (s.mySps.updateSP p info).2 }

end State

open State

/-- The supply of every property can be followed: nothing that was promised has been broken, and
the identifiers are not exhausted. -/
def Ctx.Tracks (c : Ctx) (s : State) : Prop := c.Tracked ∧ ¬s.Overrun

/-! ### Fees -/

/-- What adding `fee` tokens of `p` to the fee cache can do, including the distribution that
follows once the threshold is reached: balances only grow, and nothing is lost between the cache
and the owners. -/
structure FeeStep (c : Ctx) (p : PropertyId) (fee : Int) (s s' : State) : Prop where
  frame : s' = { s with mpTallyMap := s'.mpTallyMap, feecache := s'.feecache, aux := s'.aux }
  params : s'.aux.params = s.aux.params
  vested : s'.aux.exodusPrev = s.aux.exodusPrev
  credited : ∀ a q t, s'.money a q t = s.money a q t ∨
    (q = p ∧ t = .BALANCE ∧ s.money a q t ≤ s'.money a q t ∧ s'.money a q t ≤ MAX_INT_8_BYTES)
  other : ∀ q, q ≠ p → s'.getCachedAmount q = s.getCachedAmount q
  idle : fee = 0 → s.getCachedAmount p = 0 →
    s'.mpTallyMap = s.mpTallyMap ∧ s'.getCachedAmount p = 0
  ordered : s.FeesOrdered c.block → s'.FeesOrdered c.block
  total : c.Tracks s → ∀ q, s'.held q + s'.getCachedAmount q =
    s.held q + s.getCachedAmount q + if q = p then fee else 0
  cached : c.Tracks s → ∀ q, 0 ≤ s'.getCachedAmount q

/-! ### The steps -/

/-- One change of the engine's state. -/
inductive Step (c : Ctx) : State → State → Prop
  -- bookkeeping
  | aux {s : State} (aux : Aux) (hparams : aux.params = s.aux.params)
      (hvested : aux.exodusPrev = s.aux.exodusPrev) : Step c s { s with aux := aux }
  | pending {s : State} (who : Address) (p : PropertyId) (n : Int) :
      Step c s (s.addTally who p n .PENDING)
  -- sending, and the fees of sends to owners
  | transfer {s : State} {p : PropertyId} {n : Int} {a b : Address}
      (hmove : s.CanMove p n a .BALANCE b .BALANCE) (hfrozen : s.isAddressFrozen a p = false) :
      Step c s (s.move p n a .BALANCE b .BALANCE)
  | burn {s : State} {p : PropertyId} {n : Int} {a : Address} (hp : p = 1 ∨ p = 2) (hpos : 0 < n)
      (henough : n ≤ s.money a p .BALANCE) (hfrozen : s.isAddressFrozen a p = false) :
      Step c s (s.addTally a p (-n) .BALANCE)
  | feePaid {s s' : State} {p : PropertyId} {n : Int} {a : Address} (hloose : ¬c.Strict)
      (hp : p = 1 ∨ p = 2) (hpos : 0 < n) (henough : n ≤ s.money a p .BALANCE)
      (hfrozen : s.isAddressFrozen a p = false)
      (hfee : FeeStep c p n (s.addTally a p (-n) .BALANCE) s') : Step c s s'
  | distribute {s s' : State} {p : PropertyId} {fee : Int} (hloose : ¬c.Strict)
      (hfee : FeeStep c p fee s s') (hzero : fee = 0 ∨ ¬c.Tracks s ∧ 2 < p) : Step c s s'
  -- vesting
  | vest {s : State} {n credited : Int} {a : Address} (hvests : c.Vests) (hpos : 0 < n)
      (hreward : s.aux.exodusPrev + n ≤ ALL_REWARD)
      (hcredited : credited = n ∧ s.CanCredit a OMNI_PROPERTY_MSC n ∨ credited = 0) :
      Step c s { s.credit a OMNI_PROPERTY_MSC credited with aux.exodusPrev := s.aux.exodusPrev + n }
  -- the token exchange
  | orderAdd {s : State} {order : CMPMetaDEx}
      (hmove : s.CanMove order.property order.amountRemaining order.addr .BALANCE order.addr
        .METADEX_RESERVE)
      (hfrozen : s.isAddressFrozen order.addr order.property = false)
      (hnew : (s.mdSet order.property order.unitPrice)[order.key]? = none)
      (hforsale : order.amountRemaining ≤ order.amountForsale ∧
        order.amountForsale ≤ MAX_INT_8_BYTES)
      (hdesired : 0 < order.amountDesired ∧ order.amountDesired ≤ MAX_INT_8_BYTES)
      (hplace : c.Place order.block order.idx) :
      Step c s ((s.move order.property order.amountRemaining order.addr .BALANCE order.addr
        .METADEX_RESERVE).insertOrder order.property order.unitPrice order)
  | orderRemove {s : State} {prop : PropertyId} {price : ℚ} {order : CMPMetaDEx}
      (hstored : (s.mdSet prop price)[order.key]? = some order)
      (hmove : s.CanMove order.property order.amountRemaining order.addr .METADEX_RESERVE order.addr
        .BALANCE) :
      Step c s ((s.move order.property order.amountRemaining order.addr .METADEX_RESERVE order.addr
        .BALANCE).eraseOrder prop price order.key)
  | orderFill {s s₀ : State} {price : ℚ} {order : CMPMetaDEx} {buyer : Address}
      {paid got fee : Int}
      (hfee : FeeStep c order.property fee s s₀) (hfeeless : c.Strict → s₀ = s ∧ fee = 0)
      (hfee_nonneg : 0 ≤ fee) (hfee_lt : fee < got)
      (hstored : (s.mdSet order.property price)[order.key]? = some order)
      (hgot : got ≤ order.amountRemaining)
      (hfrozen : s.isAddressFrozen buyer order.desiredProperty = false)
      (hpay : s₀.CanMove order.desiredProperty paid buyer .BALANCE order.addr .BALANCE)
      (henough : got ≤ (s₀.move order.desiredProperty paid buyer .BALANCE order.addr
        .BALANCE).money order.addr order.property .METADEX_RESERVE)
      (hroom : ((s₀.move order.desiredProperty paid buyer .BALANCE order.addr .BALANCE).addTally
        order.addr order.property (-got) .METADEX_RESERVE).money buyer order.property .BALANCE +
          (got - fee) ≤ MAX_INT_8_BYTES) :
      Step c s ((((s₀.move order.desiredProperty paid buyer .BALANCE order.addr .BALANCE).addTally
        order.addr order.property (-got) .METADEX_RESERVE).addTally buyer order.property (got - fee)
          .BALANCE).replaceOrder order.property price order (order.amountRemaining - got))
  -- the classic exchange
  | offerPut {s : State} (a : Address) (p : PropertyId) (offer : CMPOffer) (hp : p = 1 ∨ p = 2)
      (hown : offer.property = p ∧ offer.subaction = 0) :
      Step c s { s with myOffers := s.myOffers.insert (sellofferKey a p) offer }
  | offerReserve {s : State} {p : PropertyId} {n : Int} {a : Address}
      (hmove : s.CanMove p n a .BALANCE a .SELLOFFER_RESERVE)
      (hfrozen : s.isAddressFrozen a p = false) (hoffer : (s.dexGetOffer a p).isSome) :
      Step c s (s.move p n a .BALANCE a .SELLOFFER_RESERVE)
  | offerRelease {s : State} {p : PropertyId} {n : Int} {a : Address}
      (hmove : s.CanMove p n a .SELLOFFER_RESERVE a .BALANCE) :
      Step c s (s.move p n a .SELLOFFER_RESERVE a .BALANCE)
  | offerErase {s : State} (a : Address) (p : PropertyId)
      (hempty : s.money a p .SELLOFFER_RESERVE ≤ 0) :
      Step c s { s with myOffers := s.myOffers.erase (sellofferKey a p) }
  | acceptOpen {s : State} {buyer seller : Address} {p : PropertyId} {accept : CMPAccept}
      (haddr : c.Addr buyer ∧ c.Addr seller) (hoffer : (s.dexGetOffer seller p).isSome)
      (hnone : s.dexGetAccept seller p buyer = none)
      (hmove : s.CanMove p accept.acceptAmountRemaining seller .SELLOFFER_RESERVE seller
        .ACCEPT_RESERVE)
      (hown : ∀ offer, s.dexGetOffer seller p = some offer → accept.property = offer.property) :
      Step c s { s.move p accept.acceptAmountRemaining seller .SELLOFFER_RESERVE seller
        .ACCEPT_RESERVE with myAccepts := s.myAccepts.insert (acceptKey seller buyer p) accept }
  | acceptPay {s : State} {buyer seller : Address} {p : PropertyId} {accept : CMPAccept} {n : Int}
      (hget : s.dexGetAccept seller p buyer = some accept) (hpart : n < accept.acceptAmountRemaining)
      (hmove : s.CanMove p n seller .ACCEPT_RESERVE buyer .BALANCE) :
      Step c s { s.move p n seller .ACCEPT_RESERVE buyer .BALANCE with
        myAccepts := s.myAccepts.insert (acceptKey seller buyer p)
          { accept with acceptAmountRemaining := accept.acceptAmountRemaining - n } }
  | acceptPaid {s : State} {buyer seller : Address} {p : PropertyId} {accept : CMPAccept}
      (hget : s.dexGetAccept seller p buyer = some accept)
      (hmove : s.CanMove p accept.acceptAmountRemaining seller .ACCEPT_RESERVE buyer .BALANCE) :
      Step c s { s.move p accept.acceptAmountRemaining seller .ACCEPT_RESERVE buyer .BALANCE with
        myAccepts := s.myAccepts.erase (acceptKey seller buyer p) }
  | acceptGrow {s : State} {buyer seller : Address} {p : PropertyId} {accept : CMPAccept} {n : Int}
      (hunfit : ¬c.Fits) (hget : s.dexGetAccept seller p buyer = some accept) (hneg : n < 0) :
      Step c s { s with
        myAccepts := s.myAccepts.insert (acceptKey seller buyer p)
          { accept with acceptAmountRemaining := accept.acceptAmountRemaining - n } }
  | acceptEnd {s : State} {key : Str} {buyer seller : Address} {p : PropertyId}
      {expired accept : CMPAccept} {t : TallyType} (hkey : s.myAccepts[key]? = some expired)
      (hparse : parseAcceptKey key = some (seller, p, buyer))
      (hget : s.dexGetAccept seller p buyer = some accept)
      (ht : t = .BALANCE ∨ (t = .SELLOFFER_RESERVE ∧ (s.dexGetOffer seller p).isSome))
      (hmove : s.CanMove p accept.acceptAmountRemaining seller .ACCEPT_RESERVE seller t) :
      Step c s { s.move p accept.acceptAmountRemaining seller .ACCEPT_RESERVE seller t with
        myAccepts := s.myAccepts.erase key }
  | acceptDrop {s : State} {key : Str} {buyer seller : Address} {p : PropertyId}
      (hparse : parseAcceptKey key = some (seller, p, buyer))
      (hgone : ∀ accept, s.dexGetAccept seller p buyer = some accept →
        accept.acceptAmountRemaining ≤ 0) :
      Step c s { s with myAccepts := s.myAccepts.erase key }
  -- properties
  | createFixed {s : State} {ecosystem : Nat} {info : Entry} {a : Address}
      (heco : ecosystem = 1 ∨ ecosystem = 2) (hid : 0 < s.mySps.peekNextSPID ecosystem)
      (hspace : c.Strict → s.mySps.nextSpid < TEST_ECO_PROPERTY_1)
      (hfixed : info.fixed = true) (hmanual : info.manual = false)
      (hdata : info.historicalData = ∅) (hpos : 0 < info.numTokens)
      (hmax : info.numTokens ≤ MAX_INT_8_BYTES)
      (hroom : s.CanCredit a (s.mySps.peekNextSPID ecosystem) info.numTokens) :
      Step c s ((s.putNew ecosystem info).credit a (s.mySps.peekNextSPID ecosystem) info.numTokens)
  | createManaged {s : State} {ecosystem : Nat} {info : Entry}
      (heco : ecosystem = 1 ∨ ecosystem = 2) (hid : 0 < s.mySps.peekNextSPID ecosystem)
      (hspace : c.Strict → s.mySps.nextSpid < TEST_ECO_PROPERTY_1)
      (hfixed : info.fixed = false) (hmanual : info.manual = true) (hdata : info.historicalData = ∅) :
      Step c s (s.putNew ecosystem info)
  | createCrowdsale {s : State} {ecosystem : Nat} {info : Entry} {a : Address} {crowd : CMPCrowd}
      (heco : ecosystem = 1 ∨ ecosystem = 2) (hid : 0 < s.mySps.peekNextSPID ecosystem)
      (hspace : c.Strict → s.mySps.nextSpid < TEST_ECO_PROPERTY_1)
      (hfixed : info.fixed = false) (hmanual : info.manual = false)
      (hmissed : info.missedTokens = 0) (hdata : info.historicalData = ∅)
      (hnone : s.myCrowds[a]? = none)
      (hproperty : crowd.propertyId = s.mySps.peekNextSPID ecosystem)
      (hcrowd : crowd.uCreated = 0 ∧ crowd.iCreated = 0 ∧ crowd.txFundraiserData = ∅) :
      Step c s { s.putNew ecosystem info with myCrowds := s.myCrowds.insert a crowd }
  | grant {s : State} {p : PropertyId} {sp : Entry} {n : Int} {a : Address} (blockHash : Hash)
      (hp : p ≠ 1 ∧ p ≠ 2) (hget : s.mySps.getSP p = some sp) (hmanual : sp.manual = true)
      (hpos : 0 < n) (hsupply : n ≤ MAX_INT_8_BYTES - s.getTotalTokens p)
      (hfresh : c.Tracked → sp.historicalData[c.txid]? = none) (hroom : s.CanCredit a p n) :
      Step c s ((s.putEntry p { sp with
        historicalData := sp.historicalData.insertIfNew c.txid [n, 0]
        updateBlock := blockHash }).credit a p n)
  | revoke {s : State} {p : PropertyId} {sp : Entry} {n : Int} {a : Address} (blockHash : Hash)
      (hp : p ≠ 1 ∧ p ≠ 2) (hget : s.mySps.getSP p = some sp) (hmanual : sp.manual = true)
      (hpos : 0 < n) (henough : n ≤ s.money a p .BALANCE) (hfrozen : s.isAddressFrozen a p = false)
      (hfresh : c.Tracked → sp.historicalData[c.txid]? = none) :
      Step c s ((s.addTally a p (-n) .BALANCE).putEntry p { sp with
        historicalData := sp.historicalData.insertIfNew c.txid [0, n]
        updateBlock := blockHash })
  | changeIssuer {s : State} {p : PropertyId} {sp : Entry} (issuer : Address) (blockHash : Hash)
      (hp : p ≠ 1 ∧ p ≠ 2) (hget : s.mySps.getSP p = some sp) :
      Step c s (s.putEntry p { sp with issuer := issuer, updateBlock := blockHash })
  | participate {s : State} {sender receiver : Address} {crowd : CMPCrowd} {sp : Entry}
      {paid time forUser forIssuer : Int}
      (hcrowd : s.myCrowds[receiver]? = some crowd)
      (hget : s.mySps.getSP crowd.propertyId = some sp)
      (huser : 0 ≤ forUser) (hissuer : 0 ≤ forIssuer)
      (hsupply : c.Tracks s →
        s.getTotalTokens crowd.propertyId + forUser + forIssuer ≤ MAX_INT_8_BYTES)
      (hfresh : c.Tracked → crowd.txFundraiserData[c.txid]? = none)
      (hroom : s.CanCredit sender crowd.propertyId forUser)
      (hroom' : (s.credit sender crowd.propertyId forUser).CanCredit receiver crowd.propertyId
        forIssuer) :
      Step c s { (s.credit sender crowd.propertyId forUser).credit receiver crowd.propertyId
        forIssuer with
          myCrowds := s.myCrowds.insert receiver
            (crowd.invest c.txid [paid, time, forUser, forIssuer] forUser forIssuer) }
  | closeCrowdsale {s : State} {a issuer : Address} {crowd : CMPCrowd} {sp sp' : Entry}
      {missed : Int}
      (hcrowd : s.myCrowds[a]? = some crowd) (hp : crowd.propertyId ≠ 1 ∧ crowd.propertyId ≠ 2)
      (hget : s.mySps.getSP crowd.propertyId = some sp)
      (hkind : sp'.fixed = sp.fixed ∧ sp'.manual = sp.manual)
      (hdata : sp'.historicalData = crowd.txFundraiserData)
      (hmissed : sp'.missedTokens = missed ∨ missed = 0 ∧ sp'.missedTokens = sp.missedTokens)
      (hnonneg : 0 ≤ missed)
      (hsupply : c.Tracks s → 0 < missed →
        crowd.uCreated + crowd.iCreated + missed ≤ MAX_INT_8_BYTES)
      (hroom : s.CanCredit issuer crowd.propertyId missed) :
      Step c s { (s.putEntry crowd.propertyId sp').credit issuer crowd.propertyId missed with
        myCrowds := s.myCrowds.erase a }

end HcOmni
