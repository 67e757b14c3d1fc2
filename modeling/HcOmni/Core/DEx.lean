import HcOmni.Core.Arith
import HcOmni.Lib.Text

/-!
# The classic exchange

`dex.cpp`: sell offers for properties 1 and 2, accepts that reserve part of an offer, payments
that complete an accept, and the expiry of accepts.  Offers and accepts are found under keys
composed of the addresses and the property identifier.
-/

namespace HcOmni

open Std

/-! ### Lookup keys -/

/-- `STR_SELLOFFER_ADDR_PROP_COMBO`: `seller-property`. -/
def sellofferKey (address : Address) (propertyId : PropertyId) : Str :=
  address ++ '-' :: Text.decimal propertyId

/-- `STR_ACCEPT_ADDR_PROP_ADDR_COMBO`: `seller-property+buyer`. -/
def acceptKey (seller buyer : Address) (propertyId : PropertyId) : Str :=
  seller ++ '-' :: (Text.decimal propertyId ++ '+' :: buyer)

/-- The separators of the lookup keys. -/
def isKeySeparator (c : Char) : Bool := c == '-' || c == '+'

def State.dexGetOffer (s : State) (addressSeller : Address) (propertyId : PropertyId) :
    Option CMPOffer :=
  s.myOffers[sellofferKey addressSeller propertyId]?

def State.dexGetAccept (s : State) (addressSeller : Address) (propertyId : PropertyId)
    (addressBuyer : Address) : Option CMPAccept :=
  s.myAccepts[acceptKey addressSeller addressBuyer propertyId]?

/-- A call whose return code the caller uses: an early return of the callee ends only it. -/
def callRc (m : Op Int) : Op Int := fun s =>
  match m s with
  | .error (.ret rc) s' => .ok rc s'
  | r => r

theorem callRc_of_ok {m : Op Int} {rc : Int} {s s' : State} (h : m s = .ok rc s') :
    callRc m s = .ok rc s' := by
  simp [callRc, h]

/-! ### Sell offers -/

/-- `calculateDesiredBTC`: the coins for a part of what is offered, rounded up. -/
def calculateDesiredBTC (amountOffered amountDesired amountAvailable : Int) : Op Int :=
  if amountOffered = 0 then
    pure 0
  else do
    let amountOffered256 ← convertTo256 amountOffered
    let amountDesired256 ← convertTo256 amountDesired
    let amountAvailable256 ← convertTo256 amountAvailable
    let amountDesired256 ← divideAndRoundUp (amountDesired256 * amountAvailable256) amountOffered256
    convertTo64 amountDesired256

/-- `DEx_offerCreate`.  Without the integer math feature an offer above the balance is cut down
to the balance.  The second component of the result is what is written to `nAmended`. -/
def dexOfferCreate (env : Env) (addressSeller : Address) (propertyId : PropertyId)
    (amountOffered : Int) (block : Int) (amountDesired minAcceptFee : Int) (paymentWindow : Nat)
    (txid : Hash) : Op (Int × Option Int) := do
  rejectIf (paymentWindow == 0) (DEX_ERROR_SELLOFFER - 101)
  rejectIf (amountDesired == 0) (DEX_ERROR_SELLOFFER - 101)
  let s ← get
  rejectIf (s.dexGetOffer addressSeller propertyId).isSome (DEX_ERROR_SELLOFFER - 10)
  let balanceReallyAvailable := s.getTokenBalance addressSeller propertyId .BALANCE
  rejectIf (s.aux.params.isFeatureActivated FEATURE_DEXMATH block &&
      decide (amountOffered > balanceReallyAvailable)) (DEX_ERROR_SELLOFFER - 25)
  let adjusted := amountOffered > balanceReallyAvailable
  let desired :=
    if adjusted then env.legacyCalculateDesiredBTC amountOffered amountDesired balanceReallyAvailable
    else amountDesired
  let offered := if adjusted then balanceReallyAvailable else amountOffered
  let amended := if adjusted then some offered else none
  if offered > 0 then
    assertUpdateTallyMap addressSeller propertyId (-offered) .BALANCE
    assertUpdateTallyMap addressSeller propertyId offered .SELLOFFER_RESERVE
    let sellOffer : CMPOffer :=
      { offerBlock := block, offerAmountOriginal := offered, property := propertyId,
        btcDesiredOriginal := desired, minFee := minAcceptFee, blocktimelimit := paymentWindow,
        txid := txid }
    modify fun s =>
      { s with myOffers := s.myOffers.insertIfNew (sellofferKey addressSeller propertyId) sellOffer }
    pure (0, amended)
  else
    pure (DEX_ERROR_SELLOFFER, amended)

/-- `DEx_offerDestroy`: what is still reserved for the offer returns to the balance. -/
def dexOfferDestroy (addressSeller : Address) (propertyId : PropertyId) : Op Int := do
  let s ← get
  rejectIf (s.dexGetOffer addressSeller propertyId).isNone (DEX_ERROR_SELLOFFER - 11)
  let amountReserved := s.getTokenBalance addressSeller propertyId .SELLOFFER_RESERVE
  if amountReserved > 0 then
    assertUpdateTallyMap addressSeller propertyId (-amountReserved) .SELLOFFER_RESERVE
    assertUpdateTallyMap addressSeller propertyId amountReserved .BALANCE
  else
    pure ()
  modify fun s => { s with myOffers := s.myOffers.erase (sellofferKey addressSeller propertyId) }
  pure 0

/-- `DEx_offerUpdate`: the old offer is destroyed and replaced. -/
def dexOfferUpdate (env : Env) (addressSeller : Address) (propertyId : PropertyId)
    (amountOffered : Int) (block : Int) (amountDesired minAcceptFee : Int) (paymentWindow : Nat)
    (txid : Hash) : Op (Int × Option Int) := do
  let s ← get
  rejectIf (s.dexGetOffer addressSeller propertyId).isNone (DEX_ERROR_SELLOFFER - 12)
  let rc ← callRc (dexOfferDestroy addressSeller propertyId)
  if rc = 0 then
    dexOfferCreate env addressSeller propertyId amountOffered block amountDesired minAcceptFee
      paymentWindow txid
  else
    pure (rc, none)

/-! ### Accepts -/

/-- `DEx_acceptCreate`: reserves what the buyer asks for, or what is left of the offer. -/
def dexAcceptCreate (addressBuyer addressSeller : Address) (propertyId : PropertyId)
    (amountAccepted : Int) (block feePaid : Int) : Op (Int × Option Int) := do
  let s ← get
  match s.dexGetOffer addressSeller propertyId with
  | none => throw (.ret (DEX_ERROR_ACCEPT - 15))
  | some offer =>
      rejectIf (s.dexGetAccept addressSeller propertyId addressBuyer).isSome
        (DEX_ERROR_ACCEPT - 205)
      rejectIf (decide (feePaid < offer.minFee)) (DEX_ERROR_ACCEPT - 105)
      let amountRemainingForSale := s.getTokenBalance addressSeller propertyId .SELLOFFER_RESERVE
      let amountReserved :=
        if amountRemainingForSale ≥ amountAccepted then amountAccepted else amountRemainingForSale
      if amountReserved > 0 then
        assertUpdateTallyMap addressSeller propertyId (-amountReserved) .SELLOFFER_RESERVE
        assertUpdateTallyMap addressSeller propertyId amountReserved .ACCEPT_RESERVE
        let acceptOffer : CMPAccept :=
          { acceptAmountOriginal := amountReserved, acceptAmountRemaining := amountReserved,
            blocktimelimit := offer.blocktimelimit, property := offer.property,
            offerAmountOriginal := offer.offerAmountOriginal,
            btcDesiredOriginal := offer.btcDesiredOriginal, offerTxid := offer.txid,
            block := block }
        modify fun s =>
          { s with
            myAccepts := s.myAccepts.insertIfNew
              (acceptKey addressSeller addressBuyer propertyId) acceptOffer }
        pure (0, some amountReserved)
      else
        pure (DEX_ERROR_ACCEPT - 10, some amountReserved)

/-- Where the tokens of a finished accept go: back to the offer if it is still the same one,
otherwise to the seller's balance. -/
def acceptReturnsTo (offer : Option CMPOffer) (accept : CMPAccept) : TallyType :=
  match offer with
  | some offer => if offer.txid = accept.offerTxid then .SELLOFFER_RESERVE else .BALANCE
  | none => .BALANCE

/-- `DEx_acceptDestroy`. -/
def dexAcceptDestroy (addressBuyer addressSeller : Address) (propertyId : PropertyId)
    (fForceErase : Bool) : Op Int := do
  let s ← get
  match s.dexGetAccept addressSeller propertyId addressBuyer with
  | none => throw (.ret (DEX_ERROR_ACCEPT - 20))
  | some accept =>
      let amountRemaining := accept.acceptAmountRemaining
      if amountRemaining > 0 then
        assertUpdateTallyMap addressSeller propertyId (-amountRemaining) .ACCEPT_RESERVE
        assertUpdateTallyMap addressSeller propertyId amountRemaining
          (acceptReturnsTo (s.dexGetOffer addressSeller propertyId) accept)
      else
        pure ()
      if fForceErase then
        modify fun s =>
          { s with myAccepts := s.myAccepts.erase (acceptKey addressSeller addressBuyer propertyId) }
      else
        pure ()
      pure 0

/-! ### Payments -/

/-- `calculateDExPurchase`: rounded up, in favor of the buyer. -/
def calculateDExPurchase (amountOffered amountDesired amountPaid : Int) : Op Int := do
  let amountOffered256 ← convertTo256 amountOffered
  let amountDesired256 ← convertTo256 amountDesired
  let amountPaid256 ← convertTo256 amountPaid
  let amountPurchased256 ← divideAndRoundUp (amountPaid256 * amountOffered256) amountDesired256
  convertTo64 amountPurchased256

/-- How many tokens a payment buys, before the amount of the accept limits it. -/
def dexPurchase (env : Env) (accept : CMPAccept) (amountPaid block : Int) : Op Int := do
  let s ← get
  if s.aux.params.isFeatureActivated FEATURE_DEXMATH block then
    calculateDExPurchase accept.offerAmountOriginal accept.btcDesiredOriginal amountPaid
  else
    pure (env.legacyCalculateDExPurchase accept.offerAmountOriginal accept.btcDesiredOriginal
      amountPaid)

/-- The last part of `DEx_payment`: the tokens go to the buyer, and an accept that is paid in
full is closed. -/
def dexSettle (txid : Hash) (vout : Nat) (addressSeller addressBuyer : Address)
    (propertyId : PropertyId) (accept : CMPAccept) (amountPurchased block : Int) : Op Unit := do
  let amountRemaining := accept.acceptAmountRemaining
  if amountPurchased > 0 then
    assertUpdateTallyMap addressSeller propertyId (-amountPurchased) .ACCEPT_RESERVE
    assertUpdateTallyMap addressBuyer propertyId amountPurchased .BALANCE
    record (.paymentTX txid block vout propertyId amountPurchased addressBuyer addressSeller)
  else
    pure ()
  modify fun s =>
    { s with
      myAccepts := s.myAccepts.insert (acceptKey addressSeller addressBuyer propertyId)
        { accept with acceptAmountRemaining := amountRemaining - amountPurchased } }
  if amountPurchased ≥ amountRemaining then
    let s ← get
    let reserveSell := s.getTokenBalance addressSeller propertyId .SELLOFFER_RESERVE
    let reserveAccept := s.getTokenBalance addressSeller propertyId .ACCEPT_RESERVE
    let _ ← callRc (dexAcceptDestroy addressBuyer addressSeller propertyId true)
    -- the offer goes with its last token
    if reserveSell = 0 ∧ reserveAccept = 0 then
      let _ ← callRc (dexOfferDestroy addressSeller propertyId)
      pure ()
    else
      pure ()
  else
    pure ()

/-- The part of `DEx_payment` after an accept was found for the property. -/
def dexPay (env : Env) (txid : Hash) (vout : Nat) (addressSeller addressBuyer : Address)
    (propertyId : PropertyId) (accept : CMPAccept) (amountPaid block : Int) :
    Op (Int × Option Int) := do
  rejectIf (accept.btcDesiredOriginal == 0) (DEX_ERROR_PAYMENT - 2)
  let purchased ← dexPurchase env accept amountPaid block
  let amountRemaining := accept.acceptAmountRemaining
  -- the buyer gets at most what is in the accept
  let amountPurchased := if amountRemaining < purchased then amountRemaining else purchased
  let amended := if amountRemaining < purchased then some amountRemaining else none
  dexSettle txid vout addressSeller addressBuyer propertyId accept amountPurchased block
  pure (if amountPurchased > 0 then 0 else DEX_ERROR_PAYMENT, amended)

/-- `DEx_payment`: an accept for property 1 is looked for first, then one for property 2. -/
def dexPayment (env : Env) (txid : Hash) (vout : Nat) (addressSeller addressBuyer : Address)
    (amountPaid block : Int) : Op (Int × Option Int) := do
  let s ← get
  match s.dexGetAccept addressSeller OMNI_PROPERTY_MSC addressBuyer with
  | some accept =>
      dexPay env txid vout addressSeller addressBuyer OMNI_PROPERTY_MSC accept amountPaid block
  | none =>
      match s.dexGetAccept addressSeller OMNI_PROPERTY_TMSC addressBuyer with
      | some accept =>
          dexPay env txid vout addressSeller addressBuyer OMNI_PROPERTY_TMSC accept amountPaid block
      | none => throw (.ret (DEX_ERROR_PAYMENT - 1))

/-! ### Expiry -/

/-- Seller, property and buyer read back from the key of an accept; a key with fewer than three
tokens makes the source read past the end of its vector. -/
def parseAcceptKey (key : Str) : Option (Address × PropertyId × Address) :=
  match Text.splitTokens isKeySeparator key with
  | seller :: property :: buyer :: _ => some (seller, (Text.atoi property % 2 ^ 32).toNat, buyer)
  | _ => none

/-- One round of the loop of `eraseExpiredAccepts`. -/
def eraseExpiredAccept (blockNow : Int) (key : Str) (accept : CMPAccept) : Op Unit :=
  if blockNow - accept.block ≥ accept.blocktimelimit then
    match parseAcceptKey key with
    | none => throw .crash
    | some (addressSeller, propertyId, addressBuyer) => do
        let _ ← callRc (dexAcceptDestroy addressBuyer addressSeller propertyId false)
        modify fun s => { s with myAccepts := s.myAccepts.erase key }
  else
    pure ()

/-- `eraseExpiredAccepts`: every accept whose payment window has passed is finalized. -/
def eraseExpiredAccepts (blockNow : Int) : Op Unit := do
  let s ← get
  s.myAccepts.toList.forM fun entry => eraseExpiredAccept blockNow entry.1 entry.2

end HcOmni
