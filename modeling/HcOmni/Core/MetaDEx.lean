import HcOmni.Core.Fees

/-!
# The token exchange

`mdex.cpp`: the order book, the matching of a new order against it, and the ways orders leave it
again.  The book is a map from the property for sale to price levels, and each level a set of
orders sorted by block and index.
-/

namespace HcOmni

open Std

/-! ### The order book -/

namespace State

/-- The orders of one price level. -/
def mdSet (s : State) (prop : PropertyId) (price : ℚ) : MdSet :=
  (s.metadex.getD prop ∅).getD price ∅

/-- The book with one price level replaced; empty levels stay. -/
def putMdSet (s : State) (prop : PropertyId) (price : ℚ) (orders : MdSet) : State :=
  { s with metadex := s.metadex.insert prop ((s.metadex.getD prop ∅).insert price orders) }

/-- The book without the order under the given key. -/
def eraseOrder (s : State) (prop : PropertyId) (price : ℚ) (key : OrderKey) : State :=
  s.putMdSet prop price ((s.mdSet prop price).erase key)

/-- The book with the order stored at the given level. -/
def insertOrder (s : State) (prop : PropertyId) (price : ℚ) (order : CMPMetaDEx) : State :=
  s.putMdSet prop price ((s.mdSet prop price).insert order.key order)

/-- All orders with the property and the price they are stored under, in the order in which the
nested loops over the book meet them. -/
def bookOrders (s : State) : List (PropertyId × ℚ × CMPMetaDEx) :=
  s.metadex.toList.flatMap fun prices =>
    prices.2.toList.flatMap fun level =>
      level.2.toList.map fun entry => (prices.1, level.1, entry.2)

end State

/-- `MetaDEx_INSERT`: fails if the level has an order with the same block and index. -/
def metaDExInsert (order : CMPMetaDEx) : Op Bool := do
  let s ← get
  if ((s.mdSet order.property order.unitPrice)[order.key]?).isSome then
    pure false
  else
    set (s.insertOrder order.property order.unitPrice order)
    pure true

/-! ### Matching -/

/-- How many tokens of `pold` the remaining amount of `pnew` buys at the price of `pold`, rounded
down. -/
def amountCouldBuy (pnew pold : CMPMetaDEx) : Op Int := do
  let newRemaining ← convertTo256 pnew.amountRemaining
  let oldForSale ← convertTo256 pold.amountForsale
  let oldDesired ← convertTo256 pold.amountDesired
  let iCouldBuy ← divide256 (newRemaining * oldForSale) oldDesired
  let oldRemaining ← convertTo256 pold.amountRemaining
  if iCouldBuy < oldRemaining then convertTo64 iCouldBuy else pure pold.amountRemaining

/-- What is bought of `pold`, and what it costs, rounded up.  No amounts if not a single token can
be bought, or if the rounded price is above what `pnew` is willing to pay. -/
def matchAmounts (pnew pold : CMPMetaDEx) : Op (Option (Int × Int)) := do
  let nCouldBuy ← amountCouldBuy pnew pold
  if nCouldBuy = 0 then
    pure none
  else
    let couldBuy ← convertTo256 nCouldBuy
    let oldDesired ← convertTo256 pold.amountDesired
    let oldForSale ← convertTo256 pold.amountForsale
    let iWouldPay ← divideAndRoundUp (couldBuy * oldDesired) oldForSale
    let nWouldPay ← convertTo64 iWouldPay
    let xEffectivePrice : ℚ := (nWouldPay : ℚ) / nCouldBuy
    if xEffectivePrice > pnew.inversePrice then
      pure none
    else
      assertThat .other (decide (xEffectivePrice ≥ pold.unitPrice))
      assertThat .other (decide (xEffectivePrice ≤ pnew.inversePrice))
      pure (some (nCouldBuy, nWouldPay))

/-- `getAmountToFill`: what has to be paid for all that remains of the order, rounded up. -/
def CMPMetaDEx.getAmountToFill (order : CMPMetaDEx) : Op Int := do
  let remaining ← convertTo256 order.amountRemaining
  let desired ← convertTo256 order.amountDesired
  let forSale ← convertTo256 order.amountForsale
  let iAmountNeededToFill ← divideAndRoundUp (remaining * desired) forSale
  convertTo64 iAmountNeededToFill

/-- The trading fee of a match: 0.05% between two properties other than 1 and 2, once fees are
active.  The fee is added to the cache before the tokens move. -/
def tradingFeeOf (env : Env) (pnew pold : CMPMetaDEx) (buyerAmountGot : Int) : Op Int := do
  let s ← get
  if s.aux.params.isFeatureActivated FEATURE_FEES pnew.block = true ∧
      pold.property > OMNI_PROPERTY_TMSC ∧ pold.desiredProperty > OMNI_PROPERTY_TMSC then
    let tradingFee := buyerAmountGot.tdiv 2000
    addFee env pnew.desiredProperty pnew.block tradingFee
    pure tradingFee
  else
    pure 0

/-- The execution of a match: payment, delivery, and the replacement of the old order by what is
left of it.  Returns the new order with its remaining amount. -/
def executeTrade (env : Env) (sellersPrice : ℚ) (pnew pold : CMPMetaDEx)
    (buyerAmountGot sellerAmountGot : Int) : Op CMPMetaDEx := do
  let buyerAmountLeft := pnew.amountRemaining - sellerAmountGot
  let sellerAmountLeft := pold.amountRemaining - buyerAmountGot
  assertThat .other (decide (0 ≤ sellerAmountLeft))
  assertThat .other (decide (0 ≤ buyerAmountLeft))
  let tradingFee ← tradingFeeOf env pnew pold buyerAmountGot
  let buyerAmountGotAfterFee := buyerAmountGot - tradingFee
  -- transfer the payment property from buyer to seller
  assertUpdateTallyMap pnew.addr pnew.property (-sellerAmountGot) .BALANCE
  assertUpdateTallyMap pold.addr pold.desiredProperty sellerAmountGot .BALANCE
  -- transfer the property being sold from seller to buyer
  assertUpdateTallyMap pold.addr pold.property (-buyerAmountGot) .METADEX_RESERVE
  assertUpdateTallyMap pnew.addr pnew.desiredProperty buyerAmountGotAfterFee .BALANCE
  record (.matchedTrade pold.txid pnew.txid pold.addr pnew.addr pold.desiredProperty
    pnew.desiredProperty sellerAmountGot buyerAmountGotAfterFee pnew.block tradingFee)
  modify fun s => s.eraseOrder pnew.desiredProperty sellersPrice pold.key
  if 0 < sellerAmountLeft then
    modify fun s => s.insertOrder pnew.desiredProperty sellersPrice
      { pold with amountRemaining := sellerAmountLeft }
  else
    pure ()
  pure { pnew with amountRemaining := buyerAmountLeft }

/-- One round of the inner loop of `x_Trade`: the new order after looking at `pold`, and whether
it is satisfied. -/
def xTradeOrder (env : Env) (sellersPrice : ℚ) (pnew pold : CMPMetaDEx) :
    Op (CMPMetaDEx × Bool) := do
  assertThat .other (decide (pold.unitPrice = sellersPrice))
  if pold.desiredProperty ≠ pnew.property then
    pure (pnew, false)
  else
    assertThat .other (decide (0 < pold.amountRemaining))
    assertThat .other (decide (0 < pnew.amountRemaining))
    assertThat .other (decide (pnew.property ≠ pnew.desiredProperty))
    assertThat .other (decide (pold.property = pnew.desiredProperty))
    assertThat .other (decide (pold.unitPrice ≤ pnew.inversePrice))
    assertThat .other (decide (pnew.unitPrice ≤ pold.inversePrice))
    match ← matchAmounts pnew pold with
    | none => pure (pnew, false)
    | some amounts =>
        let traded ← executeTrade env sellersPrice pnew pold amounts.1 amounts.2
        pure (traded, decide (traded.amountRemaining = 0))

/-- The inner loop of `x_Trade`, over the orders of one price level. -/
def xTradeLevel (env : Env) (sellersPrice : ℚ) :
    CMPMetaDEx → List CMPMetaDEx → Op (CMPMetaDEx × Bool)
  | pnew, [] => pure (pnew, false)
  | pnew, pold :: rest => do
      let seen ← xTradeOrder env sellersPrice pnew pold
      if seen.2 then pure (seen.1, true) else xTradeLevel env sellersPrice seen.1 rest

/-- The outer loop of `x_Trade`, over the price levels from the cheapest on; levels above the
price the buyer is willing to pay are skipped. -/
def xTradePrices (env : Env) : CMPMetaDEx → List (ℚ × MdSet) → Op CMPMetaDEx
  | pnew, [] => pure pnew
  | pnew, (sellersPrice, offers) :: rest =>
      if pnew.inversePrice < sellersPrice then
        xTradePrices env pnew rest
      else do
        let seen ← xTradeLevel env sellersPrice pnew (offers.toList.map Prod.snd)
        if seen.2 then pure seen.1 else xTradePrices env seen.1 rest

/-- `x_Trade`: matches a new order and returns it with its remaining amount.  A match touches
only the order it looks at, so the loops may run over the book as it was before. -/
def xTrade (env : Env) (pnew : CMPMetaDEx) : Op CMPMetaDEx := do
  let s ← get
  xTradePrices env pnew (s.metadex.getD pnew.desiredProperty ∅).toList

/-- `MetaDEx_ADD`: matches the order, and puts what remains of it into the book. -/
def metaDExAdd (env : Env) (senderAddr : Address) (prop : PropertyId) (amount block : Int)
    (propertyDesired : PropertyId) (amountDesired : Int) (txid : Hash) (idx : Nat) : Op Int := do
  let newMdex : CMPMetaDEx :=
    { block := block, txid := txid, idx := idx, property := prop, amountForsale := amount,
      desiredProperty := propertyDesired, amountDesired := amountDesired,
      amountRemaining := amount, subaction := 1, addr := senderAddr }
  rejectIf (decide (0 ≥ newMdex.unitPrice)) (METADEX_ERROR - 66)
  let newMdex ← xTrade env newMdex
  if 0 < newMdex.amountRemaining then
    let inserted ← metaDExInsert newMdex
    rejectIf (!inserted) (METADEX_ERROR - 70)
    assertUpdateTallyMap senderAddr prop (-newMdex.amountRemaining) .BALANCE
    assertUpdateTallyMap senderAddr prop newMdex.amountRemaining .METADEX_RESERVE
  else
    pure ()
  pure 0

/-! ### Removing orders -/

/-- Takes one order out of the book and returns what remains of it to its owner. -/
def removeOrder (note : CMPMetaDEx → Op Unit) (prop : PropertyId) (price : ℚ)
    (order : CMPMetaDEx) : Op Unit := do
  assertUpdateTallyMap order.addr order.property (-order.amountRemaining) .METADEX_RESERVE
  assertUpdateTallyMap order.addr order.property order.amountRemaining .BALANCE
  note order
  modify fun s => s.eraseOrder prop price order.key

/-- The common loop of the cancels: removes the orders that are selected, and returns `rc` if
there was none. -/
def removeOrders (select : PropertyId × ℚ × CMPMetaDEx → Bool) (note : CMPMetaDEx → Op Unit)
    (rc : Int) : Op Int := do
  let s ← get
  let selected := s.bookOrders.filter select
  selected.forM fun entry => removeOrder note entry.1 entry.2.1 entry.2.2
  pure (if selected.isEmpty then rc else 0)

/-- `recordMetaDExCancelTX(txid, order, true, block, property, amount)` -/
def recordCancel (txid : Hash) (block : Int) (order : CMPMetaDEx) : Op Unit :=
  record (.metaDExCancelTX txid order.txid block order.property order.amountRemaining)

/-- `MetaDEx_CANCEL_AT_PRICE` -/
def metaDExCancelAtPrice (txid : Hash) (block : Int) (senderAddr : Address) (prop : PropertyId)
    (amount : Int) (propertyDesired : PropertyId) (amountDesired : Int) : Op Int := do
  let mdex : CMPMetaDEx :=
    { block := 0, txid := 0, idx := 0, property := prop, amountForsale := amount,
      desiredProperty := propertyDesired, amountDesired := amountDesired,
      amountRemaining := amount, subaction := 2, addr := senderAddr }
  let s ← get
  rejectIf (s.metadex[prop]?).isNone (METADEX_ERROR - 20 - 1)
  removeOrders
    (fun entry => entry.1 == prop && decide (mdex.unitPrice = entry.2.1) &&
      entry.2.2.desiredProperty == propertyDesired && entry.2.2.addr == senderAddr)
    (recordCancel txid block) (METADEX_ERROR - 20)

/-- `MetaDEx_CANCEL_ALL_FOR_PAIR` -/
def metaDExCancelAllForPair (txid : Hash) (block : Int) (senderAddr : Address) (prop : PropertyId)
    (propertyDesired : PropertyId) : Op Int := do
  let s ← get
  rejectIf (s.metadex[prop]?).isNone (METADEX_ERROR - 30 - 1)
  removeOrders
    (fun entry => entry.1 == prop && entry.2.2.desiredProperty == propertyDesired &&
      entry.2.2.addr == senderAddr)
    (recordCancel txid block) (METADEX_ERROR - 30)

/-- `MetaDEx_CANCEL_EVERYTHING` -/
def metaDExCancelEverything (txid : Hash) (block : Int) (senderAddr : Address)
    (ecosystem : Nat) : Op Int :=
  removeOrders
    (fun entry =>
      !(isMainEcosystemProperty ecosystem && !isMainEcosystemProperty entry.1) &&
        !(isTestEcosystemProperty ecosystem && !isTestEcosystemProperty entry.1) &&
        entry.2.2.addr == senderAddr)
    (recordCancel txid block) (METADEX_ERROR - 40)

/-- `MetaDEx_SHUTDOWN` -/
def metaDExShutdown : Op Int :=
  removeOrders (fun _ => true) (fun _ => pure ()) 0

/-- `MetaDEx_SHUTDOWN_ALLPAIR`: its inner loop advances only past orders it removes, so the first
order with property 1 or 2 on either side keeps it busy forever. -/
def metaDExShutdownAllpair : Op Int := do
  let s ← get
  s.bookOrders.forM fun entry =>
    if entry.2.2.desiredProperty > OMNI_PROPERTY_TMSC ∧ entry.2.2.property > OMNI_PROPERTY_TMSC then
      removeOrder (fun _ => pure ()) entry.1 entry.2.1 entry.2.2
    else
      throw .hang
  pure 0

end HcOmni
