import HcOmni.Conformance.Rejection
import HcOmni.Lib.Parts

/-!
# Which parts of the state the functions touch

The collections of the engine, each kind of tally, and a few of its settings are told apart, and for
every function of the engine the parts are listed that it may change, whatever it is called with
and however it ends.  An invariant that does not speak of these parts is kept without further ado.
-/

namespace HcOmni

open Std MapSum Program CMPTally State

/-! ### The parts -/

inductive Part where
  /-- the amounts of one kind, of all addresses and properties -/
  | tally (ttype : TallyType)
  | offers
  | accepts
  | crowds
  | book
  /-- the entries of the properties, and the index of their transactions -/
  | properties
  /-- the next identifiers -/
  | counters
  | cache
  /-- the two sets of `omnicore.cpp` -/
  | freezing
  | params
  | thresholds
  /-- the matches recorded by `recordMatchedTrade` -/
  | trades
  /-- the pending and the completed activations -/
  | activations
  deriving DecidableEq

/-- The record is about a match. -/
def DbRecord.isTrade : DbRecord → Bool
  | .matchedTrade .. => true
  | _ => false

def State.trades (s : State) : List DbRecord := s.aux.records.filter DbRecord.isTrade

def Part.Value : Part → Type
  | .tally _ => Address → PropertyId → Int
  | .offers => ExtTreeMap Str CMPOffer compare
  | .accepts => ExtTreeMap Str CMPAccept compare
  | .crowds => ExtTreeMap Address CMPCrowd compare
  | .book => MdPropertiesMap
  | .properties => ExtTreeMap PropertyId Entry compare × ExtTreeMap Hash PropertyId compare × Address
  | .counters => PropertyId × PropertyId
  | .cache => ExtTreeMap PropertyId (ExtTreeMap Int Int compare) compare
  | .freezing => Finset (PropertyId × Int) × Finset (Address × PropertyId)
  | .params => ConsensusParams
  | .thresholds => ExtTreeMap PropertyId Int compare
  | .trades => List DbRecord
  | .activations => List FeatureActivation × List FeatureActivation

def Part.value : (part : Part) → State → part.Value
  | .tally ttype, s => fun a p => s.money a p ttype
  | .offers, s => s.myOffers
  | .accepts, s => s.myAccepts
  | .crowds, s => s.myCrowds
  | .book, s => s.metadex
  | .properties, s => (s.mySps.entries, s.mySps.txIndex, s.mySps.exodusAddress)
  | .counters, s => (s.mySps.nextSpid, s.mySps.nextTestSpid)
  | .cache, s => s.feecache
  | .freezing, s => (s.setFreezingEnabledProperties, s.setFrozenAddresses)
  | .params, s => s.aux.params
  | .thresholds, s => s.aux.distributionThresholds
  | .trades, s => s.trades
  | .activations, s => (s.aux.vecPendingActivations, s.aux.vecCompletedActivations)

def stateParts : Parts Part State := ⟨Part.Value, Part.value⟩

/-- Whatever the outcome, `m` changes at most the given parts. -/
abbrev Touches {α : Type} (W : List Part) (m : Op α) (s : State) : Prop := Writes stateParts W m s

variable {s s' : State} {env : Env} {tx : CMPTransaction} {W : List Part} {α β : Type}

/-! ### Changes of a single part -/

section Changes

theorem agree_offers {offers : ExtTreeMap Str CMPOffer compare} :
    stateParts.Agree [.offers] s { s with myOffers := offers } := by
  intro part hpart
  cases part with
  | offers => simp at hpart
  | _ => rfl

theorem agree_accepts {accepts : ExtTreeMap Str CMPAccept compare} :
    stateParts.Agree [.accepts] s { s with myAccepts := accepts } := by
  intro part hpart
  cases part with
  | accepts => simp at hpart
  | _ => rfl

theorem agree_crowds {crowds : ExtTreeMap Address CMPCrowd compare} :
    stateParts.Agree [.crowds] s { s with myCrowds := crowds } := by
  intro part hpart
  cases part with
  | crowds => simp at hpart
  | _ => rfl

theorem agree_book {book : MdPropertiesMap} :
    stateParts.Agree [.book] s { s with metadex := book } := by
  intro part hpart
  cases part with
  | book => simp at hpart
  | _ => rfl

theorem agree_sps {sps : CMPSPInfo} :
    stateParts.Agree [.properties, .counters] s { s with mySps := sps } := by
  intro part hpart
  cases part with
  | properties | counters => simp at hpart
  | _ => rfl

theorem agree_cache {cache : ExtTreeMap PropertyId (ExtTreeMap Int Int compare) compare} :
    stateParts.Agree [.cache] s { s with feecache := cache } := by
  intro part hpart
  cases part with
  | cache => simp at hpart
  | _ => rfl

theorem agree_freezing {enabled : Finset (PropertyId × Int)}
    {frozen : Finset (Address × PropertyId)} :
    stateParts.Agree [.freezing] s
      { s with setFreezingEnabledProperties := enabled, setFrozenAddresses := frozen } := by
  intro part hpart
  cases part with
  | freezing => simp at hpart
  | _ => rfl

theorem agree_settings {aux : Aux} (hthresholds : aux.distributionThresholds =
      s.aux.distributionThresholds) (hrecords : aux.records = s.aux.records) :
    stateParts.Agree [.params, .activations] s { s with aux := aux } := by
  intro part hpart
  cases part with
  | params | activations => simp at hpart
  | thresholds => exact hthresholds
  | trades => exact congrArg (List.filter _) hrecords
  | _ => rfl

theorem agree_params {aux : Aux} (hthresholds : aux.distributionThresholds =
      s.aux.distributionThresholds) (hrecords : aux.records = s.aux.records)
    (hpending : aux.vecPendingActivations = s.aux.vecPendingActivations)
    (hcompleted : aux.vecCompletedActivations = s.aux.vecCompletedActivations) :
    stateParts.Agree [.params] s { s with aux := aux } := by
  intro part hpart
  by_cases hactivations : part = .activations
  · subst hactivations
    exact Prod.ext hpending hcompleted
  · refine agree_settings hthresholds hrecords part ?_
    simp_all

theorem agree_thresholds {thresholds : ExtTreeMap PropertyId Int compare} :
    stateParts.Agree [.thresholds] s { s with aux.distributionThresholds := thresholds } := by
  intro part hpart
  cases part with
  | thresholds => simp at hpart
  | _ => rfl

theorem agree_aux {aux : Aux} (hparams : aux.params = s.aux.params)
    (hthresholds : aux.distributionThresholds = s.aux.distributionThresholds)
    (hrecords : aux.records = s.aux.records)
    (hpending : aux.vecPendingActivations = s.aux.vecPendingActivations)
    (hcompleted : aux.vecCompletedActivations = s.aux.vecCompletedActivations) :
    stateParts.Agree [] s { s with aux := aux } := by
  intro part _
  cases part with
  | activations => exact Prod.ext hpending hcompleted
  | params => exact hparams
  | thresholds => exact hthresholds
  | trades => exact congrArg (List.filter _) hrecords
  | _ => rfl

theorem agree_addTally {who : Address} {p : PropertyId} {n : Int} {t : TallyType} :
    stateParts.Agree [.tally t] s (s.addTally who p n t) := by
  intro part hpart
  cases part with
  | tally u =>
    funext a q
    change State.money _ a q u = s.money a q u
    rw [money_addTally, if_neg, Int.add_zero]
    rintro ⟨-, -, rfl⟩
    simp at hpart
  | _ => rfl

theorem agree_touch {who : Address} {p : PropertyId} :
    stateParts.Agree [] s (s.addTally who p 0 .PENDING) := by
  intro part _
  cases part with
  | tally u =>
    funext a q
    change State.money _ a q u = s.money a q u
    rw [money_addTally]
    split <;> exact Int.add_zero _
  | _ => rfl

end Changes

/-! ### Statements -/

theorem touches_rejectIf {cond : Bool} {rc : Int} {f : Unit → Op α} (h : Touches W (f ()) s) :
    Touches W (rejectIf cond rc >>= f) s :=
  .reads reads_rejectIf fun _ _ => h

theorem touches_assertThat {what : Assertion} {cond : Bool} : Touches W (assertThat what cond) s :=
  .ite .pure .throw

theorem touches_callRc {m : Op Int} (h : Touches W m s) : Touches W (callRc m) s := by
  refine wp_callRc_of (wp_mono h (fun _ _ hagree => hagree) fun e s' hagree => ?_)
  cases e <;> exact hagree

theorem touches_record {entry : DbRecord} (hentry : entry.isTrade = false ∨ Part.trades ∈ W) :
    Touches W (record entry) s := by
  refine Writes.modify ?_
  intro part hpart
  cases part with
  | trades =>
    rcases hentry with hother | hmem
    · change List.filter _ (_ ++ [entry]) = _
      rw [List.filter_append, List.filter_cons_of_neg (by simp [hother]), List.filter_nil,
        List.append_nil]
      rfl
    · exact absurd hmem hpart
  | _ => rfl

section Tallies

variable {a : Address} {p : PropertyId} {n block : Int} {t : TallyType}

theorem agree_updateMoney (hn : n ≠ 0) :
    stateParts.Agree [.tally t] s { s with
      mpTallyMap := s.mpTallyMap.insert a ((s.mpTallyMap.getD a {}).updateMoney p n t).2 } := by
  have hcases : (s.mpTallyMap.getD a {}).updateMoney p n t = _ ∨ _ = _ := updateMoney_cases hn
  rcases hcases with h | h
  · rw [h]
    have htouch : stateParts.Agree [] s (s.addTally a p 0 .PENDING) := agree_touch
    exact htouch.mono (by simp)
  · rw [h]
    exact agree_addTally

theorem touches_updateTallyMap : Touches [.tally t] (updateTallyMap a p n t) s := by
  unfold updateTallyMap
  by_cases hn : n = 0
  · rw [if_pos hn]
    exact .pure
  rw [if_neg hn]
  refine .get ?_
  cases !(decide (t = .BALANCE) && decide (n < 0) && s.isAddressFrozen a p) with
  | true => exact agree_updateMoney hn
  | false => exact Writes.throw

theorem touches_assertUpdateTallyMap : Touches [.tally t] (assertUpdateTallyMap a p n t) s :=
  .bind touches_updateTallyMap fun _ _ => touches_assertThat

theorem touches_assertCredit : Touches [.tally .BALANCE] (assertCredit a p n) s :=
  .ite touches_assertUpdateTallyMap .pure

/-- `assert(update_tally_map(...))` inside a function that touches more. -/
theorem touches_update {f : Unit → Op α} (hmem : .tally t ∈ W) (hf : ∀ s', Touches W (f ()) s') :
    Touches W (assertUpdateTallyMap a p n t >>= f) s :=
  .bind (touches_assertUpdateTallyMap.mono (by simpa using hmem)) fun _ s' => hf s'

theorem agree_pruneFees : stateParts.Agree [.cache] s (s.pruneFees env p block) := by
  unfold pruneFees
  dsimp only
  cases (s.feecache.getD p ∅).maxKey? with
  | none => exact Parts.Agree.refl s
  | some mostRecent => exact agree_cache

theorem touches_distributeCache :
    Touches [.tally .BALANCE, .cache] (distributeCache env p block) s := by
  refine .get (.reads reads_receiversOf fun receivers _ => ?_)
  refine .bind (.forM (fun _ _ => touches_assertUpdateTallyMap.mono (by decide)) _ _) fun _ _ => ?_
  refine .bind (touches_record (.inl rfl)) fun _ _ => .bind touches_assertThat fun _ _ => ?_
  refine .bind (.modify ?_) fun _ _ => .modify ?_
  · exact agree_cache.mono (by decide)
  · exact agree_pruneFees.mono (by decide)

theorem touches_evalCache : Touches [.tally .BALANCE, .cache] (evalCache env p block) s :=
  .get (.ite touches_distributeCache .pure)

theorem touches_addFee : Touches [.tally .BALANCE, .cache] (addFee env p block n) s := by
  refine .bind (.modify ?_) fun _ _ => .bind (.modify ?_) fun _ _ => touches_evalCache
  · exact agree_cache.mono (by decide)
  · exact agree_pruneFees.mono (by decide)

theorem touches_notifyTotalTokensChanged :
    Touches [.tally .BALANCE, .cache, .thresholds] (notifyTotalTokensChanged env p block) s := by
  refine .bind (.modify ?_) fun _ _ => touches_evalCache.mono (by decide)
  exact agree_thresholds.mono (by decide)

end Tallies

/-! ### The classic exchange -/

section DEx

variable {seller buyer : Address} {p : PropertyId}

theorem touches_dexOfferCreate {offered block desired minFee : Int} {window : Nat} {txid : Hash} :
    Touches [.tally .BALANCE, .tally .SELLOFFER_RESERVE, .offers]
      (dexOfferCreate env seller p offered block desired minFee window txid) s := by
  refine touches_rejectIf (touches_rejectIf (.get (touches_rejectIf (touches_rejectIf ?_))))
  refine .ite ?_ .pure
  refine touches_update (by decide) fun _ => touches_update (by decide) fun _ => ?_
  exact .bind (.modify (agree_offers.mono (by decide))) fun _ _ => .pure

theorem touches_dexOfferDestroy :
    Touches [.tally .BALANCE, .tally .SELLOFFER_RESERVE, .offers] (dexOfferDestroy seller p) s := by
  refine .get (touches_rejectIf (.ite ?_ ?_))
  · refine touches_update (by decide) fun _ => touches_update (by decide) fun _ => ?_
    exact .bind (.modify (agree_offers.mono (by decide))) fun _ _ => .pure
  · exact .bind (.modify (agree_offers.mono (by decide))) fun _ _ => .pure

theorem touches_dexOfferUpdate {offered block desired minFee : Int} {window : Nat} {txid : Hash} :
    Touches [.tally .BALANCE, .tally .SELLOFFER_RESERVE, .offers]
      (dexOfferUpdate env seller p offered block desired minFee window txid) s :=
  .get (touches_rejectIf (.bind (touches_callRc touches_dexOfferDestroy) fun _ _ =>
    .ite touches_dexOfferCreate .pure))

theorem touches_dexAcceptCreate {accepted block feePaid : Int} :
    Touches [.tally .SELLOFFER_RESERVE, .tally .ACCEPT_RESERVE, .accepts]
      (dexAcceptCreate buyer seller p accepted block feePaid) s := by
  unfold dexAcceptCreate
  refine .get ?_
  cases s.dexGetOffer seller p with
  | none => exact .throw
  | some offer =>
    refine touches_rejectIf (touches_rejectIf (.ite ?_ .pure))
    refine touches_update (by decide) fun _ => touches_update (by decide) fun _ => ?_
    exact .bind (.modify (agree_accepts.mono (by decide))) fun _ _ => .pure

theorem touches_dexAcceptDestroy {force : Bool} :
    Touches [.tally .BALANCE, .tally .SELLOFFER_RESERVE, .tally .ACCEPT_RESERVE, .accepts]
      (dexAcceptDestroy buyer seller p force) s := by
  unfold dexAcceptDestroy
  refine .get ?_
  cases s.dexGetAccept seller p buyer with
  | none => exact .throw
  | some accept =>
    have hmem : Part.tally (acceptReturnsTo (s.dexGetOffer seller p) accept) ∈
        [.tally .BALANCE, .tally .SELLOFFER_RESERVE, .tally .ACCEPT_RESERVE, .accepts] := by
      unfold acceptReturnsTo
      cases s.dexGetOffer seller p with
      | none => simp
      | some offer =>
        dsimp only
        split <;> simp
    refine .ite ?_ (.ite ?_ .pure)
    · refine touches_update (by decide) fun _ => touches_update hmem fun _ => .ite ?_ .pure
      exact .bind (.modify (agree_accepts.mono (by decide))) fun _ _ => .pure
    · exact .bind (.modify (agree_accepts.mono (by decide))) fun _ _ => .pure

theorem touches_dexSettle {txid : Hash} {vout : Nat} {accept : CMPAccept} {purchased block : Int} :
    Touches [.tally .BALANCE, .tally .SELLOFFER_RESERVE, .tally .ACCEPT_RESERVE, .offers, .accepts]
      (dexSettle txid vout seller buyer p accept purchased block) s := by
  -- the accept is stored, and closed if it is paid in full
  have hclose : ∀ (stored : CMPAccept) (s' : State), Touches
      [.tally .BALANCE, .tally .SELLOFFER_RESERVE, .tally .ACCEPT_RESERVE, .offers, .accepts]
      (do
        modify fun s =>
          { s with myAccepts := s.myAccepts.insert (acceptKey seller buyer p) stored }
        if purchased ≥ accept.acceptAmountRemaining then
          let s ← get
          let reserveSell := s.getTokenBalance seller p .SELLOFFER_RESERVE
          let reserveAccept := s.getTokenBalance seller p .ACCEPT_RESERVE
          let _ ← callRc (dexAcceptDestroy buyer seller p true)
          if reserveSell = 0 ∧ reserveAccept = 0 then
            let _ ← callRc (dexOfferDestroy seller p)
            pure ()
          else
            pure ()
        else
          pure ()) s' := by
    intro stored s'
    refine .bind (.modify (agree_accepts.mono (by decide))) fun _ _ => .ite (.get ?_) .pure
    refine .bind ((touches_callRc touches_dexAcceptDestroy).mono (by decide)) fun _ _ => ?_
    refine .ite (.bind ?_ fun _ _ => .pure) .pure
    exact (touches_callRc touches_dexOfferDestroy).mono (by decide)
  refine .ite ?_ (hclose _ s)
  refine touches_update (by decide) fun _ => touches_update (by decide) fun _ => ?_
  exact .bind (touches_record (.inl rfl)) fun _ s' => hclose _ s'

theorem touches_dexPay {txid : Hash} {vout : Nat} {accept : CMPAccept} {paid block : Int} :
    Touches [.tally .BALANCE, .tally .SELLOFFER_RESERVE, .tally .ACCEPT_RESERVE, .offers, .accepts]
      (dexPay env txid vout seller buyer p accept paid block) s := by
  refine touches_rejectIf (.bind (.get (.ite ?_ .pure)) fun _ _ => .bind touches_dexSettle
    fun _ _ => .pure)
  exact .of_reads reads_calculateDExPurchase

theorem touches_dexPayment {txid : Hash} {vout : Nat} {paid block : Int} :
    Touches [.tally .BALANCE, .tally .SELLOFFER_RESERVE, .tally .ACCEPT_RESERVE, .offers, .accepts]
      (dexPayment env txid vout seller buyer paid block) s := by
  unfold dexPayment
  refine .get ?_
  cases s.dexGetAccept seller OMNI_PROPERTY_MSC buyer with
  | some accept => exact touches_dexPay
  | none =>
    cases s.dexGetAccept seller OMNI_PROPERTY_TMSC buyer with
    | some accept => exact touches_dexPay
    | none => exact .throw

theorem touches_eraseExpiredAccept {blockNow : Int} {key : Str} {accept : CMPAccept} :
    Touches [.tally .BALANCE, .tally .SELLOFFER_RESERVE, .tally .ACCEPT_RESERVE, .accepts]
      (eraseExpiredAccept blockNow key accept) s := by
  unfold eraseExpiredAccept
  refine .ite ?_ .pure
  cases parseAcceptKey key with
  | none => exact .throw
  | some parts =>
    refine .bind (touches_callRc touches_dexAcceptDestroy) fun _ _ => .modify ?_
    exact agree_accepts.mono (by decide)

theorem touches_eraseExpiredAccepts {blockNow : Int} :
    Touches [.tally .BALANCE, .tally .SELLOFFER_RESERVE, .tally .ACCEPT_RESERVE, .accepts]
      (eraseExpiredAccepts blockNow) s :=
  .get (.forM (fun _ _ => touches_eraseExpiredAccept) _ _)

end DEx

/-! ### The token exchange -/

section MetaDEx

variable {pnew pold order : CMPMetaDEx} {price : ℚ}

theorem agree_putMdSet {p : PropertyId} {orders : MdSet} :
    stateParts.Agree [.book] s (s.putMdSet p price orders) := agree_book

theorem touches_tradingFeeOf {got : Int} :
    Touches [.tally .BALANCE, .cache] (tradingFeeOf env pnew pold got) s :=
  .get (.ite (.bind touches_addFee fun _ _ => .pure) .pure)

/-- What the matching of an order touches. -/
def matchingParts : List Part :=
  [.tally .BALANCE, .tally .METADEX_RESERVE, .cache, .book, .trades]

theorem touches_executeTrade {got paid : Int} :
    Touches matchingParts (executeTrade env price pnew pold got paid) s := by
  refine .bind touches_assertThat fun _ _ => .bind touches_assertThat fun _ _ => ?_
  refine .bind (touches_tradingFeeOf.mono (by decide)) fun _ _ => ?_
  refine touches_update (by decide) fun _ => touches_update (by decide) fun _ =>
    touches_update (by decide) fun _ => touches_update (by decide) fun _ => ?_
  refine .bind (touches_record (.inr (by decide))) fun _ _ => .bind (.modify ?_) fun _ _ => ?_
  · exact agree_putMdSet.mono (by decide)
  · exact .ite (.bind (.modify (agree_putMdSet.mono (by decide))) fun _ _ => .pure) .pure

theorem touches_xTradeOrder : Touches matchingParts (xTradeOrder env price pnew pold) s := by
  refine .bind touches_assertThat fun _ _ => .ite .pure ?_
  refine .bind touches_assertThat fun _ _ => .bind touches_assertThat fun _ _ =>
    .bind touches_assertThat fun _ _ => .bind touches_assertThat fun _ _ =>
      .bind touches_assertThat fun _ _ => .bind touches_assertThat fun _ _ => ?_
  refine .reads reads_amountsOf fun amounts _ => ?_
  cases amounts with
  | none => exact .pure
  | some amounts => exact .bind touches_executeTrade fun _ _ => .pure

theorem touches_xTradeLevel :
    ∀ (orders : List CMPMetaDEx) (pnew : CMPMetaDEx) (s : State),
      Touches matchingParts (xTradeLevel env price pnew orders) s
  | [], _, _ => .pure
  | _ :: rest, _, _ => .bind touches_xTradeOrder fun _ _ =>
    .ite .pure (touches_xTradeLevel rest _ _)

theorem touches_xTradePrices :
    ∀ (levels : List (ℚ × MdSet)) (pnew : CMPMetaDEx) (s : State),
      Touches matchingParts (xTradePrices env pnew levels) s
  | [], _, _ => .pure
  | _ :: rest, _, _ => .ite (touches_xTradePrices rest _ _) (.bind (touches_xTradeLevel _ _ _)
      fun _ _ => .ite .pure (touches_xTradePrices rest _ _))

theorem touches_metaDExInsert : Touches [.book] (metaDExInsert order) s :=
  .get (.ite .pure (.bind (.set agree_book) fun _ _ => .pure))

theorem touches_metaDExAdd {a : Address} {p desired : PropertyId} {n block nDesired : Int}
    {txid : Hash} {idx : Nat} :
    Touches matchingParts (metaDExAdd env a p n block desired nDesired txid idx) s := by
  refine touches_rejectIf (.bind (.get (touches_xTradePrices _ _ _)) fun left _ => .ite ?_ .pure)
  refine .bind (touches_metaDExInsert.mono (by decide)) fun _ _ => touches_rejectIf ?_
  exact touches_update (by decide) fun _ => touches_update (by decide) fun _ => .pure

theorem touches_removeOrder {note : CMPMetaDEx → Op Unit} {p : PropertyId}
    (hnote : ∀ order s, Touches [] (note order) s) :
    Touches [.tally .BALANCE, .tally .METADEX_RESERVE, .book] (removeOrder note p price order) s := by
  refine touches_update (by decide) fun _ => touches_update (by decide) fun _ => ?_
  refine .bind ((hnote order _).mono (by simp)) fun _ _ => .modify ?_
  exact agree_putMdSet.mono (by decide)

theorem touches_removeOrders {select : PropertyId × ℚ × CMPMetaDEx → Bool}
    {note : CMPMetaDEx → Op Unit} {rc : Int} (hnote : ∀ order s, Touches [] (note order) s) :
    Touches [.tally .BALANCE, .tally .METADEX_RESERVE, .book] (removeOrders select note rc) s :=
  .get (.bind (.forM (fun _ _ => touches_removeOrder hnote) _ _) fun _ _ => .pure)

theorem touches_recordCancel {txid : Hash} {block : Int} (order : CMPMetaDEx) (s : State) :
    Touches [] (recordCancel txid block order) s :=
  touches_record (.inl rfl)

theorem touches_metaDExShutdownAllpair :
    Touches [.tally .BALANCE, .tally .METADEX_RESERVE, .book] metaDExShutdownAllpair s :=
  .get (.bind (.forM (fun _ _ => .ite (touches_removeOrder fun _ _ => .pure) .throw) _ _)
    fun _ _ => .pure)

end MetaDEx

/-! ### Properties and crowdsales -/

section Properties

variable {a : Address} {p : PropertyId} {sp : Entry}

theorem agree_updateSP : stateParts.Agree [.properties] s
    { s with mySps := (s.mySps.updateSP p sp).2 } := by
  intro part hpart
  cases part with
  | properties => simp at hpart
  | counters =>
    change ((s.mySps.updateSP p sp).2.nextSpid, (s.mySps.updateSP p sp).2.nextTestSpid) =
      (s.mySps.nextSpid, s.mySps.nextTestSpid)
    unfold CMPSPInfo.updateSP
    split <;> rfl
  | _ => rfl

theorem touches_assertUpdateSP : Touches [.properties] (assertUpdateSP p sp) s := by
  unfold assertUpdateSP
  refine .get ?_
  dsimp only
  cases (s.mySps.updateSP p sp).1 with
  | false => exact Writes.throw
  | true => exact agree_updateSP

theorem touches_putNewProperty {ecosystem : Nat} :
    Touches [.properties, .counters] (putNewProperty ecosystem sp) s :=
  .get (.bind (.set agree_sps) fun _ _ => .bind touches_assertThat fun _ _ => .pure)

theorem touches_closeCrowdsale :
    Touches [.tally .BALANCE, .crowds, .properties] (closeCrowdsale a p sp) s := by
  refine .bind (touches_assertUpdateSP.mono (by decide)) fun _ _ => ?_
  refine .bind (touches_assertCredit.mono (by decide)) fun _ _ => .modify ?_
  exact agree_crowds.mono (by decide)

theorem touches_eraseMaxedCrowdsale {time block : Int} :
    Touches [.crowds, .properties] (eraseMaxedCrowdsale env a time block) s := by
  unfold eraseMaxedCrowdsale
  refine .get ?_
  cases s.myCrowds[a]? with
  | none => exact .pure
  | some crowd =>
    refine .reads reads_assertGetSP fun sp _ => ?_
    cases env.chainActive block with
    | none => exact .throw
    | some blockHash =>
      refine .bind (touches_assertUpdateSP.mono (by decide)) fun _ _ => .modify ?_
      exact agree_crowds.mono (by decide)

theorem touches_eraseExpiredCrowdsale {time : Int} {blockHash : Hash} :
    Touches [.tally .BALANCE, .crowds, .properties] (eraseExpiredCrowdsale time blockHash) s := by
  refine .get (.forM (fun entry _ => .ite ?_ .pure) _ _)
  exact .reads reads_assertGetSP fun _ _ => .reads reads_getMissedIssuerBonus fun _ _ =>
    touches_closeCrowdsale

/-- What a participation in a crowdsale touches. -/
def participationParts : List Part :=
  [.tally .BALANCE, .crowds, .properties, .cache, .thresholds]

theorem touches_logicHelperCrowdsaleParticipation :
    Touches participationParts (logicHelperCrowdsaleParticipation env tx) s := by
  unfold logicHelperCrowdsaleParticipation
  refine .get ?_
  cases s.myCrowds[tx.receiver]? with
  | none => exact .throw
  | some crowd =>
    refine touches_rejectIf (.reads reads_assertGetSP fun sp _ => ?_)
    refine .bind (.of_reads reads_calculateFundraiser) fun tokens _ => .bind (.modify ?_) fun _ _ => ?_
    · exact agree_crowds.mono (by decide)
    · refine .bind (touches_assertCredit.mono (by decide)) fun _ _ => ?_
      refine .bind (touches_assertCredit.mono (by decide)) fun _ _ => ?_
      refine .bind (touches_notifyTotalTokensChanged.mono (by decide)) fun _ _ => ?_
      exact .ite (.bind (touches_eraseMaxedCrowdsale.mono (by decide)) fun _ _ => .pure) .pure

end Properties

/-! ### Transactions -/

/-- What a transaction of the given type may change. -/
def partsOfType (type : Nat) : List Part :=
  if type = MSC_TYPE_SIMPLE_SEND then participationParts
  else if type = MSC_TYPE_SEND_TO_OWNERS then [.tally .BALANCE, .cache, .thresholds]
  else if type = MSC_TYPE_SEND_ALL then [.tally .BALANCE]
  else if type = MSC_TYPE_TRADE_OFFER then [.tally .BALANCE, .tally .SELLOFFER_RESERVE, .offers]
  else if type = MSC_TYPE_ACCEPT_OFFER_BTC then
    [.tally .SELLOFFER_RESERVE, .tally .ACCEPT_RESERVE, .accepts]
  else if type = MSC_TYPE_METADEX_TRADE then matchingParts
  else if type = MSC_TYPE_METADEX_CANCEL_PRICE ∨ type = MSC_TYPE_METADEX_CANCEL_PAIR ∨
      type = MSC_TYPE_METADEX_CANCEL_ECOSYSTEM then
    [.tally .BALANCE, .tally .METADEX_RESERVE, .book]
  else if type = MSC_TYPE_CREATE_PROPERTY_FIXED then
    [.tally .BALANCE, .properties, .counters, .cache, .thresholds]
  else if type = MSC_TYPE_CREATE_PROPERTY_VARIABLE then [.properties, .counters, .crowds]
  else if type = MSC_TYPE_CLOSE_CROWDSALE then [.tally .BALANCE, .crowds, .properties]
  else if type = MSC_TYPE_CREATE_PROPERTY_MANUAL then [.properties, .counters]
  else if type = MSC_TYPE_GRANT_PROPERTY_TOKENS then participationParts
  else if type = MSC_TYPE_REVOKE_PROPERTY_TOKENS then
    [.tally .BALANCE, .properties, .cache, .thresholds]
  else if type = MSC_TYPE_CHANGE_ISSUER_ADDRESS then [.properties]
  else if type = MSC_TYPE_ENABLE_FREEZING ∨ type = MSC_TYPE_DISABLE_FREEZING ∨
      type = MSC_TYPE_FREEZE_PROPERTY_TOKENS ∨ type = MSC_TYPE_UNFREEZE_PROPERTY_TOKENS then
    [.freezing]
  else if type = OMNICORE_MESSAGE_TYPE_DEACTIVATION then
    [.params, .tally .BALANCE, .tally .METADEX_RESERVE, .book]
  else if type = OMNICORE_MESSAGE_TYPE_ACTIVATION then [.params, .activations]
  else []

theorem touches_logicMathSimpleSend :
    Touches participationParts (logicMathSimpleSend env tx) s := by
  refine .get (touches_rejectIf (touches_rejectIf (touches_rejectIf (touches_rejectIf ?_))))
  refine touches_update (by decide) fun _ => touches_update (by decide) fun _ => ?_
  exact .bind (touches_callRc touches_logicHelperCrowdsaleParticipation) fun _ _ => .pure

theorem touches_sendToReceivers {receivers : List (Int × Address)} :
    Touches [.tally .BALANCE] (sendToReceivers tx receivers) s :=
  .forM (fun _ _ => touches_update (by decide) fun _ => touches_update (by decide) fun _ =>
    touches_record (.inl rfl)) _ _

theorem touches_payTransferFee {p : PropertyId} {fee : Int} :
    Touches [.tally .BALANCE, .cache] (payTransferFee env tx p fee) s :=
  touches_update (by decide) fun _ => .ite .pure touches_addFee

theorem touches_logicMathSendToOwners :
    Touches [.tally .BALANCE, .cache, .thresholds] (logicMathSendToOwners env tx) s := by
  refine .get (touches_rejectIf (touches_rejectIf (touches_rejectIf (touches_rejectIf
    (touches_rejectIf (.reads reads_receiversOf fun _ _ => ?_))))))
  refine touches_rejectIf (touches_rejectIf (touches_rejectIf ?_))
  refine .bind (touches_payTransferFee.mono (by decide)) fun _ _ => ?_
  refine .bind (touches_sendToReceivers.mono (by decide)) fun _ _ => ?_
  refine .bind touches_assertThat fun _ _ => .ite ?_ .pure
  exact .bind touches_notifyTotalTokensChanged fun _ _ => .pure

theorem touches_sendAllProperties :
    ∀ (properties : List PropertyId) (sent : Nat) (s : State),
      Touches [.tally .BALANCE] (sendAllProperties tx properties sent) s
  | [], _, _ => .pure
  | _ :: rest, _, _ => .get (.ite (touches_sendAllProperties rest _ _)
      (.ite (touches_sendAllProperties rest _ _) (.ite (touches_sendAllProperties rest _ _)
        (.ite (touches_update (by decide) fun _ => touches_update (by decide) fun _ =>
          .bind (touches_record (.inl rfl)) fun _ _ => touches_sendAllProperties rest _ _)
        (touches_sendAllProperties rest _ _)))))

theorem touches_logicMathSendAll : Touches [.tally .BALANCE] (logicMathSendAll tx) s := by
  unfold logicMathSendAll
  refine .get (touches_rejectIf ?_)
  cases s.mpTallyMap[tx.sender]? with
  | none => exact .throw
  | some tally =>
    exact .bind (touches_sendAllProperties _ _ _) fun _ _ => touches_rejectIf .pure

theorem touches_logicMathTradeOffer :
    Touches [.tally .BALANCE, .tally .SELLOFFER_RESERVE, .offers] (logicMathTradeOffer env tx) s := by
  refine .get (touches_rejectIf (touches_rejectIf (touches_rejectIf (.ite ?_ (.ite ?_ .pure)))))
  · refine .ite (.ite ?_ ?_) (.ite touches_dexOfferDestroy .pure)
    · exact .bind touches_dexOfferUpdate fun _ _ => .pure
    · exact .bind touches_dexOfferCreate fun _ _ => .pure
  · refine touches_rejectIf (touches_rejectIf (.ite ?_ (.ite ?_ (.ite touches_dexOfferDestroy .pure))))
    · exact .bind touches_dexOfferCreate fun _ _ => .pure
    · exact .bind touches_dexOfferUpdate fun _ _ => .pure

theorem touches_logicMathAcceptOfferBTC :
    Touches [.tally .SELLOFFER_RESERVE, .tally .ACCEPT_RESERVE, .accepts]
      (logicMathAcceptOfferBTC tx) s :=
  .get (touches_rejectIf (touches_rejectIf (.bind touches_dexAcceptCreate fun _ _ => .pure)))

theorem touches_logicMathMetaDExTrade : Touches matchingParts (logicMathMetaDExTrade env tx) s :=
  .reads reads_checkTradingPair fun _ _ => .reads reads_checkOrderAmounts fun _ _ =>
    .get (touches_rejectIf (touches_rejectIf (.bind (touches_record (.inl rfl)) fun _ _ =>
      touches_metaDExAdd)))

theorem touches_logicMathMetaDExCancelPrice :
    Touches [.tally .BALANCE, .tally .METADEX_RESERVE, .book] (logicMathMetaDExCancelPrice tx) s :=
  .reads reads_checkTradingPair fun _ _ => .reads reads_checkOrderAmounts fun _ _ =>
    .get (touches_rejectIf (touches_removeOrders touches_recordCancel))

theorem touches_logicMathMetaDExCancelPair :
    Touches [.tally .BALANCE, .tally .METADEX_RESERVE, .book] (logicMathMetaDExCancelPair tx) s :=
  .reads reads_checkTradingPair fun _ _ =>
    .get (touches_rejectIf (touches_removeOrders touches_recordCancel))

theorem touches_logicMathMetaDExCancelEcosystem :
    Touches [.tally .BALANCE, .tally .METADEX_RESERVE, .book]
      (logicMathMetaDExCancelEcosystem tx) s :=
  .get (touches_rejectIf (touches_rejectIf (touches_removeOrders touches_recordCancel)))

theorem touches_logicMathCreatePropertyFixed :
    Touches [.tally .BALANCE, .properties, .counters, .cache, .thresholds]
      (logicMathCreatePropertyFixed env tx) s := by
  refine .get (touches_rejectIf (touches_rejectIf (touches_rejectIf (touches_rejectIf
    (touches_rejectIf ?_)))))
  refine .bind (touches_putNewProperty.mono (by decide)) fun _ _ => ?_
  refine touches_update (by decide) fun _ => ?_
  exact .bind (touches_notifyTotalTokensChanged.mono (by decide)) fun _ _ => .pure

theorem touches_logicMathCreatePropertyVariable :
    Touches [.properties, .counters, .crowds] (logicMathCreatePropertyVariable tx) s := by
  refine .get (touches_rejectIf (touches_rejectIf (touches_rejectIf (touches_rejectIf
    (touches_rejectIf (touches_rejectIf (touches_rejectIf (touches_rejectIf (touches_rejectIf
      ?_)))))))))
  refine .bind (touches_putNewProperty.mono (by decide)) fun _ _ => .bind (.modify ?_) fun _ _ => .pure
  exact agree_crowds.mono (by decide)

theorem touches_logicMathCloseCrowdsale :
    Touches [.tally .BALANCE, .crowds, .properties] (logicMathCloseCrowdsale tx) s := by
  unfold logicMathCloseCrowdsale
  refine .get (touches_rejectIf (touches_rejectIf ?_))
  cases s.myCrowds[tx.sender]? with
  | none => exact .throw
  | some crowd =>
    exact touches_rejectIf (.reads reads_assertGetSP fun _ _ =>
      .reads reads_getMissedIssuerBonus fun _ _ => .bind touches_closeCrowdsale fun _ _ => .pure)

theorem touches_logicMathCreatePropertyManaged :
    Touches [.properties, .counters] (logicMathCreatePropertyManaged tx) s :=
  .get (touches_rejectIf (touches_rejectIf (touches_rejectIf (touches_rejectIf
    (.bind touches_putNewProperty fun _ _ => .pure)))))

theorem touches_logicMathGrantTokens :
    Touches participationParts (logicMathGrantTokens env tx) s := by
  have hnotify : ∀ s', Touches participationParts
      (notifyTotalTokensChanged env tx.property tx.block >>= fun _ => pure (0 : Int)) s' :=
    fun _ => .bind (touches_notifyTotalTokensChanged.mono (by decide)) fun _ _ => .pure
  refine .get (touches_rejectIf (touches_rejectIf (touches_rejectIf (.reads reads_assertGetSP
    fun _ _ => touches_rejectIf (touches_rejectIf (touches_rejectIf ?_))))))
  refine .bind (touches_assertUpdateSP.mono (by decide)) fun _ _ => ?_
  refine touches_update (by decide) fun s' => .ite (hnotify s') ?_
  exact .bind (touches_callRc touches_logicHelperCrowdsaleParticipation) fun _ _ => hnotify _

theorem touches_logicMathRevokeTokens :
    Touches [.tally .BALANCE, .properties, .cache, .thresholds] (logicMathRevokeTokens env tx) s := by
  refine .get (touches_rejectIf (touches_rejectIf (touches_rejectIf (.reads reads_assertGetSP
    fun _ _ => touches_rejectIf (touches_rejectIf ?_)))))
  refine touches_update (by decide) fun _ => ?_
  refine .bind (touches_assertUpdateSP.mono (by decide)) fun _ _ => ?_
  exact .bind (touches_notifyTotalTokensChanged.mono (by decide)) fun _ _ => .pure

theorem touches_logicMathChangeIssuer : Touches [.properties] (logicMathChangeIssuer tx) s :=
  .get (touches_rejectIf (touches_rejectIf (.reads reads_assertGetSP fun _ _ =>
    touches_rejectIf (touches_rejectIf (touches_rejectIf (touches_rejectIf
      (.bind touches_assertUpdateSP fun _ _ => .pure)))))))

theorem touches_logicMathEnableFreezing : Touches [.freezing] (logicMathEnableFreezing tx) s :=
  .reads reads_checkManagedIssuer fun _ _ => .get (touches_rejectIf
    (.bind (.set agree_freezing) fun _ _ => .pure))

theorem touches_logicMathDisableFreezing : Touches [.freezing] (logicMathDisableFreezing tx) s := by
  refine .reads reads_checkManagedIssuer fun _ _ => .get (touches_rejectIf ?_)
  have hassert : ∀ cond, Reads (assertThat .other cond) (fun _ => cond = true) (CalcError False) s :=
    fun _ => reads_assertOther
  exact .reads (hassert _) fun _ _ => .bind (.set agree_freezing) fun _ _ => .pure

theorem touches_logicMathFreezeTokens : Touches [.freezing] (logicMathFreezeTokens tx) s :=
  .reads reads_checkManagedIssuer fun _ _ => .get (touches_rejectIf (touches_rejectIf
    (.bind (.set agree_freezing) fun _ _ => .pure)))

theorem touches_logicMathUnfreezeTokens : Touches [.freezing] (logicMathUnfreezeTokens tx) s :=
  .reads reads_checkManagedIssuer fun _ _ => .get (touches_rejectIf (touches_rejectIf
    (.bind (.set agree_freezing) fun _ _ => .pure)))

theorem addAlert_frame (aux : Aux) (alert : AlertData) :
    (aux.addAlert alert).params = aux.params ∧
      (aux.addAlert alert).distributionThresholds = aux.distributionThresholds ∧
      (aux.addAlert alert).records = aux.records ∧
      (aux.addAlert alert).vecPendingActivations = aux.vecPendingActivations ∧
      (aux.addAlert alert).vecCompletedActivations = aux.vecCompletedActivations := by
  unfold Aux.addAlert
  split <;> exact ⟨rfl, rfl, rfl, rfl, rfl⟩

theorem activateFeature_frame {aux aux' : Aux} {featureId : Nat} {activation block : Int}
    {version : Nat} (h : aux.activateFeature featureId activation version block = some aux') :
    aux'.distributionThresholds = aux.distributionThresholds ∧ aux'.records = aux.records := by
  unfold Aux.activateFeature at h
  split at h
  · cases h
  · split at h
    · cases h
    · cases h
      split
      · exact ⟨rfl, rfl⟩
      · exact ⟨(addAlert_frame _ _).2.1, (addAlert_frame _ _).2.2.1⟩

theorem deactivateFeature_frame {aux aux' : Aux} {featureId : Nat} {block : Int}
    (h : aux.deactivateFeature featureId block = some aux') :
    aux'.distributionThresholds = aux.distributionThresholds ∧ aux'.records = aux.records ∧
      aux'.vecPendingActivations = aux.vecPendingActivations ∧
      aux'.vecCompletedActivations = aux.vecCompletedActivations := by
  unfold Aux.deactivateFeature at h
  split at h
  · cases h
    exact (addAlert_frame _ _).2
  · cases h

/-- What follows a deactivation: with the token exchange itself or its trading of all pairs, the
orders go. -/
theorem touches_shutdown {featureId : Nat} :
    Touches [.tally .BALANCE, .tally .METADEX_RESERVE, .book]
      (if featureId = FEATURE_METADEX then metaDExShutdown >>= fun _ => pure (0 : Int)
      else if featureId = FEATURE_TRADEALLPAIRS then metaDExShutdownAllpair >>= fun _ => pure 0
      else pure 0) s := by
  refine .ite (.bind ?_ fun _ _ => .pure) (.ite (.bind ?_ fun _ _ => .pure) .pure)
  · exact Writes.mono (touches_removeOrders fun _ _ => .pure) (by decide)
  · exact touches_metaDExShutdownAllpair

theorem touches_logicMathDeactivation :
    Touches [.params, .tally .BALANCE, .tally .METADEX_RESERVE, .book]
      (logicMathDeactivation env tx) s := by
  unfold logicMathDeactivation
  refine .get (touches_rejectIf (touches_rejectIf ?_))
  cases haux : s.aux.deactivateFeature tx.featureId tx.block with
  | none => exact .throw
  | some aux =>
    obtain ⟨hthresholds, hrecords, hpending, hcompleted⟩ := deactivateFeature_frame haux
    refine .bind (.set ((agree_params hthresholds hrecords hpending hcompleted).mono (by decide)))
      fun _ _ => ?_
    exact touches_shutdown.mono (by decide)

theorem touches_logicMathActivation :
    Touches [.params, .activations] (logicMathActivation env tx) s := by
  unfold logicMathActivation
  refine .get (touches_rejectIf (touches_rejectIf ?_))
  cases haux : s.aux.activateFeature tx.featureId (toInt32 tx.activationBlock) tx.minClientVersion
      tx.block with
  | none => exact .throw
  | some aux =>
    obtain ⟨hthresholds, hrecords⟩ := activateFeature_frame haux
    exact .bind (.set (agree_settings hthresholds hrecords)) fun _ _ => .pure

theorem touches_logicMathAlert : Touches [] (logicMathAlert env tx) s := by
  refine .get (touches_rejectIf (touches_rejectIf (.ite ?_ ?_)))
  · exact .bind (.set (agree_aux rfl rfl rfl rfl rfl)) fun _ _ => .pure
  · obtain ⟨hparams, hthresholds, hrecords, hpending, hcompleted⟩ := addAlert_frame s.aux
      { alertSender := tx.sender, alertType := tx.alertType, alertExpiry := tx.alertExpiry,
        alertMessage := some tx.alertText }
    exact .bind (.set (agree_aux hparams hthresholds hrecords hpending hcompleted)) fun _ _ => .pure

theorem touches_logicMathSendAgreement : Touches [] (logicMathSendAgreement tx) s :=
  .bind (touches_record (.inl rfl)) fun _ _ => .pure

theorem touches_branch {type : Nat} {m m' : Op Int} (hm : Touches (partsOfType type) m s)
    (hm' : Touches (partsOfType tx.type) m' s) :
    Touches (partsOfType tx.type) (if tx.type = type then m else m') s := by
  by_cases htype : tx.type = type
  · rw [if_pos htype, htype]
    exact hm
  · rw [if_neg htype]
    exact hm'

/-- **Every transaction type.** -/
theorem touches_logicMath : Touches (partsOfType tx.type) (logicMath env tx) s := by
  unfold logicMath
  refine touches_branch touches_logicMathSimpleSend ?_
  refine touches_branch touches_logicMathSendToOwners ?_
  refine touches_branch touches_logicMathSendAll ?_
  refine touches_branch touches_logicMathTradeOffer ?_
  refine touches_branch touches_logicMathAcceptOfferBTC ?_
  refine touches_branch touches_logicMathMetaDExTrade ?_
  refine touches_branch touches_logicMathMetaDExCancelPrice ?_
  refine touches_branch touches_logicMathMetaDExCancelPair ?_
  refine touches_branch touches_logicMathMetaDExCancelEcosystem ?_
  refine touches_branch touches_logicMathCreatePropertyFixed ?_
  refine touches_branch touches_logicMathCreatePropertyVariable ?_
  refine touches_branch touches_logicMathCloseCrowdsale ?_
  refine touches_branch touches_logicMathCreatePropertyManaged ?_
  refine touches_branch touches_logicMathGrantTokens ?_
  refine touches_branch touches_logicMathRevokeTokens ?_
  refine touches_branch touches_logicMathChangeIssuer ?_
  refine touches_branch touches_logicMathEnableFreezing ?_
  refine touches_branch touches_logicMathDisableFreezing ?_
  refine touches_branch touches_logicMathFreezeTokens ?_
  refine touches_branch touches_logicMathUnfreezeTokens ?_
  refine touches_branch touches_logicMathDeactivation ?_
  refine touches_branch touches_logicMathActivation ?_
  refine touches_branch touches_logicMathAlert ?_
  exact touches_branch touches_logicMathSendAgreement .pure

theorem reads_decodeAgreement : Reads (decodeAgreement env tx) (fun _ => True) (fun _ => True) s := by
  refine .ite (fun _ => ?_) fun _ => .pure trivial
  cases env.decodeAgreement tx.pkt with
  | decoded => exact .pure trivial
  | thrown => exact .throw trivial
  | crashed => exact .throw trivial

/-- **A transaction changes what its type may change.** -/
theorem touches_interpretPacket (hW : ∀ parsed, tx.interpretTransaction = some parsed →
      partsOfType parsed.type ⊆ W) : Touches W (interpretPacket env tx) s := by
  unfold interpretPacket
  refine touches_rejectIf ?_
  cases hparse : tx.interpretTransaction with
  | none => exact .throw
  | some parsed =>
    exact .reads reads_decodeAgreement fun _ _ => .get (touches_rejectIf
      (touches_logicMath.mono (hW parsed hparse)))

/-! ### The other events -/

theorem touches_calculateAndUpdateDevmsc {nTime : Nat} {block : Int} :
    Touches [.tally .BALANCE, .cache, .thresholds] (calculateAndUpdateDevmsc env nTime block) s := by
  have hnotify : ∀ s' delta, Touches [.tally .BALANCE, .cache, .thresholds]
      (notifyTotalTokensChanged env OMNI_PROPERTY_MSC block >>= fun _ => pure (delta : Int)) s' :=
    fun _ _ => .bind touches_notifyTotalTokensChanged fun _ _ => .pure
  refine touches_rejectIf (.get (touches_rejectIf (touches_rejectIf (.ite ?_ (hnotify s _)))))
  refine .bind (touches_updateTallyMap.mono (by decide)) fun _ _ => ?_
  refine .bind (.modify ?_) fun _ s' => hnotify s' _
  refine Parts.Agree.mono (W := []) ?_ (by simp)
  exact agree_aux rfl rfl rfl rfl rfl

end HcOmni
