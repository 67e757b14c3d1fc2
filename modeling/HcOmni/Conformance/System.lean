import HcOmni.Conformance.Transaction

/-!
# What an event can do

Freezing changes the freeze sets only, and the activation of a feature the parameters first.
Everything else takes steps.  With that, what the invariants say about steps is carried over to
events.
-/

namespace HcOmni

open Std MapSum Program CMPTally State

variable {c : Ctx} {s s' : State} {env : Env} {tx tx' : CMPTransaction}

/-! ### Parsing -/

/-- What the layouts leave alone. -/
structure SameHead (tx tx' : CMPTransaction) : Prop where
  txid : tx'.txid = tx.txid
  block : tx'.block = tx.block
  idx : tx'.txIdx = tx.txIdx
  sender : tx'.sender = tx.sender
  time : tx'.blockTime = tx.blockTime
  type : tx'.type = tx.type

theorem SameHead.of_layout {short : Prop} [Decidable short] {read : CMPTransaction}
    (h : (if short then none else some read) = some tx') (hread : SameHead tx read) :
    SameHead tx tx' := by
  rw [Option.ite_none_left_eq_some] at h
  cases h.2
  exact hread

theorem SameHead.of_layout_strings {short : Prop} [Decidable short] {layout : Option CMPTransaction}
    (h : (if short then none else layout) = some tx')
    (hread : layout = some tx' → SameHead tx tx') : SameHead tx tx' := by
  rw [Option.ite_none_left_eq_some] at h
  exact hread h.2

theorem elim_ite_some {P : Prop} {cond : Prop} [Decidable cond] {m m' : Option CMPTransaction}
    (h : (if cond then m else m') = some tx') (hpos : cond → m = some tx' → P)
    (hneg : m' = some tx' → P) : P := by
  by_cases hc : cond
  · rw [if_pos hc] at h
    exact hpos hc h
  · rw [if_neg hc] at h
    exact hneg h

/-- What parsing leaves alone. -/
structure ParsedFrom (tx tx' : CMPTransaction) : Prop where
  txid : tx'.txid = tx.txid
  block : tx'.block = tx.block
  idx : tx'.txIdx = tx.txIdx
  sender : tx'.sender = tx.sender
  time : tx'.blockTime = tx.blockTime
  receiver : tx'.type = MSC_TYPE_ACCEPT_OFFER_BTC → tx'.receiver = tx.receiver

theorem sameHead_of_interpretTransaction (h : tx.interpretTransaction = some tx') :
    ∃ tx₁, tx.interpretTransactionType = some tx₁ ∧ SameHead tx₁ tx' := by
  unfold CMPTransaction.interpretTransaction at h
  obtain ⟨tx₁, htype, h⟩ := Option.bind_eq_some_iff.mp h
  refine ⟨tx₁, htype, ?_⟩
  repeat
    refine elim_ite_some h (fun _ h => ?_) fun h => ?_
    · first
      | exact .of_layout h ⟨rfl, rfl, rfl, rfl, rfl, rfl⟩
      | exact .of_layout_strings h fun h => .of_layout h ⟨rfl, rfl, rfl, rfl, rfl, rfl⟩
      | (cases h; exact ⟨rfl, rfl, rfl, rfl, rfl, rfl⟩)
  cases h

theorem parsedFrom_of_interpretTransaction (h : tx.interpretTransaction = some tx') :
    ParsedFrom tx tx' := by
  obtain ⟨tx₁, htype, hhead⟩ := sameHead_of_interpretTransaction h
  have hsame : tx₁.txid = tx.txid ∧ tx₁.block = tx.block ∧ tx₁.txIdx = tx.txIdx ∧
      tx₁.sender = tx.sender ∧ tx₁.blockTime = tx.blockTime ∧ tx₁.receiver = tx.receiver := by
    rw [CMPTransaction.interpretTransactionType, Option.ite_none_left_eq_some] at htype
    cases htype.2
    exact ⟨rfl, rfl, rfl, rfl, rfl, rfl⟩
  obtain ⟨htxid, hblock, hidx, hsender, htime, hreceiver⟩ := hsame
  refine ⟨hhead.txid.trans htxid, hhead.block.trans hblock, hhead.idx.trans hidx,
    hhead.sender.trans hsender, hhead.time.trans htime, fun haccept => ?_⟩
  rw [hhead.type] at haccept
  simp only [CMPTransaction.interpretTransaction, htype, Option.bind_eq_bind, Option.bind_some,
    haccept] at h
  change tx₁.interpretAcceptOfferBTC = some tx' at h
  rw [CMPTransaction.interpretAcceptOfferBTC, Option.ite_none_left_eq_some] at h
  cases h.2
  exact hreceiver

/-! ### Outcomes -/

/-- What an event can do to the state. -/
inductive Outcome (c : Ctx) (s : State) : State → Prop
  | steps {s' : State} (aux : Aux) (hvested : aux.exodusPrev = s.aux.exodusPrev)
      (hsteps : Steps c { s with aux := aux } s') : Outcome c s s'
  | freezes (enabled : Finset (PropertyId × Int)) (frozen : Finset (Address × PropertyId))
      (hfrozen : ∀ item ∈ frozen, item ∈ s.setFrozenAddresses ∨ item.2 ≠ 1 ∧ item.2 ≠ 2) :
      Outcome c s
        { s with setFreezingEnabledProperties := enabled, setFrozenAddresses := frozen }

namespace Outcome

theorem of_steps (h : Steps c s s') : Outcome c s s' := .steps s.aux rfl h

theorem of_conforms {α : Type} {m : Op α} {Q : α → State → Prop} (h : Conforms c.contract m Q s) :
    wp m (fun _ s' => Outcome c s s') (Fails c (Outcome c s)) s :=
  wp_mono h (fun _ _ h => of_steps h.1) fun _ _ h => ⟨fun hlive => of_steps (h.1 hlive), h.2⟩

theorem of_check {α β : Type} {P : α → Prop} {m : Op α} {f : α → Op β}
    (hm : Reads m P CheckError s)
    (hf : ∀ a, P a → wp (f a) (fun _ s' => Outcome c s s') (Fails c (Outcome c s)) s) :
    wp (m >>= f) (fun _ s' => Outcome c s s') (Fails c (Outcome c s)) s :=
  hm.wp_bind hf fun _ he => ⟨fun _ => of_steps .refl, he.not_bad⟩

end Outcome

theorem Sound.setAux (hs : Sound c s) {aux : Aux} (hvested : aux.exodusPrev = s.aux.exodusPrev) :
    Sound c { s with aux := aux } where
  range := hs.range
  frozen := hs.frozen
  book := hs.book
  reserve := hs.reserve
  accepts := hs.accepts
  spid := hs.spid
  supply htracks := (hs.supply htracks).of_held rfl rfl rfl hvested fun _ => rfl
  strict hstrict := ⟨(hs.strict hstrict).accepts.congr rfl rfl, (hs.strict hstrict).reserved,
    (hs.strict hstrict).cache, (hs.strict hstrict).space⟩

/-- **Every event keeps the invariant.** -/
theorem Sound.outcome (hs : Sound c s) (h : Outcome c s s') : Sound c s' := by
  cases h with
  | steps aux hvested hsteps => exact hsteps.sound (hs.setAux hvested)
  | freezes enabled frozen hfrozen =>
    refine ⟨hs.range, fun a p h => ?_, hs.book, hs.reserve, hs.accepts, hs.spid,
      fun htracks => (hs.supply htracks).of_held rfl rfl rfl rfl fun _ => rfl,
      fun hstrict => ⟨(hs.strict hstrict).accepts.congr rfl rfl, (hs.strict hstrict).reserved,
        (hs.strict hstrict).cache, (hs.strict hstrict).space⟩⟩
    rcases hfrozen (a, p) (of_decide_eq_true h) with hold | hp
    · exact hs.frozen a p (decide_eq_true hold)
    · exact hp

/-! ### Freezing and activations -/

theorem outcome_logicMathEnableFreezing :
    wp (logicMathEnableFreezing tx) (fun _ s' => Outcome c s s') (Fails c (Outcome c s)) s := by
  refine Outcome.of_check reads_checkManagedIssuer fun _ _ => ?_
  rw [wp_bind, wp_get]
  exact Outcome.of_check reads_rejectIf fun _ _ => .freezes _ _ fun _ h => .inl h

theorem outcome_logicMathDisableFreezing :
    wp (logicMathDisableFreezing tx) (fun _ s' => Outcome c s s') (Fails c (Outcome c s)) s := by
  refine Outcome.of_check reads_checkManagedIssuer fun _ _ => ?_
  rw [wp_bind, wp_get]
  refine Outcome.of_check reads_rejectIf fun _ _ => ?_
  rw [wp_bind]
  refine wp_assertThat (fun _ => id) fun _ => .freezes _ _ fun item h => .inl ?_
  exact Finset.mem_of_mem_filter item h

theorem outcome_logicMathFreezeTokens :
    wp (logicMathFreezeTokens tx) (fun _ s' => Outcome c s s') (Fails c (Outcome c s)) s := by
  refine Outcome.of_check reads_checkManagedIssuer fun _ hproperty => ?_
  rw [wp_bind, wp_get]
  refine Outcome.of_check reads_rejectIf fun _ _ => Outcome.of_check reads_rejectIf fun _ _ =>
    .freezes s.setFreezingEnabledProperties _ fun item h => ?_
  rcases Finset.mem_insert.mp h with rfl | hold
  · exact .inr hproperty
  · exact .inl hold

theorem outcome_logicMathUnfreezeTokens :
    wp (logicMathUnfreezeTokens tx) (fun _ s' => Outcome c s s') (Fails c (Outcome c s)) s := by
  refine Outcome.of_check reads_checkManagedIssuer fun _ _ => ?_
  rw [wp_bind, wp_get]
  exact Outcome.of_check reads_rejectIf fun _ _ => Outcome.of_check reads_rejectIf fun _ _ =>
    .freezes s.setFreezingEnabledProperties _ fun item h => .inl (Finset.mem_of_mem_erase h)

theorem exodusPrev_addAlert (aux : Aux) (alert : AlertData) :
    (aux.addAlert alert).exodusPrev = aux.exodusPrev := by
  unfold Aux.addAlert
  split <;> rfl

theorem params_addAlert (aux : Aux) (alert : AlertData) :
    (aux.addAlert alert).params = aux.params := by
  unfold Aux.addAlert
  split <;> rfl

theorem exodusPrev_activateFeature {aux aux' : Aux} {feature version : Nat} {block height : Int}
    (h : aux.activateFeature feature block version height = some aux') :
    aux'.exodusPrev = aux.exodusPrev := by
  unfold Aux.activateFeature at h
  rw [Option.ite_none_left_eq_some, Option.ite_none_left_eq_some] at h
  obtain ⟨-, -, h⟩ := h
  cases h
  split
  · rfl
  · exact exodusPrev_addAlert _ _

theorem outcome_logicMathActivation :
    wp (logicMathActivation env tx) (fun _ s' => Outcome c s s') (Fails c (Outcome c s)) s := by
  unfold logicMathActivation
  rw [wp_bind, wp_get]
  refine Outcome.of_check reads_rejectIf fun _ _ => Outcome.of_check reads_rejectIf fun _ _ => ?_
  cases haux : s.aux.activateFeature tx.featureId (toInt32 tx.activationBlock) tx.minClientVersion
      tx.block with
  | none => exact ⟨fun _ => .of_steps .refl, id⟩
  | some aux => exact .steps aux (exodusPrev_activateFeature haux) .refl

theorem outcome_logicMathDeactivation (hs : Sound c s) :
    wp (logicMathDeactivation env tx) (fun _ s' => Outcome c s s') (Fails c (Outcome c s)) s := by
  unfold logicMathDeactivation
  rw [wp_bind, wp_get]
  refine Outcome.of_check reads_rejectIf fun _ _ => Outcome.of_check reads_rejectIf fun _ _ => ?_
  cases haux : s.aux.deactivateFeature tx.featureId tx.block with
  | none => exact ⟨fun _ => .of_steps .refl, id⟩
  | some aux =>
    have hvested : aux.exodusPrev = s.aux.exodusPrev := by
      unfold Aux.deactivateFeature at haux
      rw [Option.ite_none_right_eq_some] at haux
      cases haux.2
      exact exodusPrev_addAlert _ _
    have hs' := hs.setAux hvested
    have hrest : ∀ {m : Op Int}, Conforms c.contract m (fun _ _ => True) { s with aux := aux } →
        wp (m >>= fun _ => pure (0 : Int)) (fun _ s' => Outcome c s s') (Fails c (Outcome c s))
          { s with aux := aux } := fun hm => by
      rw [wp_bind]
      exact wp_mono hm (fun _ _ h => .steps aux hvested h.1)
        fun _ _ h => ⟨fun hlive => .steps aux hvested (h.1 hlive), h.2⟩
    dsimp only
    rw [wp_bind, wp_set, wp_ite]
    refine ⟨fun _ => hrest (conforms_metaDExShutdown hs'), fun _ => ?_⟩
    rw [wp_ite]
    exact ⟨fun _ => hrest (conforms_metaDExShutdownAllpair hs'),
      fun _ => .steps aux hvested .refl⟩

theorem conforms_logicMathAlert :
    Conforms c.contract (logicMathAlert env tx) (fun _ _ => True) s := by
  unfold logicMathAlert
  refine Conforms.get (conforms_rejectIf fun _ => conforms_rejectIf fun _ => ?_)
  refine Conforms.ite (fun _ => ?_) fun _ => ?_
  · exact ⟨.single (.aux _ rfl rfl), trivial⟩
  · exact ⟨.single (.aux _ (params_addAlert _ _) (exodusPrev_addAlert _ _)), trivial⟩

theorem conforms_logicMathSendAgreement :
    Conforms c.contract (logicMathSendAgreement tx) (fun _ _ => True) s :=
  Conforms.bind conforms_record fun _ _ _ _ => Conforms.pure trivial

/-! ### The interpreter -/

theorem wp_branch {α : Type} {Q : α → State → Prop} {E : Halt → State → Prop} {cond : Prop}
    [Decidable cond] {m m' : Op α} (h : cond → wp m Q E s) (h' : wp m' Q E s) :
    wp (if cond then m else m') Q E s :=
  (wp_ite cond m m').mpr ⟨h, fun _ => h'⟩

/-- **Every transaction type.** -/
theorem outcome_logicMath (h : PacketOk c tx s) :
    wp (logicMath env tx) (fun _ s' => Outcome c s s') (Fails c (Outcome c s)) s := by
  unfold logicMath
  refine wp_branch (fun _ => Outcome.of_conforms (conforms_logicMathSimpleSend h)) ?_
  refine wp_branch (fun ht => Outcome.of_conforms (conforms_logicMathSendToOwners h ht)) ?_
  refine wp_branch (fun _ => Outcome.of_conforms (conforms_logicMathSendAll h)) ?_
  refine wp_branch (fun _ => Outcome.of_conforms (conforms_logicMathTradeOffer h)) ?_
  refine wp_branch (fun ht => Outcome.of_conforms (conforms_logicMathAcceptOfferBTC h ht)) ?_
  refine wp_branch (fun _ => Outcome.of_conforms (conforms_logicMathMetaDExTrade h)) ?_
  refine wp_branch (fun _ => Outcome.of_conforms (conforms_logicMathMetaDExCancelPrice h)) ?_
  refine wp_branch (fun _ => Outcome.of_conforms (conforms_logicMathMetaDExCancelPair h)) ?_
  refine wp_branch (fun _ => Outcome.of_conforms (conforms_logicMathMetaDExCancelEcosystem h)) ?_
  refine wp_branch (fun _ => Outcome.of_conforms (conforms_logicMathCreatePropertyFixed h)) ?_
  refine wp_branch (fun _ => Outcome.of_conforms (conforms_logicMathCreatePropertyVariable h)) ?_
  refine wp_branch (fun _ => Outcome.of_conforms (conforms_logicMathCloseCrowdsale h)) ?_
  refine wp_branch (fun _ => Outcome.of_conforms (conforms_logicMathCreatePropertyManaged h)) ?_
  refine wp_branch (fun _ => Outcome.of_conforms (conforms_logicMathGrantTokens h)) ?_
  refine wp_branch (fun _ => Outcome.of_conforms (conforms_logicMathRevokeTokens h)) ?_
  refine wp_branch (fun _ => Outcome.of_conforms conforms_logicMathChangeIssuer) ?_
  refine wp_branch (fun _ => outcome_logicMathEnableFreezing) ?_
  refine wp_branch (fun _ => outcome_logicMathDisableFreezing) ?_
  refine wp_branch (fun _ => outcome_logicMathFreezeTokens) ?_
  refine wp_branch (fun _ => outcome_logicMathUnfreezeTokens) ?_
  refine wp_branch (fun _ => outcome_logicMathDeactivation h.sound) ?_
  refine wp_branch (fun _ => outcome_logicMathActivation) ?_
  refine wp_branch (fun _ => Outcome.of_conforms conforms_logicMathAlert) ?_
  refine wp_branch (fun _ => Outcome.of_conforms conforms_logicMathSendAgreement) ?_
  exact Outcome.of_steps .refl

/-! ### Events -/

/-- The payment buys a non-negative amount of tokens, where that is left to the floating point
formula. -/
def Event.PurchaseFits (env : Env) (s : State) : Event → Prop
  | .payment _ _ seller buyer paid block =>
      s.aux.params.isFeatureActivated FEATURE_DEXMATH block = false →
      ∀ p accept, s.dexGetAccept seller p buyer = some accept →
        0 ≤ env.legacyCalculateDExPurchase accept.offerAmountOriginal accept.btcDesiredOriginal paid
  | _ => True

/-- No fee is taken: trading fees are not active, and a send to owners burns its fee. -/
def Event.Feeless (s : State) : Event → Prop
  | .packet tx => s.aux.params.isFeatureActivated FEATURE_FEES tx.block = false ∧
      ∀ tx', tx.interpretTransaction = some tx' → tx'.type = MSC_TYPE_SEND_TO_OWNERS →
        tx'.version = MP_TX_PKT_V0
  | _ => True

/-- The circumstances are those of the event. -/
structure Suits (c : Ctx) (env : Env) (s : State) (event : Event) : Prop where
  txid : ∀ txid, event.txid? = some txid → txid = c.txid
  height : ∀ height, event.height? = some height → height = c.block
  fresh : c.Tracked → ∀ txid, event.txid? = some txid → ¬s.TxUsed txid
  addr : ∀ tx, event = .packet tx → c.Addr tx.sender ∧ c.Addr tx.receiver
  place : ∀ tx, event = .packet tx → c.Place tx.block tx.txIdx
  fits : c.Fits → event.PurchaseFits env s
  vests : ∀ nTime block, event = .vestDevmsc nTime block → c.Vests
  feeless : c.Strict → event.Feeless s
  space : c.Strict → s.mySps.nextSpid < TEST_ECO_PROPERTY_1

theorem Suits.packetOk {parsed : CMPTransaction} (h : Suits c env s (.packet tx)) (hs : Sound c s)
    (hparse : tx.interpretTransaction = some parsed)
    (hfree : s.isAddressFrozen parsed.sender parsed.property = false) : PacketOk c parsed s := by
  have hfrom := parsedFrom_of_interpretTransaction hparse
  have hblock := hfrom.block.trans (h.height _ rfl)
  have htxid := h.txid _ rfl
  obtain ⟨haddr, haddr'⟩ := h.addr tx rfl
  refine ⟨hs, hfrom.txid.trans htxid, hblock, hfree, fun ht => htxid ▸ h.fresh ht _ rfl,
    fun haccept => ?_, ?_, fun hstrict => ?_,
    fun hstrict => (h.feeless hstrict).2 parsed hparse, h.space⟩
  · rw [hfrom.sender, hfrom.receiver haccept]
    exact ⟨haddr, haddr'⟩
  · rw [hfrom.block, hfrom.idx]
    exact h.place tx rfl
  · rw [hfrom.block]
    exact (h.feeless hstrict).1

theorem outcome_interpretPacket (hs : Sound c s) (h : Suits c env s (.packet tx)) :
    wp (interpretPacket env tx) (fun _ s' => Outcome c s s') (Fails c (Outcome c s)) s := by
  unfold interpretPacket
  refine Outcome.of_check reads_rejectIf fun _ _ => ?_
  cases hparse : tx.interpretTransaction with
  | none => exact ⟨fun _ => .of_steps .refl, id⟩
  | some parsed =>
    have hdecode : Reads (decodeAgreement env parsed) (fun _ => True)
        (fun e => e = .thrown ∨ e = .crash) s := by
      refine .ite (fun _ => ?_) fun _ => .pure trivial
      cases env.decodeAgreement parsed.pkt with
      | decoded => exact .pure trivial
      | thrown => exact .throw (.inl rfl)
      | crashed => exact .throw (.inr rfl)
    refine hdecode.wp_bind (fun _ _ => ?_) fun e he => ⟨fun _ => .of_steps .refl, ?_⟩
    · rw [wp_bind, wp_get]
      exact Outcome.of_check reads_rejectIf fun _ hfree =>
        outcome_logicMath (h.packetOk hs hparse hfree)
    · rcases he with rfl | rfl <;> exact id

theorem conforms_calculateAndUpdateDevmsc {nTime : Nat} (hs : Sound c s) (hvests : c.Vests) :
    Conforms c.contract (calculateAndUpdateDevmsc env nTime c.block) (fun _ _ => True) s := by
  have hnotify : ∀ {s' : State} {n : Int}, Sound c s' → Conforms c.contract
      (notifyTotalTokensChanged env OMNI_PROPERTY_MSC c.block >>= fun _ => pure n)
      (fun _ _ => True) s' := fun hs' =>
    Conforms.bind (conforms_notifyTotalTokensChanged hs') fun _ _ _ _ => Conforms.pure trivial
  unfold calculateAndUpdateDevmsc
  refine conforms_rejectIf fun _ => Conforms.get (conforms_rejectIf fun _ =>
    conforms_rejectIf fun hsane => Conforms.ite (fun hpos => ?_) fun _ => hnotify hs)
  have hmax : env.devmscAvailable nTime ≤ ALL_REWARD := by
    rw [Bool.or_eq_false_iff] at hsane
    exact Int.not_lt.mp (of_decide_eq_false hsane.1)
  have hsum : s.aux.exodusPrev + (env.devmscAvailable nTime - s.aux.exodusPrev) =
      env.devmscAvailable nTime := by omega
  rw [conforms_iff, wp_bind]
  refine wp_updateTallyMap (fun _ hneg => by omega) (fun hzero => by omega) ?_ fun hadmits => ?_
  · have htouch := Step.pending (c := c) (s := s) env.exodusAddress OMNI_PROPERTY_MSC 0
    have hvest := Step.vest (c := c) (a := env.exodusAddress)
      (s := s.addTally env.exodusAddress OMNI_PROPERTY_MSC 0 .PENDING) hvests hpos
      (by change s.aux.exodusPrev + _ ≤ _; omega) (.inr (rfl : (0 : Int) = 0))
    rw [credit_of_nonpos (by omega)] at hvest
    have hsteps : Steps c s _ := .tail (.single htouch) hvest
    have hafter := Conforms.after (C := c.contract) hsteps
      (hnotify (n := env.devmscAvailable nTime - s.aux.exodusPrev) (hsteps.sound hs))
    change wp _ _ _ { s.addTally env.exodusAddress OMNI_PROPERTY_MSC 0 .PENDING with
      aux.exodusPrev := s.aux.exodusPrev + (env.devmscAvailable nTime - s.aux.exodusPrev) } at hafter
    rw [hsum] at hafter
    exact hafter
  · have hvest := Step.vest (c := c) (a := env.exodusAddress) hvests hpos (by omega)
      (.inl ⟨rfl, fun hpos => (hadmits (by decide)).2.2 hpos⟩)
    rw [credit_of_pos hpos, hsum] at hvest
    rw [wp_bind, wp_modify]
    exact Conforms.after (C := c.contract) (.single hvest) (hnotify (hs.step hvest))

/-- **What an event can do**, and the failures it excludes. -/
theorem outcome_exec {event : Event} (hs : Sound c s) (h : Suits c env s event) :
    wp (event.exec env) (fun _ s' => Outcome c s s') (Fails c (Outcome c s)) s := by
  cases event with
  | packet tx =>
    change wp (interpretPacket env tx >>= fun _ => pure ()) _ _ s
    rw [wp_bind]
    exact outcome_interpretPacket hs h
  | payment txid vout seller buyer paid block =>
    exact Outcome.of_conforms (Q := fun _ _ => True) (Conforms.bind
      (conforms_dexPayment hs h.fits) fun _ _ _ _ => Conforms.pure trivial)
  | expireAccepts blockNow => exact Outcome.of_conforms (conforms_eraseExpiredAccepts hs)
  | expireCrowdsales time blockHash => exact Outcome.of_conforms (conforms_eraseExpiredCrowdsale hs)
  | vestDevmsc nTime block =>
    have hblock : block = c.block := h.height _ rfl
    subst hblock
    exact Outcome.of_conforms (Q := fun _ _ => True) (Conforms.bind
      (conforms_calculateAndUpdateDevmsc hs (h.vests _ _ rfl)) fun _ _ _ _ =>
        Conforms.pure trivial)
  | pending who p n =>
    change wp (updateTallyMap who p n .PENDING >>= fun _ => pure ()) _ _ s
    rw [wp_bind]
    exact wp_updateTallyMap (fun h => by cases h) (fun _ => .of_steps .refl)
      (.of_steps (.single (.pending who p 0))) fun _ => .of_steps (.single (.pending who p n))

end HcOmni
