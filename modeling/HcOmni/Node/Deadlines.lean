import HcOmni.Node.Kept
import HcOmni.Node.Parked
import HcOmni.Runs.Purchases

/-!
# The deadlines of crowdsales

`eraseExpiredCrowdsale` belongs to the work at the beginning of a block, and that is not among the
work done when `omni_onblockconnected` connects one.  A crowdsale that nobody closes stays active past
its deadline, and a purchase does not look at it.  What holds is that a connected block leaves the
crowdsales as they are, and that no transaction of a later block opens one with an earlier deadline.
-/

namespace HcOmni

open Std MapSum Program CMPTally State Text

variable {I : State → Prop} {env : Env} {s s₀ : State} {tx : CMPTransaction} {T : Int}

/-! ### Deadlines -/

/-- No active crowdsale has a deadline before `T`. -/
def State.NoneBefore (T : Int) (s : State) : Prop :=
  ∀ (a : Address) (crowd : CMPCrowd), s.myCrowds[a]? = some crowd → T ≤ crowd.deadline

namespace State.NoneBefore

theorem congr {s' : State} (h : s.NoneBefore T) (hcrowds : s'.myCrowds = s.myCrowds) :
    s'.NoneBefore T := by
  unfold NoneBefore
  rwa [hcrowds]

theorem erase {s' : State} {a : Address} (h : s.NoneBefore T)
    (hcrowds : s'.myCrowds = s.myCrowds.erase a) : s'.NoneBefore T := by
  intro b crowd hget
  rw [hcrowds] at hget
  exact h b crowd (getElem?_of_erase hget).2

theorem insert {s' : State} {a : Address} {crowd : CMPCrowd} (h : s.NoneBefore T)
    (hdeadline : T ≤ crowd.deadline) (hcrowds : s'.myCrowds = s.myCrowds.insert a crowd) :
    s'.NoneBefore T := by
  intro b other hget
  rw [hcrowds] at hget
  rcases getElem?_of_insert hget with ⟨-, rfl⟩ | ⟨-, hold⟩
  · exact hdeadline
  · exact h b other hold

theorem of_agree {s' : State} {W : List Part} (h : s.NoneBefore T) (hagree : stateParts.Agree W s s')
    (hapart : Part.crowds ∉ W) : s'.NoneBefore T :=
  h.congr (hagree .crowds hapart)

end State.NoneBefore

theorem noneBefore_iff :
    s.NoneBefore T ↔ ∀ entry ∈ s.myCrowds.toList, T ≤ entry.2.deadline :=
  ⟨fun h entry hmem => h entry.1 entry.2 (mem_toList.mp hmem),
    fun h a crowd hget => h (a, crowd) (mem_toList.mpr hget)⟩

instance : Decidable (s.NoneBefore T) := decidable_of_iff _ noneBefore_iff.symm

theorem deadlines_eraseMaxedCrowdsale {a : Address} {time block : Int} (h : s.NoneBefore T) :
    Keeps (NoneBefore T) (eraseMaxedCrowdsale env a time block) s := by
  unfold eraseMaxedCrowdsale
  refine survives_get ?_
  cases s.myCrowds[a]? with
  | none => exact h
  | some crowd =>
    refine survives_reads h reads_assertGetSP fun sp _ => ?_
    cases env.chainActive block with
    | none => exact fun _ => h
    | some blockHash =>
      rw [wp_bind]
      exact survives_updateSP fun _ => h.erase rfl

theorem deadlines_participation (h : s.NoneBefore T) :
    Keeps (NoneBefore T) (logicHelperCrowdsaleParticipation env tx) s := by
  unfold logicHelperCrowdsaleParticipation
  refine survives_get ?_
  cases hcrowd : s.myCrowds[tx.receiver]? with
  | none => exact fun _ => h
  | some crowd =>
    refine survives_rejectIf h fun _ => survives_reads h reads_assertGetSP fun sp _ =>
      survives_reads h reads_calculateFundraiser fun tokens _ => ?_
    have hcredit : ∀ {a : Address} {n : Int} {s : State}, s.NoneBefore T →
        Keeps (NoneBefore T) (assertCredit a crowd.propertyId n) s := fun h =>
      keeps_of_touches touches_assertCredit fun _ hagree => h.of_agree hagree (by decide)
    rw [wp_bind, wp_modify]
    refine Keeps.bind (hcredit ?_) fun _ _ h => ?_
    · refine h.insert ?_ rfl
      exact h tx.receiver crowd hcrowd
    refine Keeps.bind (hcredit h) fun _ _ h => ?_
    refine Keeps.bind (keeps_of_touches touches_notifyTotalTokensChanged fun _ hagree =>
      h.of_agree hagree (by decide)) fun _ _ h => ?_
    unfold Keeps
    rw [wp_ite]
    refine ⟨fun _ => ?_, fun _ => h⟩
    exact Keeps.bind (deadlines_eraseMaxedCrowdsale h) fun _ _ h => h

theorem deadlines_logicMathSimpleSend (h : s.NoneBefore T) :
    Keeps (NoneBefore T) (logicMathSimpleSend env tx) s := by
  have hupdate : ∀ {a : Address} {n : Int} {s : State}, s.NoneBefore T →
      Keeps (NoneBefore T) (assertUpdateTallyMap a tx.property n .BALANCE) s := fun h =>
    keeps_of_touches touches_assertUpdateTallyMap fun _ hagree => h.of_agree hagree (by decide)
  unfold logicMathSimpleSend
  refine survives_get (survives_rejectIf h fun _ => survives_rejectIf h fun _ =>
    survives_rejectIf h fun _ => survives_rejectIf h fun _ => ?_)
  refine Keeps.bind (hupdate h) fun _ _ h => Keeps.bind (hupdate h) fun _ _ h => ?_
  exact Keeps.bind (keeps_callRc (deadlines_participation h)) fun _ _ h => h

theorem deadlines_logicMathGrantTokens (h : s.NoneBefore T) :
    Keeps (NoneBefore T) (logicMathGrantTokens env tx) s := by
  have hnotify : ∀ {s : State}, s.NoneBefore T → Keeps (NoneBefore T)
      (notifyTotalTokensChanged env tx.property tx.block >>= fun _ => pure (0 : Int)) s := fun h =>
    keeps_of_touches (.bind touches_notifyTotalTokensChanged fun _ _ => .pure)
      fun _ hagree => h.of_agree hagree (by decide)
  unfold logicMathGrantTokens
  refine survives_get (survives_rejectIf h fun _ => survives_rejectIf h fun _ =>
    survives_rejectIf h fun _ => survives_reads h reads_assertGetSP fun sp _ =>
      survives_rejectIf h fun _ => survives_rejectIf h fun _ => survives_rejectIf h fun _ => ?_)
  refine Keeps.bind (keeps_of_touches touches_assertUpdateSP fun _ hagree =>
    h.of_agree hagree (by decide)) fun _ _ h => ?_
  refine Keeps.bind (keeps_of_touches touches_assertUpdateTallyMap fun _ hagree =>
    h.of_agree hagree (by decide)) fun _ _ h => ?_
  unfold Keeps
  rw [wp_ite]
  refine ⟨fun _ => hnotify h, fun _ => ?_⟩
  exact Keeps.bind (keeps_callRc (deadlines_participation h)) fun _ _ h => hnotify h

theorem deadlines_logicMathCreatePropertyVariable (htime : T ≤ tx.blockTime) (h : s.NoneBefore T) :
    Keeps (NoneBefore T) (logicMathCreatePropertyVariable tx) s := by
  unfold logicMathCreatePropertyVariable
  refine survives_get (survives_rejectIf h fun heco => survives_rejectIf h fun _ =>
    survives_rejectIf h fun _ => survives_rejectIf h fun _ => survives_rejectIf h fun _ =>
      survives_rejectIf h fun _ => survives_rejectIf h fun _ => survives_rejectIf h fun hdeadline =>
        survives_rejectIf h fun hnone => ?_)
  replace hdeadline : ¬toInt64 tx.deadline < tx.blockTime :=
    of_decide_eq_false (Bool.or_eq_false_iff.mp hdeadline).2
  have hnone : s.myCrowds[tx.sender]? = none :=
    Option.not_isSome_iff_eq_none.mp (ne_true_of_eq_false hnone)
  rw [wp_bind]
  refine survives_putNew (ecosystem_cases heco) fun _ => ?_
  simp only [wp_bind, wp_modify, wp_pure]
  refine h.insert ?_ (insertIfNew_of_none hnone)
  dsimp only
  exact Int.le_trans htime (Int.not_lt.mp hdeadline)

theorem deadlines_logicMathCloseCrowdsale (h : s.NoneBefore T) :
    Keeps (NoneBefore T) (logicMathCloseCrowdsale tx) s := by
  unfold logicMathCloseCrowdsale
  refine survives_get (survives_rejectIf h fun _ => survives_rejectIf h fun _ => ?_)
  cases s.myCrowds[tx.sender]? with
  | none => exact fun _ => h
  | some crowd =>
    refine survives_rejectIf h fun _ => survives_reads h reads_assertGetSP
      fun sp _ => survives_reads h reads_getMissedIssuerBonus fun missed _ => ?_
    refine Keeps.bind ?_ fun _ _ h => h
    unfold closeCrowdsale Keeps
    rw [wp_bind]
    refine survives_updateSP fun _ => ?_
    rw [wp_bind]
    exact survives_credit fun _ => h.erase rfl

/-- **A transaction opens no crowdsale that ends before its block.** -/
theorem deadlines_interpretPacket (htime : T ≤ tx.blockTime) (h : s.NoneBefore T) :
    Keeps (NoneBefore T) (interpretPacket env tx) s := by
  refine keeps_interpretPacket h fun parsed hparse _ => ?_
  by_cases hother : parsed.type ∉ [MSC_TYPE_SIMPLE_SEND, MSC_TYPE_CREATE_PROPERTY_VARIABLE,
      MSC_TYPE_CLOSE_CROWDSALE, MSC_TYPE_GRANT_PROPERTY_TOKENS]
  · refine keeps_of_touches touches_logicMath fun _ hagree => h.of_agree hagree ?_
    simp only [List.mem_cons, List.not_mem_nil, or_false, not_or] at hother
    obtain ⟨hsend, hvariable, hclose, hgrant⟩ := hother
    have hapart : Apart (partsOfType parsed.type) [.crowds] := by
      unfold partsOfType
      rw [if_neg hsend, if_neg hvariable, if_neg hclose, if_neg hgrant]
      repeat refine apart_ite (by decide) ?_
      decide
    exact hapart .crowds (by decide)
  · simp only [List.mem_cons, List.not_mem_nil, or_false, not_not] at hother
    have hparsed := parsedFrom_of_interpretTransaction hparse
    unfold logicMath
    rcases hother with htype | htype | htype | htype <;> rw [htype]
    · exact deadlines_logicMathSimpleSend h
    · exact deadlines_logicMathCreatePropertyVariable (hparsed.time.symm ▸ htime) h
    · exact deadlines_logicMathCloseCrowdsale h
    · exact deadlines_logicMathGrantTokens h

/-! ### What a send creates -/

/-- Nothing but tokens of `p` has been created or destroyed. -/
def State.SameElse (p : PropertyId) (s₀ s : State) : Prop :=
  ∀ q, q ≠ p → s.held q = s₀.held q

namespace State.SameElse

variable {p : PropertyId}

theorem congr {s' : State} (h : SameElse p s₀ s) (htally : s'.mpTallyMap = s.mpTallyMap) :
    SameElse p s₀ s' := by
  intro q hq
  have hheld : s'.held q = s.held q := by unfold held; rw [htally]
  rw [hheld, h q hq]

theorem addTally {a : Address} {n : Int} {t : TallyType} (h : SameElse p s₀ s) :
    SameElse p s₀ (s.addTally a p n t) := by
  intro q hq
  rw [held_addTally, if_neg (fun hsame => hq hsame.1.symm), h q hq]
  omega

theorem update {a : Address} {n : Int} (h : SameElse p s₀ s) :
    Keeps (SameElse p s₀) (assertUpdateTallyMap a p n .BALANCE) s :=
  survives_update (by decide) fun _ => h.addTally

theorem credit {a : Address} {n : Int} (h : SameElse p s₀ s) :
    Keeps (SameElse p s₀) (assertCredit a p n) s := by
  unfold assertCredit Keeps
  rw [wp_ite]
  exact ⟨fun _ => h.update, fun _ => h⟩

theorem notify {block : Int} (h : SameElse p s₀ s) :
    Keeps (SameElse p s₀) (notifyTotalTokensChanged env p block) s := by
  unfold notifyTotalTokensChanged updateDistributionThresholds evalCache Keeps
  simp only [wp_bind, wp_modify, wp_get, wp_ite]
  refine ⟨fun _ => ?_, fun _ => h.congr rfl⟩
  unfold distributeCache
  refine survives_get (survives_reads (h.congr rfl) reads_receiversOf fun receivers _ => ?_)
  refine Keeps.bind (Keeps.forM _ _ _ (fun receiver _ s' h' => h'.update) (h.congr rfl)) fun _ _ h => ?_
  dsimp only
  unfold Keeps
  rw [wp_bind, wp_record, wp_bind]
  refine survives_assertThat fun _ => ?_
  unfold clearCache pruneCache
  simp only [wp_bind, wp_modify]
  refine h.congr ?_
  unfold pruneFees
  dsimp only
  split <;> rfl

theorem eraseMaxed {a : Address} {time block : Int} (h : SameElse p s₀ s) :
    Keeps (SameElse p s₀) (eraseMaxedCrowdsale env a time block) s := by
  unfold eraseMaxedCrowdsale
  refine survives_get ?_
  cases s.myCrowds[a]? with
  | none => exact h
  | some crowd =>
    refine survives_reads h reads_assertGetSP fun sp _ => ?_
    cases env.chainActive block with
    | none => exact fun _ => h
    | some blockHash =>
      rw [wp_bind]
      exact survives_updateSP fun _ => h.congr rfl

end State.SameElse

/-- Only tokens of the crowdsale of the receiver have been created or destroyed. -/
def State.OnlySold (s₀ : State) (receiver : Address) (s : State) : Prop :=
  ∀ q, s.held q ≠ s₀.held q →
    ∃ crowd : CMPCrowd, s₀.myCrowds[receiver]? = some crowd ∧ crowd.propertyId = q

theorem onlySold_participation (hcrowds : s.myCrowds = s₀.myCrowds)
    (hheld : ∀ q, s.held q = s₀.held q) :
    Keeps (OnlySold s₀ tx.receiver) (logicHelperCrowdsaleParticipation env tx) s := by
  have hI : OnlySold s₀ tx.receiver s := fun q hne => absurd (hheld q) hne
  unfold logicHelperCrowdsaleParticipation
  refine survives_get ?_
  rw [hcrowds]
  cases hcrowd : s₀.myCrowds[tx.receiver]? with
  | none => exact fun _ => hI
  | some crowd =>
    refine survives_rejectIf hI fun _ => survives_reads hI reads_assertGetSP fun sp _ =>
      survives_reads hI reads_calculateFundraiser fun tokens _ => ?_
    -- from here on only tokens of the crowdsale are written
    have hsold : ∀ s', SameElse crowd.propertyId s₀ s' → OnlySold s₀ tx.receiver s' := by
      intro s' hsame q hne
      refine ⟨crowd, hcrowd, ?_⟩
      by_contra hq
      exact hne (hsame q (Ne.symm hq))
    rw [wp_bind, wp_modify]
    have hstart : SameElse crowd.propertyId s₀ s := fun q _ => hheld q
    refine wp_mono (Q := fun _ => SameElse crowd.propertyId s₀)
      (E := Survives (SameElse crowd.propertyId s₀)) ?_ (fun _ s' h => hsold s' h)
      fun _ s' h hlive => hsold s' (h hlive)
    refine Keeps.bind (SameElse.credit ?_) fun _ _ h => Keeps.bind h.credit fun _ _ h =>
      Keeps.bind h.notify fun _ _ h => ?_
    · exact hstart.congr rfl
    unfold Keeps
    rw [wp_ite]
    exact ⟨fun _ => Keeps.bind h.eraseMaxed fun _ _ h => h, fun _ => h⟩

/-- **A send creates tokens of the crowdsale of the receiver only.** -/
theorem onlySold_logicMathSimpleSend :
    Keeps (OnlySold s tx.receiver) (logicMathSimpleSend env tx) s := by
  have hI : OnlySold s tx.receiver s := fun q hne => absurd rfl hne
  unfold logicMathSimpleSend
  refine survives_get (survives_rejectIf hI fun _ => survives_rejectIf hI fun _ =>
    survives_rejectIf hI fun _ => survives_rejectIf hI fun _ => ?_)
  rw [wp_bind]
  refine survives_update (by decide) fun _ => ?_
  rw [wp_bind]
  refine survives_update (by decide) fun _ => ?_
  refine Keeps.bind (keeps_callRc (onlySold_participation rfl fun q => ?_)) fun _ _ h => h
  exact held_move s (by decide) (by decide)

/-! ### Messages in height order -/

/-- Nothing is parked, and the block of the given height comes next.  A node that has seen no block
yet takes any. -/
structure Node.Due (n : Node) (height : Int) : Prop where
  pos : 0 < height
  next : n.latestBlock + 1 = height ∨ n.latestBlock ≤ 0
  blocks : ∀ h, n.localBlockInfo.getBlockInfo h = none
  txs : ∀ h, n.localTxInfo.getTxInfo h = []

/-- The messages come block by block from the given height on, with unconfirmed transactions in
between. -/
def InHeightOrder : (height : Int) → List Message → Prop
  | _, [] => True
  | height, .tx m :: rest => (m.block = 0 ∨ m.block = height) ∧ InHeightOrder height rest
  | height, .payment _ :: rest => InHeightOrder height rest
  | height, .block b :: rest => b.height = height ∧ InHeightOrder (height + 1) rest

/-- No block, and no transaction of a block, is older than the block before. -/
def TimesRise : (time : Int) → List Message → Prop
  | _, [] => True
  | time, .tx m :: rest => (m.block = 0 ∨ time ≤ m.time) ∧ TimesRise time rest
  | time, .payment _ :: rest => TimesRise time rest
  | time, .block b :: rest => time ≤ b.time ∧ TimesRise b.time rest

instance decidableInHeightOrder :
    ∀ height messages, Decidable (InHeightOrder height messages)
  | _, [] => .isTrue trivial
  | height, .tx _ :: rest =>
      have := decidableInHeightOrder height rest
      inferInstanceAs (Decidable (_ ∧ _))
  | height, .payment _ :: rest => decidableInHeightOrder height rest
  | height, .block _ :: rest =>
      have := decidableInHeightOrder (height + 1) rest
      inferInstanceAs (Decidable (_ ∧ _))

instance decidableTimesRise : ∀ time messages, Decidable (TimesRise time messages)
  | _, [] => .isTrue trivial
  | time, .tx _ :: rest =>
      have := decidableTimesRise time rest
      inferInstanceAs (Decidable (_ ∧ _))
  | time, .payment _ :: rest => decidableTimesRise time rest
  | _, .block b :: rest =>
      have := decidableTimesRise b.time rest
      inferInstanceAs (Decidable (_ ∧ _))

section Order

variable {n n' u v w w' : Node} {nenv : NodeEnv} {height : Int}

namespace Node.Due

theorem congr (h : n.Due height) (hlatest : n'.latestBlock = n.latestBlock)
    (hblocks : n'.localBlockInfo = n.localBlockInfo) (htxs : n'.localTxInfo = n.localTxInfo) :
    n'.Due height where
  pos := h.pos
  next := by rw [hlatest]; exact h.next
  blocks := by rw [hblocks]; exact h.blocks
  txs := by rw [htxs]; exact h.txs

theorem transaction {m : TxMessage} (h : n.Due height) (hm : m.block = 0 ∨ m.block = height)
    (hdeliver : deliver nenv n (.tx m) = some n') : n'.Due height := by
  refine of_survive (P := fun n' => n'.Due height) hdeliver ?_
  change wp (mastercoreHandlerMptx nenv m >>= fun _ => pure ()) _ _ n
  unfold mastercoreHandlerMptx
  simp only [wp_ite, wp_bind, wp_get, wp_modify, wp_pure]
  refine ⟨fun _ => ?_, fun hconfirmed => ⟨fun hearly => ?_, fun _ => ?_⟩⟩
  · have hsame : ∀ u : Node, n.pendingPart u = u → u.Due height := fun u hu => by
      rw [← hu]
      exact h.congr rfl rfl rfl
    exact wp_mono (frame_handleUnconfirmed m) (fun _ u hu => hsame u hu) fun _ u hu => hsame u hu
  · have := h.next
    have := hm.resolve_left hconfirmed
    omega
  · have hsame : ∀ u : Node, n.txPart u = u → u.Due height := fun u hu => by
      rw [← hu]
      exact h.congr rfl rfl rfl
    exact wp_mono (frame_processTransaction m) (fun _ u hu => hsame u hu) fun _ u hu => hsame u hu

theorem payment {m : PaymentMessage} (h : n.Due height)
    (hdeliver : deliver nenv n (.payment m) = some n') : n'.Due height := by
  refine of_survive (P := fun n' => n'.Due height) hdeliver ?_
  have hsame : ∀ u : Node, n.paymentPart u = u → u.Due height := fun u hu => by
    rw [← hu]
    exact h.congr rfl rfl rfl
  exact wp_mono (frame_omniProcesspayment m) (fun _ u hu => hsame u hu) fun _ u hu => hsame u hu

theorem block {b : BlockMessage} (h : n.Due height) (hb : b.height = height)
    (hdeliver : deliver nenv n (.block b) = some n') : n'.Due (height + 1) := by
  refine of_survive (P := fun n' => n'.Due (height + 1)) hdeliver ?_
  change wp (omniOnblockconnected nenv b) _ _ n
  have hconnected : ∀ u : Node, n.blockPart u = u →
      u.latestBlock = b.height ∧ u.waterlineBlock = b.height → u.Due (height + 1) := by
    rintro u hframe ⟨hlatest, -⟩
    refine ⟨by have := h.pos; omega, .inl (by omega), ?_, ?_⟩
    · rw [← hframe]
      exact h.blocks
    · rw [← hframe]
      exact h.txs
  unfold omniOnblockconnected
  simp only [wp_bind, wp_get, wp_ite, wp_modify, wp_pure]
  refine ⟨fun hearly => ?_, fun _ => ?_⟩
  · have := h.next
    omega
  refine wp_mono (wp_and (frame_onblockconnectedP b) (latestBlock_onblockconnectedP b)) ?_
    fun _ u hu => hconnected u hu.1 hu.2
  rintro _ u ⟨hframe, hlatest⟩
  have hu := hconnected u hframe hlatest
  unfold replayParked
  simp only [wp_bind, wp_get, hu.blocks]
  exact ⟨Bool.noConfusion, fun _ => hu⟩

/-- **Nothing is ever parked.** -/
theorem deliverAll {before after : List Message} (h : n.Due height)
    (horder : InHeightOrder height (before ++ after)) (hrun : deliverAll nenv n before = some n') :
    ∃ height', n'.Due height' ∧ InHeightOrder height' after := by
  induction before generalizing n height with
  | nil =>
    cases hrun
    exact ⟨height, h, horder⟩
  | cons message rest ih =>
    rw [deliverAll_cons] at hrun
    obtain ⟨u, hdeliver, hrest⟩ := Option.bind_eq_some_iff.mp hrun
    cases message with
    | tx m => exact ih (h.transaction horder.1 hdeliver) horder.2 hrest
    | payment m => exact ih (h.payment hdeliver) horder hrest
    | block b => exact ih (h.block horder.1 hdeliver) horder.2 hrest

end Node.Due

theorem TimesRise.le {time : Int} {messages : List Message} (h : TimesRise time messages)
    {m : TxMessage} (hm : .tx m ∈ messages) : m.block = 0 ∨ time ≤ m.time := by
  induction messages generalizing time with
  | nil => cases hm
  | cons message rest ih =>
    cases message with
    | tx m' =>
      rcases List.mem_cons.mp hm with hsame | hrest
      · cases hsame
        exact h.1
      · exact ih h.2 hrest
    | payment m' => exact ih h ((List.mem_cons.mp hm).resolve_left (fun h => by cases h))
    | block b =>
      refine (ih h.2 ((List.mem_cons.mp hm).resolve_left (fun h => by cases h))).imp id fun hle => ?_
      exact Int.le_trans h.1 hle

theorem TimesRise.block {time : Int} {before after : List Message} {b : BlockMessage}
    (h : TimesRise time (before ++ .block b :: after)) : TimesRise b.time after := by
  induction before generalizing time with
  | nil => exact h.2
  | cons message rest ih =>
    cases message with
    | tx m => exact ih h.2
    | payment m => exact ih h
    | block b' => exact ih h.2

theorem TimesRise.left {time : Int} {before after : List Message}
    (h : TimesRise time (before ++ after)) : TimesRise time before := by
  induction before generalizing time with
  | nil => trivial
  | cons message rest ih =>
    cases message with
    | tx m => exact ⟨h.1, ih h.2⟩
    | payment m => exact ih h
    | block b => exact ⟨h.1, ih h.2⟩

/-! ### Blocks and deadlines -/

theorem crowds_deliver_block {b : BlockMessage} (htxs : ∀ h, n.localTxInfo.getTxInfo h = [])
    (hdeliver : deliver nenv n (.block b) = some n') : n'.core.myCrowds = n.core.myCrowds := by
  have hrespects : Respects nenv (fun s => s.myCrowds = n.core.myCrowds) (fun _ => False) :=
    .of_parts [.crowds] (by decide) (fun s s' hagree hI => (hagree .crowds (by decide)).trans hI)
      fun _ _ _ hnever => hnever.elim
  have hstart : NodeKept (fun s => s.myCrowds = n.core.myCrowds) (fun _ => False) n := by
    refine ⟨rfl, fun h m hm => ?_⟩
    rw [htxs] at hm
    cases hm
  exact (hstart.deliver hrespects (fun m hm => by cases hm) hdeliver).core

theorem noneBefore_deliverAll {messages : List Message} (hnone : n.core.NoneBefore T)
    (htxs : ∀ h, n.localTxInfo.getTxInfo h = []) (htimes : TimesRise T messages)
    (hrun : deliverAll nenv n messages = some n') : n'.core.NoneBefore T := by
  have hrespects : Respects nenv (NoneBefore T) (fun m => m.block = 0 ∨ T ≤ m.time) := by
    refine .of_parts [.crowds] (by decide) (fun s s' hagree hI => ?_) fun m s hconfirmed hm hI => ?_
    · exact hI.congr (hagree .crowds (by decide))
    · exact deadlines_interpretPacket (hm.resolve_left hconfirmed) hI
  have hstart : NodeKept (NoneBefore T) (fun m => m.block = 0 ∨ T ≤ m.time) n := by
    refine ⟨hnone, fun h m hm => ?_⟩
    rw [htxs] at hm
    cases hm
  exact (hstart.deliverAll hrespects (fun m hm => htimes.le hm) hrun).core

theorem onlySold_deliver {m : TxMessage} {parsed : CMPTransaction}
    (hparse : m.transaction.interpretTransaction = some parsed)
    (htype : parsed.type = MSC_TYPE_SIMPLE_SEND) (hdeliver : deliver nenv n (.tx m) = some n') :
    OnlySold n.core parsed.receiver n'.core := by
  have hstart : NodeKept (fun s => s.myCrowds = n.core.myCrowds ∧ ∀ q, s.held q = n.core.held q)
      (fun _ => True) n := ⟨⟨rfl, fun _ => rfl⟩, fun _ _ _ => trivial⟩
  suffices h : NodeKeeps (OnlySold n.core parsed.receiver) (fun _ => True)
      (mastercoreHandlerMptx nenv m) n by
    refine (NodeKeeps.survive (P := fun _ => True) (m := (Message.tx m).handle nenv) ?_ hdeliver).core
    change wp (mastercoreHandlerMptx nenv m >>= fun _ => pure ()) _ _ n
    rw [wp_bind]
    exact h
  refine hstart.mastercoreHandlerMptx (fun a p amount s hs => ?_) (fun s hs q hne => ?_)
    (fun _ s hs => ?_) trivial
  · have hadded : ∀ amount : Int, (s.addTally a p amount .PENDING).myCrowds = n.core.myCrowds ∧
        ∀ q, (s.addTally a p amount .PENDING).held q = n.core.held q := by
      refine fun amount => ⟨hs.1, fun q => ?_⟩
      rw [held_addTally, if_neg (fun hsame => hsame.2 rfl), Int.add_zero, hs.2 q]
    exact wp_updateTallyMap (fun ht => by cases ht) (fun _ => hs) (hadded 0) fun _ => hadded amount
  · exact absurd (hs.2 q) hne
  · have hsold : Keeps (OnlySold s parsed.receiver) (interpretPacket nenv.env m.transaction) s := by
      refine keeps_interpretPacket (fun q hne => absurd rfl hne) fun parsed' hparse' _ => ?_
      cases hparse.symm.trans hparse'
      unfold logicMath
      rw [if_pos htype]
      exact onlySold_logicMathSimpleSend
    have hsame : ∀ s', OnlySold s parsed.receiver s' → OnlySold n.core parsed.receiver s' := by
      intro s' hs' q hne
      rw [← hs.1]
      exact hs' q (by rwa [hs.2 q])
    exact wp_mono hsold (fun _ s' hs' => hsame s' hs') fun _ s' hs' hlive => hsame s' (hs' hlive)

/-- **The end of crowdsales.**  Messages arrive in the order of the blocks, and block times do not
fall.  After a block no active crowdsale has a deadline before its time exactly if that was so before
the block was connected.  It stays so then, and a send of a later block creates tokens of a crowdsale
with a later deadline only. -/
theorem crowdsales_end_iff {messages before after : List Message} {b : BlockMessage} {start : Int}
    (hdue : n.Due height) (horder : InHeightOrder height messages)
    (htimes : TimesRise start messages) (hsplit : messages = before ++ .block b :: after)
    (hbefore : deliverAll nenv n before = some u) (hconnect : deliver nenv u (.block b) = some v) :
    (v.core.NoneBefore b.time ↔ u.core.NoneBefore b.time) ∧
    (u.core.NoneBefore b.time → ∀ later rest m w w' parsed, after = later ++ .tx m :: rest →
      deliverAll nenv v later = some w → deliver nenv w (.tx m) = some w' →
      m.transaction.interpretTransaction = some parsed → parsed.type = MSC_TYPE_SIMPLE_SEND →
      w.core.NoneBefore b.time ∧ ∀ q, w'.core.held q ≠ w.core.held q →
        ∃ crowd : CMPCrowd, w.core.myCrowds[parsed.receiver]? = some crowd ∧
          crowd.propertyId = q ∧ b.time ≤ crowd.deadline) := by
  subst hsplit
  obtain ⟨height', hu, horder'⟩ := hdue.deliverAll horder hbefore
  have hcrowds := crowds_deliver_block hu.txs hconnect
  refine ⟨⟨fun h => h.congr hcrowds.symm, fun h => h.congr hcrowds⟩, ?_⟩
  rintro hnone later rest m w w' parsed rfl hlater hdeliver hparse htype
  have hv := hu.block horder'.1 hconnect
  have htimes' : TimesRise b.time later := htimes.block.left
  have hw := noneBefore_deliverAll (hnone.congr hcrowds) hv.txs htimes' hlater
  refine ⟨hw, fun q hne => ?_⟩
  obtain ⟨crowd, hcrowd, hproperty⟩ := onlySold_deliver hparse htype hdeliver q hne
  exact ⟨crowd, hcrowd, hproperty, hw parsed.receiver crowd hcrowd⟩

end Order

/-! ### A sale that is over -/

/-- A transaction message with the given packet. -/
def packetMessage (height idx : Nat) (time : Int) (sender receiver : Address)
    (payload : List UInt8) : TxMessage where
  sender := sender
  reference := receiver
  txHash := uint256ToString (1000 * height + idx)
  blockHash := uint256ToString height
  block := height
  idx := idx
  scriptEncode := payload.flatMap fun byte => hexDigits 2 byte.toNat
  fee := 0
  time := time

/-- A block is connected every ten minutes. -/
def timedBlock (height : Nat) : BlockMessage :=
  ⟨height, uint256ToString height, 1500000000 + 600 * (height - 50000 : Nat)⟩

/-- A crowdsale is opened in the second block. -/
def saleOpened (deadline : UInt64) : List Message := [
  .block (timedBlock 50000),
  .tx (packetMessage 50001 0 1500000600 "issuer".toList [] (createPayloadIssuanceVariable 1 1 0 [] []
    "token".toList [] [] 1 100 deadline 0 0)),
  .block (timedBlock 50001)]

/-- A purchase in the fourth block. -/
def latePurchase : TxMessage :=
  packetMessage 50003 0 1500001800 "exodus".toList "issuer".toList (createPayloadSimpleSend 1 100000000)

def fundedNodeEnv : NodeEnv := ⟨fundedEnv, sampleFileEnv, mainConsensusParams⟩

theorem due_sampleNode : sampleNode.Due 50000 := by
  refine ⟨by decide, .inr (by decide), fun h => ?_, fun h => ?_⟩
  · simp [sampleNode, CLocalBlockInfo.getBlockInfo]
  · simp [sampleNode, CLocalTxInfo.getTxInfo]

/-- A purchase from a crowdsale with a late deadline. -/
theorem crowdsales_end_iff_bought :
    ∃ v w' crowd, deliverAll fundedNodeEnv sampleNode (saleOpened 1600000000 ++
        [.block (timedBlock 50002)]) = some v ∧
      deliver fundedNodeEnv v (.tx latePurchase) = some w' ∧ v.core.NoneBefore 1500001200 ∧
      v.core.held 3 = 0 ∧ w'.core.held 3 = 100 ∧ v.core.myCrowds["issuer".toList]? = some crowd ∧
      crowd.propertyId = 3 ∧ 1500001200 ≤ crowd.deadline := by
  have hopened : (deliverAll fundedNodeEnv sampleNode (saleOpened 1600000000)).map (fun u =>
      (decide (u.core.NoneBefore 1500001200),
        (deliver fundedNodeEnv u (.block (timedBlock 50002))).map fun v => (v.core.held 3,
          (deliver fundedNodeEnv v (.tx latePurchase)).map fun w' => w'.core.held 3))) =
      some (true, some (0, some 100)) := by decide +kernel
  obtain ⟨u, hbefore, hu⟩ := Option.map_eq_some_iff.mp hopened
  simp only [Prod.mk.injEq, Option.map_eq_some_iff, decide_eq_true_eq] at hu
  obtain ⟨hnone, v, hconnect, hv, w', hdeliver, hw'⟩ := hu
  have horder : InHeightOrder 50000 (saleOpened 1600000000 ++ [.block (timedBlock 50002),
    .tx latePurchase]) := by decide
  have htimes : TimesRise 0 (saleOpened 1600000000 ++ [.block (timedBlock 50002),
    .tx latePurchase]) := by decide
  obtain ⟨hiff, hlater⟩ :=
    crowdsales_end_iff due_sampleNode horder htimes rfl hbefore hconnect
  obtain ⟨parsed, hparse, hparsed⟩ := Option.map_eq_some_iff.mp (by decide +kernel :
    latePurchase.transaction.interpretTransaction.map (fun parsed => (parsed.type, parsed.receiver)) =
      some (MSC_TYPE_SIMPLE_SEND, "issuer".toList))
  rw [Prod.mk.injEq] at hparsed
  obtain ⟨crowd, hcrowd, hid, hdeadline⟩ := (hlater hnone [] [] _ v w' parsed rfl rfl hdeliver hparse
    hparsed.1).2 3 (by rw [hv, hw']; decide)
  rw [hparsed.2] at hcrowd
  refine ⟨v, w', crowd, ?_, hdeliver, hiff.mpr hnone, hv, hw', hcrowd, hid, hdeadline⟩
  rw [deliverAll_concat, hbefore]
  exact hconnect

/-- **A crowdsale outlives its deadline.**  It ends a minute before the third block, is still active
when that block has been connected, and sells in the fourth. -/
theorem exists_crowdsale_outlives :
    InHeightOrder 50000 (saleOpened 1500001140 ++ [.block (timedBlock 50002), .tx latePurchase]) ∧
    TimesRise 0 (saleOpened 1500001140 ++ [.block (timedBlock 50002), .tx latePurchase]) ∧
    ∃ v w' crowd, deliverAll fundedNodeEnv sampleNode (saleOpened 1500001140 ++
        [.block (timedBlock 50002)]) = some v ∧
      v.core.myCrowds["issuer".toList]? = some crowd ∧ crowd.propertyId = 3 ∧
      crowd.deadline < (timedBlock 50002).time ∧ v.core.money "exodus".toList 3 .BALANCE = 0 ∧
      deliver fundedNodeEnv v (.tx latePurchase) = some w' ∧
      w'.core.money "exodus".toList 3 .BALANCE = 100 := by
  refine ⟨by decide, by decide, ?_⟩
  have hsold : (deliverAll fundedNodeEnv sampleNode (saleOpened 1500001140 ++
      [.block (timedBlock 50002)])).map (fun v =>
        (v.core.myCrowds["issuer".toList]?.map fun crowd => (crowd.propertyId, crowd.deadline),
          v.core.money "exodus".toList 3 .BALANCE,
          (deliver fundedNodeEnv v (.tx latePurchase)).map fun w' =>
            w'.core.money "exodus".toList 3 .BALANCE)) =
      some (some (3, 1500001140), 0, some 100) := by decide +kernel
  obtain ⟨v, hrun, hv⟩ := Option.map_eq_some_iff.mp hsold
  simp only [Prod.mk.injEq, Option.map_eq_some_iff] at hv
  obtain ⟨⟨crowd, hcrowd, hid, hdeadline⟩, hmoney, w', hdeliver, hbought⟩ := hv
  refine ⟨v, w', crowd, hrun, hcrowd, hid, ?_, hmoney, hdeliver, hbought⟩
  rw [hdeadline]
  decide

end HcOmni
