import HcOmni.Node.Deadlines
import HcOmni.Runs.Expiry

/-!
# The payment window

`DEx_payment` takes the height of its block for the calculation, and does not compare it with the height
of the accept.  That a payment comes in time follows from the order of the messages: the accepts of
which the window has passed are finalized when a block is connected, before anything of the next block
is delivered.
-/

namespace HcOmni

open Std MapSum Program CMPTally State Text

variable {s : State} {height : Int}

/-! ### Accepts that can be paid -/

/-- A payment in a block of the given height comes in time. -/
def CMPAccept.InTime (accept : CMPAccept) (height : Int) : Prop :=
  0 ≤ height - accept.block ∧ height - accept.block ≤ accept.blocktimelimit

/-- All accepts can be paid in a block of the given height. -/
def State.InTime (height : Int) (s : State) : Prop :=
  s.AllTerms (fun _ => True) (CMPAccept.InTime · height)

theorem State.InTime.of_agree {W : List Part} {s' : State} (h : s.InTime height)
    (hagree : stateParts.Agree W s s') (hW : Part.accepts ∉ W) : s'.InTime height := by
  refine ⟨fun _ _ _ => trivial, ?_⟩
  rw [show s'.myAccepts = s.myAccepts from hagree .accepts hW]
  exact h.accepts

theorem inTime_interpretPacket {env : Env} {tx : CMPTransaction} (hblock : tx.block = height)
    (h : s.InTime height) : Keeps (InTime height) (interpretPacket env tx) s := by
  refine keeps_interpretPacket h fun parsed hparse _ => ?_
  have hparsed := parsedFrom_of_interpretTransaction hparse
  refine keeps_logicMath_of (fun _ => ?_) (fun _ => ?_) fun hapart => ?_
  · exact keeps_of_touches touches_logicMathTradeOffer fun _ hagree => h.of_agree hagree (by decide)
  · unfold logicMathAcceptOfferBTC
    refine survives_get (survives_rejectIf h fun _ => survives_rejectIf h fun _ => ?_)
    refine Keeps.bind (allTerms_dexAcceptCreate (fun offer amount _ => ?_) h) fun _ _ h' => h'
    unfold CMPAccept.InTime
    dsimp only
    rw [hparsed.block, hblock]
    omega
  · exact keeps_of_touches touches_logicMath fun _ hagree =>
      h.of_agree hagree fun hmem => hapart .accepts (by simp) hmem

theorem respects_inTime (nenv : NodeEnv) : Respects nenv (InTime height)
    (fun m => m.block = 0 ∨ (0 < height ∧ m.block = height ∧ m.block < 2 ^ 31)) where
  interpret m s hconfirmed hm h := by
    obtain ⟨hpos, rfl, hfits⟩ := hm.resolve_left hconfirmed
    refine inTime_interpretPacket ?_ h
    exact Int.bmod_eq_of_le (by omega) (by omega)
  payment _ _ _ _ _ _ s h := allTerms_dexPayment (fun _ _ hin => hin) h
  accepts _ s h := allTerms_eraseExpiredAccepts h
  vest _ _ s h :=
    keeps_of_touches touches_calculateAndUpdateDevmsc fun _ hagree => h.of_agree hagree (by decide)
  pending _ _ _ s h := keeps_of_touches touches_updateTallyMap fun _ hagree => h.of_agree hagree (by decide)
  watermark _ s h := h.congr rfl rfl

/-! ### Blocks -/

theorem wp_acceptDestroy_kept {Q : Int → State → Prop} {buyer seller : Address} {p : PropertyId}
    (h : ∀ rc s', s'.myAccepts = s.myAccepts → Q rc s') :
    wp (callRc (dexAcceptDestroy buyer seller p false)) Q (Dies False) s := by
  refine wp_callRc_of ?_
  unfold dexAcceptDestroy
  rw [wp_bind, wp_get]
  cases s.dexGetAccept seller p buyer with
  | none => exact h _ s rfl
  | some accept =>
    have hto : acceptReturnsTo (s.dexGetOffer seller p) accept ≠ .PENDING := by
      rcases acceptReturnsTo_cases (s := s) (p := p) seller accept with h | ⟨h, -⟩ <;> rw [h] <;> decide
    simp only [wp_bind, wp_ite, wp_modify, wp_pure, Bool.false_eq_true, false_imp_iff,
      not_false_eq_true, true_imp_iff, true_and]
    refine ⟨fun hpos => wp_move_dies (fun halt _ hdies => ?_) (by decide) hto hpos False.elim fun _ =>
      h _ _ rfl, fun _ => h _ s rfl⟩
    cases halt with
    | ret rc => exact absurd trivial hdies.1
    | thrown | abort | crash | hang => exact hdies

theorem unexpired_eraseExpiredAccepts {blockNow : Int} :
    wp (eraseExpiredAccepts blockNow) (fun _ s' => ∀ (key : Str) (accept : CMPAccept),
      s'.myAccepts[key]? = some accept → s.myAccepts[key]? = some accept ∧
        blockNow - accept.block < accept.blocktimelimit) (Dies False) s := by
  unfold eraseExpiredAccepts
  rw [wp_bind, wp_get]
  refine wp_mono (wp_forM (I := fun rest t => ∀ (key : Str) (accept : CMPAccept),
    t.myAccepts[key]? = some accept → s.myAccepts[key]? = some accept ∧
      (blockNow - accept.block < accept.blocktimelimit ∨ (key, accept) ∈ rest))
    (fun key accept hget => ⟨hget, .inr (mem_toList.mpr hget)⟩) ?_) ?_ fun _ _ h => h
  · rintro ⟨key, accept⟩ rest t ht
    -- an accept that is left when the loop has passed it is not expired
    have hnext : ∀ t' : State, (∀ key' accept', t'.myAccepts[key']? = some accept' →
        t.myAccepts[key']? = some accept' ∧
          ((key', accept') = (key, accept) → blockNow - accept.block < accept.blocktimelimit)) →
        ∀ (key' : Str) (accept' : CMPAccept), t'.myAccepts[key']? = some accept' →
          s.myAccepts[key']? = some accept' ∧
            (blockNow - accept'.block < accept'.blocktimelimit ∨ (key', accept') ∈ rest) := by
      intro t' hround key' accept' hget
      obtain ⟨hold, hopen⟩ := hround key' accept' hget
      obtain ⟨hstored, hpassed | hmem⟩ := ht key' accept' hold
      · exact ⟨hstored, .inl hpassed⟩
      · rcases List.mem_cons.mp hmem with hsame | hrest
        · refine ⟨hstored, .inl ?_⟩
          cases hsame
          exact hopen rfl
        · exact ⟨hstored, .inr hrest⟩
    unfold eraseExpiredAccept
    rw [wp_ite]
    refine ⟨fun hexpired => ?_, fun hopen => hnext t fun key' accept' hget => ⟨hget, fun _ =>
      Int.not_le.mp hopen⟩⟩
    cases parseAcceptKey key with
    | none => exact ⟨id, id⟩
    | some parts =>
      obtain ⟨seller, p, buyer⟩ := parts
      rw [wp_bind]
      refine wp_acceptDestroy_kept fun _ t' hsame => hnext _ fun key' accept' hget => ?_
      obtain ⟨hne, hget⟩ := getElem?_of_erase hget
      rw [hsame] at hget
      exact ⟨hget, fun hpair => absurd (Prod.mk.inj hpair).1.symm hne⟩
  · intro _ t ht key accept hget
    obtain ⟨hstored, hpassed | hmem⟩ := ht key accept hget
    · exact ⟨hstored, hpassed⟩
    · cases hmem

section Node

variable {n n' u : Node} {nenv : NodeEnv}

theorem inTime_connectBlock {b : BlockMessage} (h : n.core.InTime b.height) :
    NodeKeeps (InTime (b.height + 1)) (fun _ => True) (connectBlock nenv b) n := by
  unfold connectBlock NodeKeeps
  simp only [wp_bind, wp_modify]
  rw [wp_engine]
  refine wp_mono unexpired_eraseExpiredAccepts (fun _ s hs => ?_)
    fun halt _ hdies hlive => absurd hlive hdies.1
  have hin : s.InTime (b.height + 1) := by
    refine ⟨fun _ _ _ => trivial, fun key accept hget => ?_⟩
    obtain ⟨hstored, hopen⟩ := hs key accept hget
    have hbefore := h.accepts key accept hstored
    unfold CMPAccept.InTime at *
    omega
  have hkept : NodeKept (InTime (b.height + 1)) (fun _ => True) { n with
      latestBlock := b.height
      latestBlockHash := uint256S b.hash
      latestBlockTime := b.time
      core := s
      waterlineBlock := b.height } := ⟨hin, fun _ _ _ => trivial⟩
  refine wp_mono (hkept.engine (keeps_callRc ((respects_inTime nenv).vest _ _ _ hin)))
    (fun _ v hv => hv.congr rfl rfl) fun _ _ hv => hv

theorem inTime_block {b : BlockMessage} (hdue : n.Due height) (hb : b.height = height)
    (h : n.core.InTime height) (hdeliver : deliver nenv n (.block b) = some n') :
    n'.core.InTime (height + 1) := by
  subst hb
  refine (NodeKeeps.survive (P := fun _ => True) (m := (Message.block b).handle nenv) ?_ hdeliver).core
  change wp (omniOnblockconnected nenv b) _ _ n
  unfold omniOnblockconnected
  simp only [wp_bind, wp_get, wp_ite, wp_modify, wp_pure]
  refine ⟨fun hearly => ?_, fun _ => ?_⟩
  · have := hdue.next
    omega
  have hconnected : NodeKeeps (InTime (b.height + 1)) (fun _ => True) (onblockconnectedP nenv b) n := by
    unfold onblockconnectedP persistInMemoryStateEx NodeKeeps
    simp only [wp_bind, wp_get, wp_ite, wp_modify, wp_pure]
    refine wp_mono (inTime_connectBlock h) (fun _ u hu => ?_) fun _ _ hu => hu
    exact ⟨fun _ => ⟨(respects_inTime nenv).watermark _ _ hu.core, hu.parked⟩, fun _ => hu⟩
  refine wp_mono (wp_and (frame_onblockconnectedP b) hconnected) ?_ fun _ u hu => hu.2
  rintro _ u ⟨hframe, hu⟩
  have hnone : ∀ h, u.localBlockInfo.getBlockInfo h = none := by
    rw [← hframe]
    exact hdue.blocks
  unfold replayParked
  simp only [wp_bind, wp_get, hnone]
  exact ⟨Bool.noConfusion, fun _ => hu⟩

/-! ### Messages block by block -/

/-- The transactions and payments of a block come after the block before it, and before the block
itself.  Unconfirmed transactions may come at any time. -/
def BlockByBlock : (height : Int) → List Message → Prop
  | _, [] => True
  | height, .tx m :: rest => (m.block = 0 ∨ m.block = height) ∧ BlockByBlock height rest
  | height, .payment m :: rest => m.block = height ∧ BlockByBlock height rest
  | height, .block b :: rest => b.height = height ∧ BlockByBlock (height + 1) rest

instance decidableBlockByBlock : ∀ height messages, Decidable (BlockByBlock height messages)
  | _, [] => .isTrue trivial
  | height, .tx _ :: rest =>
      have := decidableBlockByBlock height rest
      inferInstanceAs (Decidable (_ ∧ _))
  | height, .payment _ :: rest =>
      have := decidableBlockByBlock height rest
      inferInstanceAs (Decidable (_ ∧ _))
  | height, .block _ :: rest =>
      have := decidableBlockByBlock (height + 1) rest
      inferInstanceAs (Decidable (_ ∧ _))

/-- **All accepts are in time**, whenever something of a block is delivered. -/
theorem inTime_deliverAll {before after : List Message} (hdue : n.Due height)
    (h : n.core.InTime height) (horder : BlockByBlock height (before ++ after))
    (hints : ∀ m, .tx m ∈ before → m.block < 2 ^ 31) (hrun : deliverAll nenv n before = some n') :
    ∃ height', n'.core.InTime height' ∧ BlockByBlock height' after := by
  induction before generalizing n height with
  | nil =>
    cases hrun
    exact ⟨height, h, horder⟩
  | cons message rest ih =>
    rw [deliverAll_cons] at hrun
    obtain ⟨u, hdeliver, hrest⟩ := Option.bind_eq_some_iff.mp hrun
    have hints' : ∀ m, .tx m ∈ rest → m.block < 2 ^ 31 := fun m hm =>
      hints m (List.mem_cons_of_mem _ hm)
    have hkept : NodeKept (InTime height)
        (fun m => m.block = 0 ∨ (0 < height ∧ m.block = height ∧ m.block < 2 ^ 31)) n := by
      refine ⟨h, fun i m hm => ?_⟩
      rw [hdue.txs] at hm
      cases hm
    cases message with
    | tx m =>
      have hm := hints m List.mem_cons_self
      refine ih (hdue.transaction horder.1 hdeliver) ?_ horder.2 hints' hrest
      refine (hkept.deliver (respects_inTime nenv) (fun m' hsame => ?_) hdeliver).core
      cases hsame
      exact horder.1.imp_right fun hblock => ⟨hdue.pos, hblock, hm⟩
    | payment m =>
      refine ih (hdue.payment hdeliver) ?_ horder.2 hints' hrest
      exact (hkept.deliver (respects_inTime nenv) (fun m' hsame => by cases hsame) hdeliver).core
    | block b =>
      exact ih (hdue.block horder.1 hdeliver) (inTime_block hdue horder.1 h hdeliver) horder.2 hints'
        hrest

theorem exists_paidAccept {env : Env} {txid : Hash} {vout : Nat} {seller buyer : Address}
    {amount block : Int} {s' : State}
    (hok : callRc (Prod.fst <$> dexPayment env txid vout seller buyer amount block) s = .ok 0 s') :
    ∃ p accept, s.paidAccept seller buyer = some (p, accept) ∧ s.dexGetAccept seller p buyer = some accept := by
  unfold paidAccept
  cases hmain : s.dexGetAccept seller OMNI_PROPERTY_MSC buyer with
  | some accept => exact ⟨_, accept, rfl, hmain⟩
  | none =>
    cases htest : s.dexGetAccept seller OMNI_PROPERTY_TMSC buyer with
    | some accept => exact ⟨_, accept, rfl, htest⟩
    | none =>
      have hnone : wp (callRc (Prod.fst <$> dexPayment env txid vout seller buyer amount block))
          (fun rc _ => rc ≠ 0) (fun _ _ => True) s := by
        refine wp_callRc_of ?_
        rw [map_eq_pure_bind, wp_bind]
        unfold dexPayment
        rw [wp_bind, wp_get, hmain, htest]
        exact (by decide : DEX_ERROR_PAYMENT - 1 ≠ 0)
      exact absurd rfl ((wp_ok hok).mp hnone)

/-- **The expiry of accepts and the payment window.**  The expiry at a height removes exactly the
accepts whose window has passed, returns what each of them holds to its offer or to the balance of the
seller, and changes nothing else; it comes to its end where the tokens of the accepts are reserved.  If
the messages come block by block, a payment returns 0 only for an accept that was made at most as many
blocks before as the window has. -/
theorem accepts_expire (nenv : NodeEnv) :
    (∀ (s : State) (entries : List AcceptEntry) (blockNow : Int), AcceptList entries s →
      (∀ s', eraseExpiredAccepts blockNow s = .ok () s' → Expiry entries blockNow s s') ∧
      (Backed entries s → ∃ s', eraseExpiredAccepts blockNow s = .ok () s')) ∧
    (∀ (n u : Node) (height : Int) (before after : List Message) (m : PaymentMessage) (s' : State),
      n.Due height → n.core.InTime height →
      BlockByBlock height (before ++ .payment m :: after) →
      (∀ m', .tx m' ∈ before → m'.block < 2 ^ 31) → deliverAll nenv n before = some u →
      callRc (Prod.fst <$> dexPayment nenv.env (uint256S m.txHash) (m.idx % 2 ^ 32).toNat m.sender
        m.reference m.amount (toInt32 m.block)) u.core = .ok 0 s' →
      ∃ p accept, u.core.paidAccept m.sender m.reference = some (p, accept) ∧
        0 ≤ m.block - accept.block ∧ m.block - accept.block ≤ accept.blocktimelimit) := by
  refine ⟨fun s entries blockNow hlist => ⟨fun s' hok => ?_, fun hbacked => ?_⟩, ?_⟩
  · exact (wp_ok hok).mp (wp_eraseExpiredAccepts hlist)
  · obtain ⟨_, s', hok, -⟩ := exists_of_wp (wp_mono (wp_eraseExpiredAccepts hlist) (fun _ _ h => h)
      fun _ _ hdies => hdies.2 hbacked)
    exact ⟨s', hok⟩
  · intro n u height before after m s' hdue hstart horder hints hrun hok
    obtain ⟨height', hin, hafter⟩ := inTime_deliverAll hdue hstart horder hints hrun
    obtain ⟨p, accept, hpaid, hget⟩ := exists_paidAccept hok
    refine ⟨p, accept, hpaid, ?_⟩
    rw [hafter.1]
    exact hin.accepts _ accept hget

end Node

/-! ### The last block of a window -/

/-- Forty tokens of an offer with a window of two blocks. -/
def windowEntry : AcceptEntry where
  seller := "exodus".toList
  buyer := "buyer".toList
  property := 1
  accept := {
    acceptAmountOriginal := 40
    acceptAmountRemaining := 40
    blocktimelimit := 2
    property := 1
    offerAmountOriginal := 100
    btcDesiredOriginal := 100
    offerTxid := 50001000
    block := 50001 }

def windowMessages : List Message := [
  .block (sampleBlock 50000),
  .tx (packetMessage 50001 0 1500000000 "exodus".toList [] (createPayloadDExSell 1 100 100 2 0 1)),
  .tx (packetMessage 50001 1 1500000000 "buyer".toList "exodus".toList (createPayloadDExAccept 1 40)),
  .block (sampleBlock 50001),
  .block (sampleBlock 50002)]

def windowPayment : PaymentMessage where
  sender := "exodus".toList
  reference := "buyer".toList
  txHash := uint256ToString 7
  amount := 15
  block := 50003
  idx := 0

/-- The accept can be paid in the second block after its own, and is finalized with that block. -/
theorem accepts_expire_lastBlock :
    ∃ u s' t, deliverAll sampleNodeEnv sampleNode windowMessages = some u ∧
      callRc (Prod.fst <$> dexPayment sampleEnv (uint256S (uint256ToString 7)) 0 "exodus".toList
        "buyer".toList 15 50003) u.core = .ok 0 s' ∧
      u.core.paidAccept "exodus".toList "buyer".toList = some (1, windowEntry.accept) ∧
      50003 - windowEntry.accept.block ≤ windowEntry.accept.blocktimelimit ∧
      eraseExpiredAccepts 50003 u.core = .ok () t ∧ t.myAccepts[windowEntry.key]? = none ∧
      t.money "exodus".toList 1 .SELLOFFER_RESERVE = 100 := by
  have hvalues : (deliverAll sampleNodeEnv sampleNode windowMessages).map (fun u =>
      (u.core.myAccepts.toList, u.core.paidAccept "exodus".toList "buyer".toList,
        u.core.money "exodus".toList 1 .SELLOFFER_RESERVE)) =
      some ([(windowEntry.key, windowEntry.accept)], some (1, windowEntry.accept), 60) := by
    decide +kernel
  have hresults : (deliverAll sampleNodeEnv sampleNode windowMessages).map (fun u =>
      ((u.core.dexGetOffer "exodus".toList 1).map CMPOffer.txid,
        okResult (callRc (Prod.fst <$> dexPayment sampleEnv (uint256S (uint256ToString 7)) 0
          "exodus".toList "buyer".toList 15 50003)) (fun _ => ()) u.core,
        okResult (eraseExpiredAccepts 50003) (fun _ => ()) u.core)) =
      some (some 50001000, some (0, ()), some ((), ())) := by decide +kernel
  obtain ⟨u, hrun, hvalue⟩ := Option.map_eq_some_iff.mp hvalues
  obtain ⟨u', hrun', hresult⟩ := Option.map_eq_some_iff.mp hresults
  cases hrun.symm.trans hrun'
  rw [Prod.mk.injEq, Prod.mk.injEq] at hvalue hresult
  obtain ⟨hstored, hpaid, hmoney⟩ := hvalue
  obtain ⟨hoffer, hpayment, herase⟩ := hresult
  obtain ⟨s', hpay, -⟩ := exists_of_okResult hpayment
  obtain ⟨t, hexpire, -⟩ := exists_of_okResult herase
  have hlist : AcceptList [windowEntry] u.core := by
    refine ⟨hstored, fun e he => ?_⟩
    cases List.mem_singleton.mp he
    exact ⟨by decide, by decide, by decide, by decide⟩
  have hints : ∀ m, .tx m ∈ windowMessages → m.block < 2 ^ 31 := by
    intro m hm
    simp only [windowMessages, List.mem_cons, List.not_mem_nil, reduceCtorEq, Message.tx.injEq, false_or,
      or_false] at hm
    rcases hm with rfl | rfl <;> decide
  have hend := ((accepts_expire sampleNodeEnv).1 u.core [windowEntry] 50003 hlist).1 t hexpire
  obtain ⟨p, accept, hpaid', -, hwindow⟩ := (accepts_expire sampleNodeEnv).2 sampleNode u 50000
    windowMessages [] windowPayment s' due_sampleNode
    ⟨fun _ _ _ => trivial, fun _ _ h => by cases h⟩ (by decide +kernel) hints hrun hpay
  cases hpaid.symm.trans hpaid'
  refine ⟨u, s', t, hrun, hpay, hpaid, hwindow, hexpire, ?_, ?_⟩
  · rw [hend.accepts]
    exact if_pos (by decide)
  · rw [hend.money, hmoney]
    have hexpired : windowEntry.expired 50003 = true := rfl
    have hreturns : windowEntry.returnsTo u.core = .SELLOFFER_RESERVE := if_pos hoffer
    rw [List.filter_singleton, hexpired, cond_true, List.map_singleton, List.sum_singleton]
    unfold AcceptEntry.movement
    rw [hreturns]
    rfl

end HcOmni
