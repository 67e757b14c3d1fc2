import HcOmni.Runs.Crowdsales

/-!
# Sends to the issuer of a crowdsale

A purchase moves the tokens first and then calculates what it creates.  If it creates exactly the last
token that fits, the crowdsale stays open, and the next purchase divides by what is left: nothing.
Without such a purchase there is always something left, and a send comes to its end.
-/

namespace HcOmni

open Std MapSum Program CMPTally State

variable {c : Ctx} {env : Env} {s s₀ : State} {tx parsed : CMPTransaction} {events : List Event}

/-! ### One send -/

/-- The tokens have changed hands. -/
abbrev State.sent (s : State) (tx : CMPTransaction) : State :=
  s.move tx.property tx.nValue tx.sender .BALANCE tx.receiver .BALANCE

/-- The purchase of a send can come to its end: the time of its block is not negative, the node knows
the block, and if fees have been cached for the property that is sold, somebody receives them. -/
structure Completable (env : Env) (s : State) (tx : CMPTransaction) : Prop where
  time : 0 ≤ tx.blockTime
  chain : env.chainActive tx.block ≠ none
  fees : ∀ crowd : CMPCrowd, s.myCrowds[tx.receiver]? = some crowd →
    0 < s.getCachedAmount crowd.propertyId → (s.sent tx).HasFeeOwner crowd.propertyId

theorem wp_interpretPacket_of_send {Q : Int → State → Prop} {E : Halt → State → Prop}
    (hparse : tx.interpretTransaction = some parsed) (htype : parsed.type = MSC_TYPE_SIMPLE_SEND)
    (hret : ∀ rc, E (.ret rc) s)
    (h : s.isAddressFrozen parsed.sender parsed.property = false →
      wp (logicMathSimpleSend env parsed) Q E s) : wp (interpretPacket env tx) Q E s := by
  have hlogic : logicMath env parsed = logicMathSimpleSend env parsed := by
    unfold logicMath
    rw [if_pos htype]
  unfold interpretPacket
  cases hrpc : tx.rpcOnly with
  | true => exact hret _
  | false =>
    rw [hparse, rejectIf_false, pure_bind]
    have hdecode : decodeAgreement env parsed = pure () := by
      unfold decodeAgreement
      rw [htype]
      rfl
    simp only
    rw [hdecode, pure_bind, wp_bind, wp_get]
    cases hfree : s.isAddressFrozen parsed.sender parsed.property with
    | true => exact hret _
    | false =>
      rw [rejectIf_false, pure_bind, hlogic]
      exact h hfree

section Send

variable (hs : Sound c s) (hsuits : Suits c env s (.packet tx)) (htracks : c.Tracks s)
  (hkept : s.CrowdsKept True) (hparse : tx.interpretTransaction = some parsed)
  (htype : parsed.type = MSC_TYPE_SIMPLE_SEND) (hexact : (Event.packet tx).exactPurchase s = false)

include hs hsuits htracks hkept hparse htype hexact

theorem wp_send {E : Halt → State → Prop} (hret : ∀ rc, E (.ret rc) s)
    (htime : parsed.blockTime < 0 → E (.abort .other) (s.sent parsed))
    (hchain : env.chainActive parsed.block = none → ∀ s', E .crash s')
    (hfees : ∀ crowd : CMPCrowd, s.myCrowds[parsed.receiver]? = some crowd →
      0 < s.getCachedAmount crowd.propertyId → ¬(s.sent parsed).HasFeeOwner crowd.propertyId →
        ∀ s', E (.abort .other) s') :
    wp (interpretPacket env tx) (fun _ _ => True) E s := by
  have hnot : s.exactPurchase parsed = false := by
    simpa [Event.exactPurchase, hparse, State.buys, htype] using hexact
  have hsent : (s.sent parsed).CrowdsKept True := hkept.congr rfl rfl rfl
  have hcached : ∀ p, (s.sent parsed).getCachedAmount p = s.getCachedAmount p :=
    getCachedAmount_congr rfl
  refine wp_interpretPacket_of_send hparse htype hret fun hfree => ?_
  refine wp_mono (wp_logicMathSimpleSend (hsuits.packetOk hs hparse hfree) htracks hkept hret
    (fun _ => hnot) ⟨fun _ => hsent, fun hnever => absurd trivial hnever, htime, hchain, ?_⟩)
    (fun _ _ _ => trivial) fun _ _ hE => hE
  intro crowd hcrowd hpos
  rw [hcached] at hpos
  exact hfees crowd hcrowd hpos

theorem send_not_thrown :
    wp (interpretPacket env tx) (fun _ _ => True) (fun e _ => e ≠ .thrown) s := by
  have habort : Halt.abort .other ≠ .thrown := by decide
  have hcrash : Halt.crash ≠ .thrown := by decide
  exact wp_send hs hsuits htracks hkept hparse htype hexact (fun _ => Halt.noConfusion)
    (fun _ => habort) (fun _ _ => hcrash) fun _ _ _ _ _ => habort

theorem send_returns (hcompletable : Completable env s parsed) : Returns (interpretPacket env tx) s :=
  wp_send hs hsuits htracks hkept hparse htype hexact (fun rc => ⟨rc, rfl⟩)
    (fun hneg => absurd hcompletable.time (by omega))
    (fun hnone => absurd hnone hcompletable.chain)
    fun crowd hcrowd hcached hnone => absurd (hcompletable.fees crowd hcrowd hcached) hnone

end Send

/-! ### Runs -/

/-- **Crowdsales below the maximum.**  If no purchase of the run creates exactly the last token that
fits, there is less of the property of every active crowdsale than fits `int64_t`.  A send that follows
does not divide by zero, and comes back with a result or an error code. -/
theorem run_crowdsales_below (hstart : Genesis s₀) (htxids : (events.filterMap Event.txid?).Nodup)
    (hheights : (events.filterMap Event.height?).Pairwise (· ≤ ·))
    (hexact : ∀ before event after t, events = before ++ event :: after →
      run env s₀ before = some t → event.exactPurchase t = false)
    (hrun : run env s₀ events = some s) (hspace : ¬s.Overrun) :
    (∀ (a : Address) (crowd : CMPCrowd), s.myCrowds[a]? = some crowd →
      s.getTotalTokens crowd.propertyId < MAX_INT_8_BYTES) ∧
    ∀ tx parsed, ((events ++ [Event.packet tx]).filterMap Event.txid?).Nodup →
      ((events ++ [Event.packet tx]).filterMap Event.height?).Pairwise (· ≤ ·) →
      tx.interpretTransaction = some parsed → parsed.type = MSC_TYPE_SIMPLE_SEND →
      (Event.packet tx).exactPurchase s = false →
      (∀ s', interpretPacket env tx s ≠ .error .thrown s') ∧
        (Completable env s parsed → Returns (interpretPacket env tx) s) := by
  have hkept : s.CrowdsKept True := run_crowdsKept hstart htxids hheights (fun _ => hexact) hrun
  constructor
  · intro a crowd hget
    obtain ⟨top, hsound⟩ := exists_sound_tracked hstart htxids hheights hrun
    rw [(hsound.crowd_created ⟨trivial, hspace⟩ hget).2.2]
    exact (hkept hspace a crowd hget).below trivial
  · intro tx parsed htxids' hheights' hparse htype hnot
    have hsuits' : RunSuits .tracked env s₀ (events ++ [Event.packet tx]) :=
      runSuits_tracked htxids' hheights'
    obtain ⟨block, txid, hsound, hsuits⟩ := hsuits'.next hstart rfl hrun
    have htracks : (Ctx.tracked.at block txid).Tracks s := ⟨trivial, hspace⟩
    refine ⟨fun s' hthrown => ?_, send_returns hsound hsuits htracks hkept hparse htype hnot⟩
    have hnever := send_not_thrown hsound hsuits htracks hkept hparse htype hnot
    exact (wp_error hthrown).mp hnever rfl

/-- A purchase for one token of property 1. -/
def purchase (block : Nat) : CMPTransaction where
  txid := 1000 * block
  block := block
  blockTime := 1500000000
  txIdx := 0
  txFeePaid := 0
  blockHash := block
  payload := createPayloadSimpleSend 1 100000000
  sender := "exodus".toList
  receiver := "issuer".toList

/-- A crowdsale without bonuses that creates so many tokens for one of property 1. -/
def saleEvents (amountPerUnit : UInt64) : List Event := [
  .vestDevmsc 1500000000 50000,
  samplePacket 50000 0 "issuer".toList [] (createPayloadIssuanceVariable 1 1 0 [] [] "token".toList []
    [] 1 amountPerUnit 1600000000 0 0),
  .packet (purchase 50001)]

/-- A node that knows every block. -/
def knowingEnv : Env := { fundedEnv with chainActive := fun height => some height.toNat }

/-- There is one more than half of all tokens, and the next purchase closes the crowdsale. -/
theorem run_crowdsales_below_closed :
    ∃ s, run knowingEnv (State.empty knowingEnv mainConsensusParams)
        (saleEvents 5000000000000000000) = some s ∧
      s.getTotalTokens 3 < MAX_INT_8_BYTES ∧
      Returns (interpretPacket knowingEnv (purchase 50002)) s := by
  have hvalues : (run knowingEnv (State.empty knowingEnv mainConsensusParams)
      (saleEvents 5000000000000000000)).map (fun s => ((s.myCrowds["issuer".toList]?).map fun crowd =>
        crowd.propertyId, s.mySps.nextSpid, s.getCachedAmount 3,
        (Event.packet (purchase 50002)).exactPurchase s)) = some (some 3, 4, 0, false) := by
    decide +kernel
  obtain ⟨s, hrun, hs⟩ := Option.map_eq_some_iff.mp hvalues
  simp only [Prod.mk.injEq, Option.map_eq_some_iff] at hs
  obtain ⟨⟨crowd, hcrowd, hid⟩, hcounter, hcached, hnot⟩ := hs
  have hspace : ¬s.Overrun := not_overrun_of_eq hcounter (by decide)
  have hall : runAll knowingEnv (fun t event => !event.exactPurchase t)
      (State.empty knowingEnv mainConsensusParams) (saleEvents 5000000000000000000) = true := by
    decide +kernel
  obtain ⟨parsed, hparse, hparsed⟩ := Option.map_eq_some_iff.mp (by decide +kernel :
    (purchase 50002).interpretTransaction.map (fun parsed => (parsed.type, parsed.blockTime,
      parsed.block, parsed.receiver)) =
      some (MSC_TYPE_SIMPLE_SEND, 1500000000, 50002, "issuer".toList))
  simp only [Prod.mk.injEq] at hparsed
  obtain ⟨htype, htime, hblock, hreceiver⟩ := hparsed
  have hcompletable : Completable knowingEnv s parsed := by
    refine ⟨by rw [htime]; decide, (fun h => by cases h), fun found hfound hpos => ?_⟩
    rw [hreceiver, hcrowd] at hfound
    cases hfound
    rw [hid, hcached] at hpos
    exact absurd hpos (by decide)
  obtain ⟨hbelow, hsend⟩ := run_crowdsales_below (genesis_empty _ _) (by decide +kernel)
    (by decide +kernel) (fun before event after t hsplit hbefore => by
      exact (Bool.not_eq_true' _).mp (of_runAll (hsplit ▸ hall) hbefore)) hrun hspace
  refine ⟨s, hrun, hid ▸ hbelow _ crowd hcrowd, ?_⟩
  exact (hsend (purchase 50002) parsed (by decide +kernel) (by decide +kernel) hparse htype hnot).2
    hcompletable

/-- **A purchase divides by zero.**  The first one creates all tokens there can be, and the crowdsale
stays open.  The second one has handed over its tokens when the calculation throws. -/
theorem exists_purchase_thrown :
    ∃ s s' crowd, run knowingEnv (State.empty knowingEnv mainConsensusParams)
        (saleEvents 9223372036854775807) = some s ∧
      s.myCrowds["issuer".toList]? = some crowd ∧
      s.getTotalTokens crowd.propertyId = MAX_INT_8_BYTES ∧
      interpretPacket knowingEnv (purchase 50002) s = .error .thrown s' ∧
      s.money "issuer".toList 1 .BALANCE = 100000000 ∧
      s'.money "issuer".toList 1 .BALANCE = 200000000 := by
  have hvalues : (run knowingEnv (State.empty knowingEnv mainConsensusParams)
      (saleEvents 9223372036854775807)).map (fun s => ((s.myCrowds["issuer".toList]?).map fun crowd =>
        s.getTotalTokens crowd.propertyId, s.money "issuer".toList 1 .BALANCE,
        haltResult (interpretPacket knowingEnv (purchase 50002))
          (fun s' => s'.money "issuer".toList 1 .BALANCE) s)) =
      some (some MAX_INT_8_BYTES, 100000000, some (.thrown, 200000000)) := by decide +kernel
  obtain ⟨s, hrun, hs⟩ := Option.map_eq_some_iff.mp hvalues
  simp only [Prod.mk.injEq, Option.map_eq_some_iff] at hs
  obtain ⟨⟨crowd, hcrowd, htotal⟩, hbefore, hthrown⟩ := hs
  obtain ⟨s', hexec, hafter⟩ := exists_of_haltResult hthrown
  exact ⟨s, s', crowd, hrun, hcrowd, htotal, hexec, hbefore, hafter⟩

end HcOmni
