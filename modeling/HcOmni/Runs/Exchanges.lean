import HcOmni.Ledger.Base
import HcOmni.Runs.Invariant

/-!
# The reserves of the exchanges

What the exchanges hold back in the tallies is exactly what their books list: the remaining
amounts of the orders of the token exchange, and of the accepts of the classic one.
-/

namespace HcOmni

open Std MapSum Program CMPTally State

variable {c : Ctx} {env : Env} {s s' s₀ : State} {events : List Event}

/-! ### The token exchange -/

theorem Outcome.reserveSlack_eq (h : Outcome c s s') (a : Address) (p : PropertyId) :
    s'.reserveSlack a p = s.reserveSlack a p := by
  cases h with
  | freezes => rfl
  | @steps _ aux hvested hsteps =>
    induction hsteps with
    | refl => rfl
    | tail _ hstep ih => exact (hstep.reserveSlack_eq a p).trans ih

/-- **The book of the token exchange.**  In every state that a run reaches, the reserve of an
address is what its orders still offer; every order has something left, lies under its own
property and price, and is the only one of its block and index there. -/
theorem run_metaDEx_reserve (hstart : Genesis s₀)
    (hreserve : ∀ a p, s₀.money a p .METADEX_RESERVE = 0) (hrun : run env s₀ events = some s) :
    (∀ a p, s.money a p .METADEX_RESERVE = s.bookSum a p) ∧
      (∀ (prop : PropertyId) (price : ℚ) (key : OrderKey) (order : CMPMetaDEx),
        (s.mdSet prop price)[key]? = some order →
          0 < order.amountRemaining ∧ order.amountRemaining ≤ order.amountForsale ∧
            0 < order.amountDesired ∧ order.property = prop ∧ order.unitPrice = price) ∧
      ∀ (prop : PropertyId) (price : ℚ) (key key' : OrderKey) (order order' : CMPMetaDEx),
        (s.mdSet prop price)[key]? = some order → (s.mdSet prop price)[key']? = some order' →
          order.block = order'.block → order.idx = order'.idx → key = key' ∧ order = order' := by
  have hsuits : RunSuits .any env s₀ events := runSuits_any
  have hsound : Sound .any s :=
    (hsuits.sound hstart (List.append_nil events).symm hrun).sound 0 False.elim 0
  refine ⟨?_, ?_, ?_⟩
  · -- the difference between tally and book is the same in every state, so it is still zero
    have hslack : ∀ a p, s.reserveSlack a p = 0 := by
      refine hsuits.induction (I := fun s => ∀ a p, s.reserveSlack a p = 0) hstart ?_ ?_ hrun
      · intro a p
        unfold reserveSlack
        rw [hstart.bookSum_eq, hreserve]
        rfl
      · intro _ _ u u' _ hu houtcome a p
        exact (houtcome.reserveSlack_eq a p).trans (hu a p)
    exact fun a p => Int.sub_eq_zero.mp (hslack a p)
  · intro prop price key order hstored
    have hok := hsound.book prop price key order hstored
    exact ⟨hok.remaining_pos, hok.remaining_le, hok.desired_pos, hok.property_eq, hok.price_eq⟩
  · intro prop price key key' order order' hstored hstored' hblock hidx
    have hkey : key = key' := by
      rw [← (hsound.book prop price key order hstored).key_eq,
        ← (hsound.book prop price key' order' hstored').key_eq, CMPMetaDEx.key, CMPMetaDEx.key,
        hblock, hidx]
    subst hkey
    exact ⟨rfl, Option.some.inj (hstored.symm.trans hstored')⟩

/-- Developer tokens vest and are offered for a new property, whose issuer takes half of them. -/
def tradedEvents : List Event := [
  .vestDevmsc 1500000000 50000,
  samplePacket 50000 0 "issuer".toList []
    (createPayloadIssuanceFixed 1 1 0 [] [] "token".toList [] [] 100),
  samplePacket 50000 1 "exodus".toList [] (createPayloadMetaDExTrade 1 20 3 10),
  samplePacket 50001 0 "issuer".toList [] (createPayloadMetaDExTrade 3 5 1 10)]

theorem run_metaDEx_reserve_traded :
    ∃ s, run sampleEnv (State.empty sampleEnv mainConsensusParams) tradedEvents = some s ∧
      s.money "exodus".toList 1 .METADEX_RESERVE = 10 ∧ s.bookSum "exodus".toList 1 = 10 ∧
      s.money "issuer".toList 1 .BALANCE = 10 := by
  obtain ⟨s, hrun⟩ := Option.isSome_iff_exists.mp (by decide +kernel :
    (run sampleEnv (State.empty sampleEnv mainConsensusParams) tradedEvents).isSome = true)
  have hmoney : (run sampleEnv (State.empty sampleEnv mainConsensusParams) tradedEvents).map
      (fun s => (s.money "exodus".toList 1 .METADEX_RESERVE, s.money "issuer".toList 1 .BALANCE)) =
      some (10, 10) := by decide +kernel
  rw [hrun, Option.map_some, Option.some.injEq, Prod.mk.injEq] at hmoney
  have hbook := run_metaDEx_reserve (genesis_empty _ _) (fun _ _ => rfl) hrun
  exact ⟨s, hrun, hmoney.1, (hbook.1 _ _).symm.trans hmoney.1, hmoney.2⟩

/-! ### The classic exchange -/

/-- What keeps the classic exchange in order: its keys, the sum of its accepts, and no reserve
without an offer. -/
structure State.DExOk (s : State) : Prop where
  accepts : s.AcceptsOk
  offers : s.OffersOk
  slack : ∀ a p, s.acceptSlack a p = 0

theorem State.DExOk.outcome (hclean : ∀ a, c.Addr a → CleanAddress a) (hfits : c.Fits)
    (hs : Sound c s) (hok : s.DExOk) (h : Outcome c s s') : s'.DExOk := by
  refine h.induction hs (fun aux => ?_) (fun t t' ht hok hstep => ?_) fun enabled frozen => ?_
  · exact ⟨hok.accepts.congr rfl rfl, hok.offers.of_tallies rfl rfl, hok.slack⟩
  · refine ⟨hok.accepts.step hclean hstep, hok.offers.step ht.range hstep, fun a p => ?_⟩
    rw [hstep.acceptSlack_eq hclean hfits hok.accepts]
    exact hok.slack a p
  · exact ⟨hok.accepts.congr rfl rfl, hok.offers.of_tallies rfl rfl, hok.slack⟩

theorem Genesis.dexOk (h : Genesis s)
    (hreserve : ∀ a p, s.money a p .ACCEPT_RESERVE = 0 ∧ s.money a p .SELLOFFER_RESERVE = 0) :
    s.DExOk where
  accepts := h.acceptsOk
  offers a p _ := (hreserve a p).2
  slack a p := by
    unfold acceptSlack
    rw [h.acceptSum_eq, (hreserve a p).1]
    rfl

/-- Addresses are clean and payments buy what they should. -/
def Ctx.exchange : Ctx where
  block := 0
  txid := 0
  Addr := CleanAddress
  Place _ _ := True
  Tracked := False
  Fits := True
  Vests := True
  Strict := False
  tracked_of_strict := id
  fits_of_strict := False.elim
  clean_of_strict := False.elim

/-- Developer tokens never vest. -/
def Ctx.unvested : Ctx := { Ctx.any with Vests := False }

theorem State.NoBase.outcome (hvests : ¬c.Vests) (hs : Sound c s) (hbase : s.NoBase)
    (h : Outcome c s s') : s'.NoBase := by
  refine h.induction hs (fun aux => ?_) (fun t t' _ ht hstep => ht.step hvests hstep)
    fun enabled frozen => ?_
  · exact hbase.congr (fun _ _ _ _ _ => rfl) (fun _ _ => rfl) rfl rfl rfl rfl rfl
  · exact hbase.congr (fun _ _ _ _ _ => rfl) (fun _ _ => rfl) rfl rfl rfl rfl rfl

theorem Genesis.noBase (h : Genesis s) (hempty : ∀ p, s.held p = 0) : s.NoBase where
  money a p t hp ht := by
    have hle := h.range.money_le_held a p ht
    rw [hempty p] at hle
    exact Int.le_antisymm hle (h.range a p t ht).1
  cached p _ := h.getCachedAmount_eq p
  main := by
    rw [h.counters.1]
    exact .inr (by decide)
  test := by
    rw [h.counters.2]
    exact .inr (by decide)
  crowds := by simp [h.crowds]
  offers := by simp [h.offers]
  accepts := h.accepts

/-- Developer tokens vest and are offered; a buyer accepts 40 of them and pays for 15. -/
def acceptedEvents : List Event := [
  .vestDevmsc 1500000000 50000,
  samplePacket 50000 0 "exodus".toList [] (createPayloadDExSell 1 100 100 10 0 1),
  samplePacket 50001 0 "buyer".toList "exodus".toList (createPayloadDExAccept 1 40),
  .payment 7 0 "exodus".toList "buyer".toList 15 50002]

theorem clean_acceptedEvents (tx : CMPTransaction) (hmem : Event.packet tx ∈ acceptedEvents) :
    CleanAddress tx.sender ∧ CleanAddress tx.receiver := by
  simp only [acceptedEvents, samplePacket, List.mem_cons, Event.packet.injEq, reduceCtorEq,
    List.not_mem_nil, or_false, false_or] at hmem
  rcases hmem with rfl | rfl <;> decide +kernel

theorem purchaseFits_acceptedEvents (before : List Event) (event : Event) (after : List Event)
    (t : State) (hsplit : acceptedEvents = before ++ event :: after)
    (_ : run sampleEnv (State.empty sampleEnv mainConsensusParams) before = some t) :
    event.PurchaseFits sampleEnv t := by
  have hmem : event ∈ acceptedEvents := by simp [hsplit]
  simp only [acceptedEvents, samplePacket, List.mem_cons, List.not_mem_nil, or_false] at hmem
  rcases hmem with rfl | rfl | rfl | rfl
  · trivial
  · trivial
  · trivial
  · intro _ p accept _
    change (0 : Int) ≤ 15
    decide

end HcOmni
