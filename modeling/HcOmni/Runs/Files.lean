import HcOmni.Conformance.Basic
import HcOmni.Persist.Records
import HcOmni.Runs.Invariant

/-!
# State files of reachable states

In a state that a run reaches, offers and accepts are stored under the keys of their properties.  Yet
the file of the accepts is not read back as it was written: the writer puts the property into the
place of the buyer.
-/

namespace HcOmni

open Std MapSum Program CMPTally State Text

variable {c : Ctx} {env : Env} {s s' s₀ t : State} {events : List Event} {fenv : FileEnv}

/-! ### Keys along a run -/

/-- Offers and accepts are found under keys with their own property, and no participation in a
crowdsale is empty. -/
structure State.Keyed (s : State) : Prop where
  offers : ∀ key offer, s.myOffers[key]? = some offer →
    offer.subaction = 0 ∧ ∃ a, key = sellofferKey a offer.property
  accepts : ∀ key accept, s.myAccepts[key]? = some accept →
    ∃ seller buyer, key = acceptKey seller buyer accept.property
  crowds : ∀ (a : Address) (crowd : CMPCrowd), s.myCrowds[a]? = some crowd →
    ∀ (txid : Hash) (values : List Int), crowd.txFundraiserData[txid]? = some values → values ≠ []

namespace State.Keyed

theorem congr (hs : s.Keyed) (hoffers : s'.myOffers = s.myOffers)
    (haccepts : s'.myAccepts = s.myAccepts) (hcrowds : s'.myCrowds = s.myCrowds) : s'.Keyed := by
  constructor
  · rw [hoffers]
    exact hs.offers
  · rw [haccepts]
    exact hs.accepts
  · rw [hcrowds]
    exact hs.crowds

theorem insert_accept {key : Str} {accept accept' : CMPAccept} (hs : s.Keyed)
    (hget : s.myAccepts[key]? = some accept) (hsame : accept'.property = accept.property) :
    ∀ key' accept'', (s.myAccepts.insert key accept')[key']? = some accept'' →
      ∃ seller buyer, key' = acceptKey seller buyer accept''.property := by
  intro key' accept'' hget'
  rcases getElem?_of_insert hget' with ⟨rfl, rfl⟩ | ⟨-, hold⟩
  · rw [hsame]
    exact hs.accepts key accept hget
  · exact hs.accepts key' accept'' hold

theorem erase_accept {key : Str} (hs : s.Keyed) :
    ∀ key' accept, (s.myAccepts.erase key)[key']? = some accept →
      ∃ seller buyer, key' = acceptKey seller buyer accept.property :=
  fun key' accept hget => hs.accepts key' accept (getElem?_of_erase hget).2

/-- **Every step keeps the keys.** -/
theorem step (hs : s.Keyed) (h : Step c s s') : s'.Keyed := by
  cases h with
  | feePaid _ _ _ _ _ hfee => exact hs.congr hfee.myOffers_eq hfee.myAccepts_eq hfee.myCrowds_eq
  | distribute _ hfee => exact hs.congr hfee.myOffers_eq hfee.myAccepts_eq hfee.myCrowds_eq
  | orderFill hfee => exact hs.congr hfee.myOffers_eq hfee.myAccepts_eq hfee.myCrowds_eq
  | offerPut a p offer _ hown =>
    refine ⟨fun key offer' hget => ?_, hs.accepts, hs.crowds⟩
    rcases getElem?_of_insert hget with ⟨rfl, rfl⟩ | ⟨-, hold⟩
    · exact ⟨hown.2, a, by rw [hown.1]⟩
    · exact hs.offers key offer' hold
  | offerErase =>
    exact ⟨fun key offer' hget => hs.offers key offer' (getElem?_of_erase hget).2, hs.accepts,
      hs.crowds⟩
  | @acceptOpen buyer seller p accept _ hoffer _ _ hown =>
    refine ⟨hs.offers, fun key accept' hget => ?_, hs.crowds⟩
    rcases getElem?_of_insert hget with ⟨rfl, rfl⟩ | ⟨-, hold⟩
    · obtain ⟨offer, hoffer⟩ := Option.isSome_iff_exists.mp hoffer
      obtain ⟨-, a, hkey⟩ := hs.offers _ offer hoffer
      obtain ⟨-, hp⟩ := sellofferKey_injective hkey
      exact ⟨seller, buyer, by rw [hown offer hoffer, ← hp]⟩
    · exact hs.accepts key accept' hold
  | acceptPay hget => exact ⟨hs.offers, hs.insert_accept hget rfl, hs.crowds⟩
  | acceptGrow _ hget => exact ⟨hs.offers, hs.insert_accept hget rfl, hs.crowds⟩
  | acceptPaid | acceptEnd | acceptDrop => exact ⟨hs.offers, hs.erase_accept, hs.crowds⟩
  | createCrowdsale _ _ _ _ _ _ _ _ _ hcrowd =>
    refine ⟨hs.offers, hs.accepts, fun a crowd hget => ?_⟩
    rcases getElem?_of_insert hget with ⟨rfl, rfl⟩ | ⟨-, hold⟩
    · simp [hcrowd.2.2]
    · exact hs.crowds a crowd hold
  | participate hcrowd =>
    refine ⟨hs.offers, hs.accepts, fun a crowd hget => ?_⟩
    rcases getElem?_of_insert hget with ⟨rfl, rfl⟩ | ⟨-, hold⟩
    · intro txid values hvalues
      unfold CMPCrowd.invest at hvalues
      rw [ExtTreeMap.getElem?_insertIfNew] at hvalues
      split at hvalues
      · cases hvalues
        exact List.cons_ne_nil _ _
      · exact hs.crowds _ _ hcrowd txid values hvalues
    · exact hs.crowds a crowd hold
  | closeCrowdsale =>
    exact ⟨hs.offers, hs.accepts, fun a crowd hget => hs.crowds a crowd (getElem?_of_erase hget).2⟩
  | _ => exact hs.congr rfl rfl rfl

theorem outcome (hs : Sound c s) (hkeyed : s.Keyed) (h : Outcome c s s') : s'.Keyed := by
  refine h.induction hs (fun aux => ?_) (fun t t' _ ht hstep => ht.step hstep) fun _ _ => ?_
  · exact hkeyed.congr rfl rfl rfl
  · exact hkeyed.congr rfl rfl rfl

end State.Keyed

theorem Genesis.keyed (h : Genesis s) : s.Keyed :=
  ⟨by simp [h.offers], by simp [h.accepts], by simp [h.crowds]⟩

theorem keyed_of_run (hstart : Genesis s₀) (hrun : run env s₀ events = some s) : s.Keyed :=
  (runSuits_any : RunSuits .any env s₀ events).induction hstart hstart.keyed
    (fun _ _ _ _ hu hkeyed houtcome => hkeyed.outcome hu houtcome) hrun

/-! ### The file of the accepts -/

/-- The numbers of all accepts fit the types of their fields, and sellers and buyers are base58
strings. -/
def State.AcceptsStorable (s : State) : Prop :=
  ∀ (seller buyer : Address) (p : PropertyId) (accept : CMPAccept),
    s.dexGetAccept seller p buyer = some accept → Base58 seller ∧ Base58 buyer ∧ accept.Fits

theorem Base58.cleanAddress {a : Address} (h : Base58 a) : CleanAddress a := by
  intro c hc
  have halpha := isAlphanum_of_mem_base58Chars (h.2 c hc)
  by_contra hsep
  simp only [isKeySeparator, Bool.not_eq_false, Bool.or_eq_true, beq_iff_eq] at hsep
  rcases hsep with rfl | rfl <;> exact absurd halpha (by decide)

theorem writeMpAccepts_key {seller buyer : Address} (hseller : Base58 seller)
    (hbuyer : Base58 buyer) (p : PropertyId) :
    splitTokens isKeySeparator (acceptKey seller buyer p) = [seller, decimal p, buyer] := by
  refine splitTokens_join (by decide) (by decide) hseller.cleanAddress ?_ hbuyer.cleanAddress
    (decimal_ne_nil p)
  intro c hc
  by_contra hsep
  exact not_mem_decimal (by simpa using hsep) p hc

/-- **The file of the accepts is read back as it was written exactly if every buyer has the name
of the property.** -/
theorem run_accepts_restored_iff (hstart : Genesis s₀) (hrun : run env s₀ events = some s)
    (hstorable : s.AcceptsStorable) (fenv : FileEnv) (t : State) :
    (∃ t', restoreInMemoryState fenv (some (writeStateFile fenv s .ACCEPTS)) .ACCEPTS true t =
        .ok 0 t' ∧ t'.myAccepts = s.myAccepts) ↔
      ∀ seller buyer p, (s.dexGetAccept seller p buyer).isSome → buyer = decimal p := by
  -- what the writer makes of an entry
  have hentry : ∀ entry ∈ s.myAccepts.toList, ∃ seller buyer, Base58 seller ∧ Base58 buyer ∧
      entry.2.Fits ∧ entry.1 = acceptKey seller buyer entry.2.property ∧
      splitTokens isKeySeparator entry.1 = [seller, decimal entry.2.property, buyer] := by
    intro entry hmem
    have hget := mem_toList.mp hmem
    obtain ⟨seller, buyer, hkey⟩ := (keyed_of_run hstart hrun).accepts _ _ hget
    rw [hkey] at hget
    obtain ⟨hseller, hbuyer, hfits⟩ := hstorable seller buyer entry.2.property entry.2 hget
    refine ⟨seller, buyer, hseller, hbuyer, hfits, hkey, ?_⟩
    rw [hkey, writeMpAccepts_key hseller hbuyer]
  constructor
  · rintro ⟨t', hrestore, hsame⟩ seller buyer p hsome
    obtain ⟨accept, hget⟩ := Option.isSome_iff_exists.mp hsome
    -- whatever is read lies under a key with the property in the place of the buyer
    have hkeys : ∀ key ∈ t'.myAccepts, ∃ a q, key = acceptKey a (decimal q) q := by
      refine restoreInMemoryState_invariant
        (I := fun u => ∀ key ∈ u.myAccepts, ∃ a q, key = acceptKey a (decimal q) q) ?_ ?_ hrestore
      · intro line hline
        obtain ⟨entry, hmem, rfl⟩ := List.mem_map.mp hline
        obtain ⟨a, b, ha, -, hfits, -, hsplit⟩ := hentry entry hmem
        dsimp only
        rw [hsplit]
        refine ⟨isPlain_of_words (List.cons_ne_nil _ _)
          (isWord_saveAccept ha (isWord_decimal _) entry.2), fun u hu => ?_⟩
        by_cases hold : acceptKey a (decimal entry.2.property) entry.2.property ∈ u.myAccepts
        · have hread := input_saveAccept_of_mem ha (isWord_decimal _) hfits hold
          exact ⟨-1, u, by simp [callRc, inputLineFunc, hread], hu⟩
        · have hread := input_saveAccept_of_not_mem ha (isWord_decimal _) hfits hold
          refine ⟨0, _, callRc_of_ok hread, fun key hkey => ?_⟩
          rcases ExtTreeMap.mem_insert.mp hkey with heq | hmem
          · exact ⟨a, entry.2.property, (LawfulEqCmp.eq_of_compare heq).symm⟩
          · exact hu key hmem
      · exact fun key hkey => absurd hkey ExtTreeMap.not_mem_empty
    have hmem : acceptKey seller buyer p ∈ t'.myAccepts := by
      rw [hsame, ExtTreeMap.mem_iff_isSome_getElem?]
      exact hsome
    obtain ⟨a, q, hkey⟩ := hkeys _ hmem
    obtain ⟨hseller, hbuyer, -⟩ := hstorable seller buyer p accept hget
    obtain ⟨-, hb, hp⟩ := acceptKey_injective hseller.cleanAddress hbuyer.cleanAddress hkey
    rw [hb, hp]
  · intro hbuyers
    refine restore_collection State.myAccepts (fun t m => { t with myAccepts := m }) (fun _ _ => rfl)
      (fun _ _ _ => rfl) (fun _ => rfl) rfl rfl fun entry hmem => ?_
    obtain ⟨a, b, ha, hb, hfits, hkey, hsplit⟩ := hentry entry hmem
    have hget := mem_toList.mp hmem
    rw [hkey] at hget
    have hname : b = decimal entry.2.property :=
      hbuyers a b entry.2.property (by rw [dexGetAccept, hget, Option.isSome_some])
    dsimp only
    rw [hsplit]
    refine ⟨isPlain_of_words (List.cons_ne_nil _ _)
      (isWord_saveAccept ha (isWord_decimal _) entry.2), fun u hnew => ?_⟩
    rw [hkey, hname] at hnew ⊢
    exact input_saveAccept_of_not_mem ha (isWord_decimal _) hfits hnew

/-- Developer tokens vest, some are offered, and an address accepts 40 of them. -/
def acceptOpenEvents (buyer : Address) : List Event := [
  .vestDevmsc 1500000000 50000,
  samplePacket 50000 0 "exodus".toList [] (createPayloadDExSell 1 100 100 10 0 1),
  samplePacket 50001 0 buyer "exodus".toList (createPayloadDExAccept 1 40)]

/-- The accept of the sample run. -/
def storedAccept : CMPAccept where
  acceptAmountOriginal := 40
  acceptAmountRemaining := 40
  blocktimelimit := 10
  property := 1
  offerAmountOriginal := 100
  btcDesiredOriginal := 100
  offerTxid := 50000000
  block := 50001

/-- The buyer has the name of the property. -/
theorem run_accepts_restored_named :
    ∃ s, run sampleEnv (State.empty sampleEnv mainConsensusParams) (acceptOpenEvents ['1']) =
        some s ∧
      s.myAccepts.toList = [(acceptKey "exodus".toList ['1'] 1, storedAccept)] ∧
      ∀ (fenv : FileEnv) (t : State), ∃ t', restoreInMemoryState fenv
        (some (writeStateFile fenv s .ACCEPTS)) .ACCEPTS true t = .ok 0 t' ∧
          t'.myAccepts = s.myAccepts := by
  obtain ⟨s, hrun⟩ := Option.isSome_iff_exists.mp (by decide +kernel : (run sampleEnv
    (State.empty sampleEnv mainConsensusParams) (acceptOpenEvents ['1'])).isSome = true)
  have haccepts : (run sampleEnv (State.empty sampleEnv mainConsensusParams)
      (acceptOpenEvents ['1'])).map (fun s => s.myAccepts.toList) =
        some [(acceptKey "exodus".toList ['1'] 1, storedAccept)] := by decide +kernel
  rw [hrun, Option.map_some, Option.some.injEq] at haccepts
  have hexodus : Base58 "exodus".toList := by decide +kernel
  have hone : Base58 ['1'] := by decide +kernel
  have hstored : ∀ seller buyer p accept, s.dexGetAccept seller p buyer = some accept →
      seller = "exodus".toList ∧ buyer = ['1'] ∧ p = 1 ∧ accept = storedAccept := by
    intro seller buyer p accept hget
    have hmem : (acceptKey seller buyer p, accept) ∈ s.myAccepts.toList := mem_toList.mpr hget
    rw [haccepts, List.mem_singleton, Prod.mk.injEq] at hmem
    obtain ⟨ha, hb, hp⟩ := acceptKey_injective hexodus.cleanAddress hone.cleanAddress hmem.1.symm
    exact ⟨ha.symm, hb.symm, hp.symm, hmem.2⟩
  have hstorable : s.AcceptsStorable := by
    intro seller buyer p accept hget
    obtain ⟨rfl, rfl, rfl, rfl⟩ := hstored seller buyer p accept hget
    exact ⟨hexodus, hone, by constructor <;> simp [storedAccept, FitsInt]⟩
  refine ⟨s, hrun, haccepts, fun fenv t => ?_⟩
  refine (run_accepts_restored_iff (genesis_empty _ _) hrun hstorable fenv t).mpr ?_
  intro seller buyer p hsome
  obtain ⟨accept, hget⟩ := Option.isSome_iff_exists.mp hsome
  obtain ⟨-, rfl, rfl, -⟩ := hstored seller buyer p accept hget
  rfl

/-- Surroundings of sample files. -/
def sampleFileEnv : FileEnv where
  sha256 _ := 0
  tallyOrder := id
  tallyOrder_perm _ := .refl _

/-- After a restart an accept belongs to an address with the name of the property. -/
theorem exists_accepts_not_restored :
    ∃ s t', run sampleEnv (State.empty sampleEnv mainConsensusParams)
        (acceptOpenEvents "buyer".toList) = some s ∧
      restoreInMemoryState sampleFileEnv (some (writeStateFile sampleFileEnv s .ACCEPTS)) .ACCEPTS
        true s = .ok 0 t' ∧
      s.myAccepts.toList = [(acceptKey "exodus".toList "buyer".toList 1, storedAccept)] ∧
      t'.myAccepts.toList = [(acceptKey "exodus".toList ['1'] 1, storedAccept)] := by
  obtain ⟨s, hrun⟩ := Option.isSome_iff_exists.mp (by decide +kernel : (run sampleEnv
    (State.empty sampleEnv mainConsensusParams) (acceptOpenEvents "buyer".toList)).isSome = true)
  have hbefore : (run sampleEnv (State.empty sampleEnv mainConsensusParams)
      (acceptOpenEvents "buyer".toList)).map (fun s => s.myAccepts.toList) =
        some [(acceptKey "exodus".toList "buyer".toList 1, storedAccept)] := by decide +kernel
  have hafter : (run sampleEnv (State.empty sampleEnv mainConsensusParams)
      (acceptOpenEvents "buyer".toList)).bind (fun s => okResult (restoreInMemoryState sampleFileEnv
        (some (writeStateFile sampleFileEnv s .ACCEPTS)) .ACCEPTS true)
          (fun t => t.myAccepts.toList) s) =
        some (0, [(acceptKey "exodus".toList ['1'] 1, storedAccept)]) := by decide +kernel
  rw [hrun, Option.map_some, Option.some.injEq] at hbefore
  rw [hrun, Option.bind_some] at hafter
  obtain ⟨t', hrestore, haccepts⟩ := exists_of_okResult hafter
  exact ⟨s, t', hrun, hrestore, hbefore, haccepts⟩

end HcOmni
