import HcOmni.Conformance.Parts
import HcOmni.Payload.RoundTrip
import HcOmni.Runs.Invariant

/-!
# The address that is frozen

A freeze or unfreeze names an address in its payload, and the encoder writes it with the length it has.
The parser always takes 35 bytes: it cuts longer addresses, takes zeros for what a shorter one lacks,
and refuses those with fewer than 21 characters.
-/

namespace HcOmni

open Bytes CMPTransaction Program State

variable {env : Env} {s s' : State} {tx parsed : CMPTransaction} {p : UInt32} {amount : UInt64}
  {address : Address} {messageType : UInt16}

/-! ### Reading the address -/

/-- The fields of a freeze or an unfreeze. -/
def freezeFields (messageType : UInt16) (p : UInt32) (amount : UInt64) (address : Address) :
    List (List UInt8) :=
  headFields 0 messageType ++ [pushBackBytes 4 p.toNat, pushBackBytes 8 amount.toNat,
    stringBytes address]

theorem createPayloadFreezeTokens_eq :
    createPayloadFreezeTokens p amount address = (freezeFields 185 p amount address).flatten := by
  simp [createPayloadFreezeTokens, freezeFields, headFields, messageHead]

theorem createPayloadUnfreezeTokens_eq :
    createPayloadUnfreezeTokens p amount address = (freezeFields 186 p amount address).flatten := by
  simp [createPayloadUnfreezeTokens, freezeFields, headFields, messageHead]

theorem length_freezeFields :
    (freezeFields messageType p amount address).flatten.length = 16 + address.length := by
  simp [freezeFields, headFields]
  omega

theorem carries_freezeFields (hlen : address.length ≤ 64)
    (hpayload : tx.payload = (freezeFields messageType p amount address).flatten) :
    Carries tx (freezeFields messageType p amount address) := by
  refine ⟨hpayload, ?_⟩
  rw [length_freezeFields, PKT_BUFFER_SIZE]
  omega

theorem length_receiver_of_interpretFrozenAddress (h : tx.interpretFrozenAddress = some parsed) :
    parsed.receiver.length = 35 := by
  unfold interpretFrozenAddress at h
  obtain ⟨-, h⟩ := Option.ite_none_left_eq_some.mp h
  rw [← Option.some.inj h]
  simp

theorem interpretFrozenAddress_eq (hlen : address.length = 35)
    (hbytes : ∀ ch ∈ address, ch.toNat < 256)
    (h : Carries tx (freezeFields messageType p amount address)) :
    tx.interpretFrozenAddress = some { tx with
      property := p.toNat, nValue := amount.toNat, nNewValue := amount.toNat
      receiver := address } := by
  have hsize : tx.pktSize = 51 := by
    rw [h.pktSize_eq]
    simp [freezeFields, headFields, hlen]
  have hdrop : tx.buffer.drop 16 = stringBytes address ++ [tx.pktRest].flatten := by
    rw [h.buffer_eq]
    exact drop_flatten_eq (i := 4) rfl (by simp [freezeFields, headFields])
  have hlong : 16 + 35 ≤ tx.buffer.length := by
    rw [buffer, List.length_append]
    change 16 + 35 ≤ tx.pktSize + _
    omega
  have haddress : ((List.range 35).map fun i => Char.ofNat (tx.buffer.getD (16 + i) 0).toNat) =
      address := by
    calc ((List.range 35).map fun i => Char.ofNat (tx.buffer.getD (16 + i) 0).toNat)
        = bytesString ((List.range 35).map fun i => tx.buffer.getD (16 + i) 0) := by
          rw [bytesString, List.map_map]
          rfl
      _ = bytesString (stringBytes address) := by
          rw [map_getD_eq_take hlong, hdrop, List.take_left' (by simp [hlen])]
      _ = address := bytesString_stringBytes hbytes
  rw [interpretFrozenAddress, if_neg (by omega), readPropertyValue_eq h, haddress]

theorem interpretTransaction_freeze (htype : messageType = 185 ∨ messageType = 186)
    (h : Carries tx (freezeFields messageType p amount address)) :
    tx.interpretTransaction =
      interpretFrozenAddress { tx with version := 0, type := messageType.toNat } := by
  unfold interpretTransaction
  rw [Carries.interpretTransactionType_eq h]
  rcases htype with rfl | rfl <;> rfl

/-- **The address is read back exactly if it has 35 characters.** -/
theorem receiver_eq_iff (htype : messageType = 185 ∨ messageType = 186)
    (hlen : address.length ≤ 64) (hbytes : ∀ ch ∈ address, ch.toNat < 256)
    (hpayload : tx.payload = (freezeFields messageType p amount address).flatten) :
    (∃ parsed, tx.interpretTransaction = some parsed ∧ parsed.receiver = address) ↔
      address.length = 35 := by
  have h := carries_freezeFields hlen hpayload
  rw [interpretTransaction_freeze htype h]
  constructor
  · rintro ⟨parsed, hparse, rfl⟩
    exact length_receiver_of_interpretFrozenAddress hparse
  · intro hlen
    exact ⟨_, interpretFrozenAddress_eq hlen hbytes ⟨h.payload, h.fits⟩, rfl⟩

/-! ### Freezing and unfreezing -/

theorem wp_interpretPacket_parsed {Q : Int → State → Prop}
    (hparse : tx.interpretTransaction = some parsed)
    (h : wp (logicMath env parsed) Q (fun _ _ => True) s) :
    wp (interpretPacket env tx) Q (fun _ _ => True) s := by
  unfold interpretPacket
  refine reads_rejectIf.wp_bind (fun _ _ => ?_) fun _ _ => trivial
  rw [hparse]
  refine reads_decodeAgreement.wp_bind (fun _ _ => ?_) fun _ _ => trivial
  rw [wp_bind, wp_get]
  exact reads_rejectIf.wp_bind (fun _ _ => h) fun _ _ => trivial

theorem wp_logicMathFreezeTokens :
    wp (logicMathFreezeTokens tx)
      (fun _ s' => s'.setFrozenAddresses = insert (tx.receiver, tx.property) s.setFrozenAddresses)
      (fun _ _ => True) s := by
  unfold logicMathFreezeTokens
  refine reads_checkManagedIssuer.wp_bind (fun _ _ => ?_) fun _ _ => trivial
  rw [wp_bind, wp_get]
  refine reads_rejectIf.wp_bind (fun _ _ => ?_) fun _ _ => trivial
  exact reads_rejectIf.wp_bind (fun _ _ => rfl) fun _ _ => trivial

theorem wp_logicMathUnfreezeTokens :
    wp (logicMathUnfreezeTokens tx)
      (fun _ s' => s'.setFrozenAddresses = s.setFrozenAddresses.erase (tx.receiver, tx.property))
      (fun _ _ => True) s := by
  unfold logicMathUnfreezeTokens
  refine reads_checkManagedIssuer.wp_bind (fun _ _ => ?_) fun _ _ => trivial
  rw [wp_bind, wp_get]
  refine reads_rejectIf.wp_bind (fun _ _ => ?_) fun _ _ => trivial
  exact reads_rejectIf.wp_bind (fun _ _ => rfl) fun _ _ => trivial

theorem frozen_of_freeze {rc : Int} (hparse : tx.interpretTransaction = some parsed)
    (htype : parsed.type = MSC_TYPE_FREEZE_PROPERTY_TOKENS)
    (hrun : interpretPacket env tx s = .ok rc s') :
    s'.isAddressFrozen parsed.receiver parsed.property = true := by
  have hlogic : wp (logicMath env parsed) (fun _ s' => s'.setFrozenAddresses =
      insert (parsed.receiver, parsed.property) s.setFrozenAddresses) (fun _ _ => True) s := by
    unfold logicMath
    rw [htype]
    exact wp_logicMathFreezeTokens
  have hend := (wp_ok hrun).mp (wp_interpretPacket_parsed hparse hlogic)
  simp [isAddressFrozen, hend]

theorem free_of_unfreeze {rc : Int} (hparse : tx.interpretTransaction = some parsed)
    (htype : parsed.type = MSC_TYPE_UNFREEZE_PROPERTY_TOKENS)
    (hrun : interpretPacket env tx s = .ok rc s') :
    s'.isAddressFrozen parsed.receiver parsed.property = false := by
  have hlogic : wp (logicMath env parsed) (fun _ s' => s'.setFrozenAddresses =
      s.setFrozenAddresses.erase (parsed.receiver, parsed.property)) (fun _ _ => True) s := by
    unfold logicMath
    rw [htype]
    exact wp_logicMathUnfreezeTokens
  have hend := (wp_ok hrun).mp (wp_interpretPacket_parsed hparse hlogic)
  simp [isAddressFrozen, hend]

/-- What is expected of the payloads of a freeze and an unfreeze: the address is read back, and the
transactions freeze and unfreeze it if they succeed. -/
structure FreezingHits (p : UInt32) (amount : UInt64) (address : Address) : Prop where
  freeze_reads : ∀ tx : CMPTransaction, tx.payload = createPayloadFreezeTokens p amount address →
    ∃ parsed, tx.interpretTransaction = some parsed ∧ parsed.receiver = address
  unfreeze_reads : ∀ tx : CMPTransaction, tx.payload = createPayloadUnfreezeTokens p amount address →
    ∃ parsed, tx.interpretTransaction = some parsed ∧ parsed.receiver = address
  freezes : ∀ (tx : CMPTransaction) env s rc s',
    tx.payload = createPayloadFreezeTokens p amount address →
    interpretPacket env tx s = .ok rc s' → s'.isAddressFrozen address p.toNat = true
  unfreezes : ∀ (tx : CMPTransaction) env s rc s',
    tx.payload = createPayloadUnfreezeTokens p amount address →
    interpretPacket env tx s = .ok rc s' → s'.isAddressFrozen address p.toNat = false

/-- **Freezing hits the named address** exactly if it has 35 characters. -/
theorem freezingHits_iff (hlen : address.length ≤ 64) (hbytes : ∀ ch ∈ address, ch.toNat < 256) :
    FreezingHits p amount address ↔ address.length = 35 := by
  constructor
  · intro h
    have hread := h.freeze_reads
      { txid := 0, block := 0, blockTime := 0, txIdx := 0, txFeePaid := 0, blockHash := 0
        payload := createPayloadFreezeTokens p amount address, sender := [], receiver := [] } rfl
    exact (receiver_eq_iff (.inl rfl) hlen hbytes createPayloadFreezeTokens_eq).mp hread
  · intro h35
    have hparse : ∀ {tx : CMPTransaction} {messageType : UInt16},
        messageType = 185 ∨ messageType = 186 →
        tx.payload = (freezeFields messageType p amount address).flatten →
        tx.interpretTransaction = some { tx with
          version := 0, type := messageType.toNat
          property := p.toNat, nValue := amount.toNat, nNewValue := amount.toNat
          receiver := address } := by
      intro tx messageType htype hpayload
      have hcarries := carries_freezeFields hlen hpayload
      rw [interpretTransaction_freeze htype hcarries]
      exact interpretFrozenAddress_eq h35 hbytes ⟨hcarries.payload, hcarries.fits⟩
    constructor
    · intro tx hpayload
      rw [createPayloadFreezeTokens_eq] at hpayload
      exact ⟨_, hparse (.inl rfl) hpayload, rfl⟩
    · intro tx hpayload
      rw [createPayloadUnfreezeTokens_eq] at hpayload
      exact ⟨_, hparse (.inr rfl) hpayload, rfl⟩
    · intro tx env s rc s' hpayload hrun
      rw [createPayloadFreezeTokens_eq] at hpayload
      exact frozen_of_freeze (hparse (.inl rfl) hpayload) rfl hrun
    · intro tx env s rc s' hpayload hrun
      rw [createPayloadUnfreezeTokens_eq] at hpayload
      exact free_of_unfreeze (hparse (.inr rfl) hpayload) rfl hrun

/-- An address with 35 characters. -/
theorem freezingHits_iff_letters :
    FreezingHits 3 0 "HolderAddressWithThirtyFiveLetters1".toList := by
  have hplain : Plain "HolderAddressWithThirtyFiveLetters1".toList := by decide
  exact (freezingHits_iff (by decide) fun ch hch => (hplain ch hch).2).mpr (by decide)

/-- The issuer of a managed property enables freezing. -/
def freezableEvents : List Event := [
  samplePacket 50000 0 "issuer".toList []
    (createPayloadIssuanceManaged 1 1 0 [] [] "managed".toList [] []),
  samplePacket 50001 0 "issuer".toList [] (createPayloadEnableFreezing 3)]

/-- A freeze of the given address. -/
def freezeTx (address : Address) : CMPTransaction where
  txid := 50002000
  block := 50002
  blockTime := 1500000000
  txIdx := 0
  txFeePaid := 0
  blockHash := 50002
  payload := createPayloadFreezeTokens 3 0 address
  sender := "issuer".toList
  receiver := []

/-- **A freeze misses.**  The freeze of an address with 34 characters succeeds, and the address is not
frozen: an address with a zero at its end is. -/
theorem exists_freeze_misses :
    ∃ s s', run sampleEnv (State.empty sampleEnv mainConsensusParams) freezableEvents = some s ∧
      interpretPacket sampleEnv (freezeTx "HolderAddressWithThirtyFourLetters".toList) s = .ok 0 s' ∧
      s'.isAddressFrozen "HolderAddressWithThirtyFourLetters".toList 3 = false ∧
      s'.isAddressFrozen ("HolderAddressWithThirtyFourLetters".toList ++ [Char.ofNat 0]) 3 = true := by
  have hvalues : (run sampleEnv (State.empty sampleEnv mainConsensusParams) freezableEvents).map
      (fun s => match interpretPacket sampleEnv
          (freezeTx "HolderAddressWithThirtyFourLetters".toList) s with
        | .ok rc s' => some (rc, s'.isAddressFrozen "HolderAddressWithThirtyFourLetters".toList 3,
            s'.isAddressFrozen ("HolderAddressWithThirtyFourLetters".toList ++ [Char.ofNat 0]) 3)
        | .error _ _ => none) = some (some (0, false, true)) := by decide +kernel
  obtain ⟨s, hrun, hs⟩ := Option.map_eq_some_iff.mp hvalues
  cases hexec : interpretPacket sampleEnv
      (freezeTx "HolderAddressWithThirtyFourLetters".toList) s with
  | ok rc s' =>
      rw [hexec] at hs
      simp only [Option.some.injEq, Prod.mk.injEq] at hs
      obtain ⟨rfl, hmissed, hhit⟩ := hs
      exact ⟨s, s', hrun, hexec, hmissed, hhit⟩
  | error e s' =>
      rw [hexec] at hs
      cases hs

end HcOmni
