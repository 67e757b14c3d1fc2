import HcOmni.Payload.RoundTrip

/-!
# Agreements

The payload of an agreement has two parts of variable length and an encrypted one.  Encoder and parser
agree on where they are, but not on the number of the message type: the encoder writes 201, and the
parser takes 202 for an agreement and rejects the other.
-/

namespace HcOmni

open Bytes CMPTransaction

variable {codecs : Codecs} {tx : CMPTransaction} {messageType : UInt16} {agreementid : Str}
  {plain key secret input : List UInt8}

/-! ### Blocks -/

namespace Codecs

variable {f g : List UInt8 → List UInt8}

@[simp] theorem aesBlocks_nil : aesBlocks f [] = [] := by
  rw [aesBlocks, if_pos rfl]

theorem aesBlocks_of_ne (h : input ≠ []) :
    aesBlocks f input = f (zeroPadded 16 input) ++ aesBlocks f (input.drop 16) := by
  rw [aesBlocks, if_neg h]

@[simp] theorem length_zeroPadded (size : Nat) (bytes : List UInt8) :
    (zeroPadded size bytes).length = size := by
  simp only [zeroPadded, List.length_append, List.length_take, List.length_replicate]
  omega

theorem aesBlocks_append {block rest : List UInt8} (h : block.length = 16) :
    aesBlocks f (block ++ rest) = f block ++ aesBlocks f rest := by
  have hne : block ++ rest ≠ [] := by
    intro hnil
    rw [List.append_eq_nil_iff] at hnil
    rw [hnil.1] at h
    cases h
  have hpad : zeroPadded 16 (block ++ rest) = block := by
    rw [zeroPadded, List.take_left' h, List.length_append, h]
    simp
  rw [aesBlocks_of_ne hne, hpad, List.drop_left' h]

theorem dvd_length_aesBlocks (hf : ∀ block, block.length = 16 → (f block).length = 16) :
    16 ∣ (aesBlocks f input).length := by
  fun_induction aesBlocks f input with
  | case1 => simp
  | case2 input hne ih =>
    rw [List.length_append, hf _ (length_zeroPadded _ _)]
    exact (Nat.dvd_add_right (Nat.dvd_refl 16)).mpr ih

theorem aesBlocks_aesBlocks (hf : ∀ block, (f block).length = 16)
    (hinv : ∀ block, block.length = 16 → g (f block) = block) :
    aesBlocks g (aesBlocks f input) = aesBlocks id input := by
  fun_induction aesBlocks f input with
  | case1 => simp
  | case2 input hne ih =>
    rw [aesBlocks_append (hf _), hinv _ (length_zeroPadded _ _), ih, aesBlocks_of_ne hne, id]

theorem aesBlocks_id_of_dvd (h : 16 ∣ input.length) : aesBlocks id input = input := by
  fun_induction aesBlocks id input with
  | case1 => rfl
  | case2 input hne ih =>
    have hlong : 16 ≤ input.length := Nat.le_of_dvd (List.length_pos_of_ne_nil hne) h
    have hpad : zeroPadded 16 input = input.take 16 := by
      rw [zeroPadded, Nat.sub_eq_zero_of_le hlong]
      simp
    rw [hpad, ih, id, List.take_append_drop]
    rw [List.length_drop]
    exact Nat.dvd_sub h (Nat.dvd_refl 16)

theorem aesBlocks_id_eq_iff : aesBlocks id input = input ↔ 16 ∣ input.length := by
  constructor
  · intro hsame
    have hwhole : 16 ∣ (aesBlocks id input).length := dvd_length_aesBlocks fun _ hblock => hblock
    rwa [hsame] at hwhole
  · exact aesBlocks_id_of_dvd

theorem aesDecrypt_aesEncrypt (codecs : Codecs) (input key : List UInt8) :
    codecs.aesDecrypt (codecs.aesEncrypt input key) key = aesBlocks id input :=
  aesBlocks_aesBlocks (codecs.length_encryptBlock _) (codecs.decryptBlock_encryptBlock _)

/-- **Decrypting with the key of the encryption** yields the content, filled up with zeros to whole
blocks. -/
theorem aesDecryptEnhance_aesEncryptEnhance (codecs : Codecs) (input key : List UInt8) :
    codecs.aesDecryptEnhance (codecs.aesEncryptEnhance input key) key =
      some (aesBlocks id input) := by
  have hwhole : 16 ∣ (codecs.aesEncrypt input (codecs.newKey key)).length :=
    dvd_length_aesBlocks fun block _ => codecs.length_encryptBlock _ block
  unfold aesDecryptEnhance aesEncryptEnhance
  rw [codecs.decompress_compress]
  change some _ = _
  rw [aesDecrypt_aesEncrypt, aesBlocks_id_of_dvd hwhole, aesDecrypt_aesEncrypt]

/-- **Encryption can be undone exactly for whole blocks.**  Content of another length comes back with
zeros behind it, whatever the key. -/
theorem aesDecryptEnhance_inverts_iff (codecs : Codecs) (input key : List UInt8) :
    codecs.aesDecryptEnhance (codecs.aesEncryptEnhance input key) key = some input ↔
      16 ∣ input.length := by
  rw [aesDecryptEnhance_aesEncryptEnhance, Option.some_inj, aesBlocks_id_eq_iff]

end Codecs

/-- Functions that compress and encrypt nothing. -/
def plainCodecs : Codecs where
  compress data := data
  decompress data := some data
  encryptBlock _ block := Codecs.zeroPadded 16 block
  decryptBlock _ block := block
  decompress_compress _ := rfl
  length_encryptBlock _ block := Codecs.length_zeroPadded 16 block
  decryptBlock_encryptBlock _ block h := by
    rw [Codecs.zeroPadded, h, ← h, List.take_length]
    simp

/-- **A single byte comes back as sixteen.** -/
theorem Codecs.aesDecryptEnhance_single_byte :
    plainCodecs.aesDecryptEnhance (plainCodecs.aesEncryptEnhance [97] [107]) [107] =
        some [97, 0, 0, 0, 0, 0, 0, 0, 0, 0, 0, 0, 0, 0, 0, 0] ∧
      plainCodecs.aesDecryptEnhance (plainCodecs.aesEncryptEnhance [97] [107]) [107] ≠ some [97] := by
  have hblocks : aesBlocks id [97] = [97, 0, 0, 0, 0, 0, 0, 0, 0, 0, 0, 0, 0, 0, 0, 0] := by
    simp [aesBlocks_of_ne, zeroPadded]
  rw [aesDecryptEnhance_aesEncryptEnhance, hblocks]
  exact ⟨rfl, by decide⟩

/-! ### Reading an agreement -/

/-- The fields of an agreement. -/
def agreementFields (codecs : Codecs) (messageType : UInt16) (agreementid : Str)
    (plain key secret : List UInt8) : List (List UInt8) :=
  headFields 0 messageType ++ [pushBackBytes 4 (codecs.compress plain).length,
    stringBytes agreementid ++ [0], codecs.compress plain, [0],
    if key = [] then [] else codecs.aesEncryptEnhance secret key ++ [0]]

theorem agreementPayload_eq : agreementPayload codecs messageType agreementid plain key secret =
    (agreementFields codecs messageType agreementid plain key secret).flatten := by
  simp [agreementPayload, agreementFields, headFields, messageHead]

/-- An agreement is read back: it is accepted as one, with its identifier, the plain content, and the
secret content for those who know the key. -/
def AgreementRead (codecs : Codecs) (tx : CMPTransaction) (agreementid : Str)
    (plain key secret : List UInt8) : Prop :=
  ∃ parsed body, tx.interpretTransaction = some parsed ∧ parsed.type = MSC_TYPE_SEND_AGREEMENT ∧
    parsed.agreementId = agreementid ∧ tx.agreementBody = some body ∧
    codecs.decompress body.1 = some plain ∧
    (key ≠ [] → codecs.aesDecryptEnhance body.2 key = some secret)

theorem interpretTransaction_of_type {rest : List UInt8}
    (hpayload : tx.payload = messageHead 0 201 ++ rest) : tx.interpretTransaction = none := by
  obtain ⟨more, hpkt⟩ : ∃ more, tx.pkt = messageHead 0 201 ++ more := by
    refine ⟨rest.take (PKT_BUFFER_SIZE - (messageHead 0 201).length), ?_⟩
    rw [pkt, hpayload, List.take_append, List.take_of_length_le (by decide)]
  have hversion : tx.readUInt 0 2 = 0 := by
    rw [readUInt, buffer, hpkt]
    rfl
  have htype : tx.readUInt 2 2 = 201 := by
    rw [readUInt, buffer, hpkt]
    rfl
  have hsize : ¬tx.pktSize < 4 := by
    rw [pktSize, hpkt, List.length_append]
    exact Nat.not_lt.mpr (Nat.le_add_right 4 _)
  unfold interpretTransaction
  rw [interpretTransactionType, if_neg hsize, hversion, htype]
  rfl

/-- **No agreement that was encoded is accepted.** -/
theorem createPayloadOmniAgreement_not_read (codecs : Codecs) (agreementid : Str)
    (plain key secret : List UInt8) (tx : CMPTransaction) :
    ¬AgreementRead codecs
      { tx with payload := createPayloadOmniAgreement codecs agreementid plain key secret }
      agreementid plain key secret := by
  rintro ⟨parsed, body, hparse, -⟩
  have hpayload : createPayloadOmniAgreement codecs agreementid plain key secret =
      messageHead 0 201 ++
        ((agreementFields codecs 201 agreementid plain key secret).drop 2).flatten := by
    rw [createPayloadOmniAgreement, agreementPayload_eq]
    simp [agreementFields, headFields, messageHead]
  rw [interpretTransaction_of_type hpayload] at hparse
  cases hparse

/-- An agreement without a secret part. -/
def agreementTx : CMPTransaction where
  txid := 1
  block := 50000
  blockTime := 1500000000
  txIdx := 0
  txFeePaid := 0
  blockHash := 50000
  payload := createPayloadOmniAgreement plainCodecs "contract".toList [116, 101, 114, 109, 115] [] []
  sender := "sender".toList
  receiver := []

/-- **An agreement is rejected**, with the message type the encoder gave it. -/
theorem agreementTx_rejected :
    agreementTx.readUInt 2 2 = 201 ∧ agreementTx.interpretTransaction = none ∧
      ¬AgreementRead plainCodecs agreementTx "contract".toList [116, 101, 114, 109, 115] [] [] := by
  have hrejected : agreementTx.interpretTransaction = none := by decide
  refine ⟨by decide, hrejected, ?_⟩
  rintro ⟨parsed, body, hparse, -⟩
  rw [hrejected] at hparse
  cases hparse

end HcOmni
