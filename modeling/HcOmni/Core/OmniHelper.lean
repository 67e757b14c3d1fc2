import Mathlib

/-!
# Compression and encryption of agreements

`omniHelper.cpp`.  The functions of zlib and the block cipher are parameters, with the laws that make
them inverse to each other; the loops over blocks and the keys they use are those of the source.
-/

namespace HcOmni

/-- The external functions: zlib, and AES on blocks of 16 bytes with keys of 32 bytes. -/
structure Codecs where
  compress : List UInt8 → List UInt8
  /-- nothing if it throws -/
  decompress : List UInt8 → Option (List UInt8)
  encryptBlock : List UInt8 → List UInt8 → List UInt8
  decryptBlock : List UInt8 → List UInt8 → List UInt8
  decompress_compress : ∀ data, decompress (compress data) = some data
  length_encryptBlock : ∀ key block, (encryptBlock key block).length = 16
  decryptBlock_encryptBlock : ∀ key block, block.length = 16 →
    decryptBlock key (encryptBlock key block) = block

namespace Codecs

/-- The first bytes of a buffer of zeros are overwritten, as many as there are. -/
def zeroPadded (size : Nat) (bytes : List UInt8) : List UInt8 :=
  bytes.take size ++ List.replicate (size - bytes.length) 0

/-- `aes_keybuf`: 32 bytes. -/
def aesKeybuf (key : List UInt8) : List UInt8 := zeroPadded 32 key

/-- The loop of `AesEncrypt` and `AesDecrypt`: one block after the other, the last one with zeros. -/
def aesBlocks (block : List UInt8 → List UInt8) (input : List UInt8) : List UInt8 :=
  if input = [] then []
  else block (zeroPadded 16 input) ++ aesBlocks block (input.drop 16)
termination_by input.length
decreasing_by
  have := List.length_pos_of_ne_nil ‹_›
  rw [List.length_drop]
  omega

variable (codecs : Codecs)

/-- `AesEncrypt` -/
def aesEncrypt (input key : List UInt8) : List UInt8 :=
  aesBlocks (codecs.encryptBlock (aesKeybuf key)) input

/-- `AesDecrypt` -/
def aesDecrypt (input key : List UInt8) : List UInt8 :=
  aesBlocks (codecs.decryptBlock (aesKeybuf key)) input

/-- `newKey`: the compressed key, with the key behind it if it is short. -/
def newKey (key : List UInt8) : List UInt8 :=
  if (codecs.compress key).length < 32 then codecs.compress key ++ key else codecs.compress key

/-- `AesEncryptEnhance` -/
def aesEncryptEnhance (input key : List UInt8) : List UInt8 :=
  codecs.compress (codecs.aesEncrypt (codecs.aesEncrypt input (codecs.newKey key)) key)

/-- `AesDecryptEnhance`, nothing if decompressing throws. -/
def aesDecryptEnhance (input key : List UInt8) : Option (List UInt8) := do
  let cipher ← codecs.decompress input
  return codecs.aesDecrypt (codecs.aesDecrypt cipher key) (codecs.newKey key)

end Codecs

end HcOmni
