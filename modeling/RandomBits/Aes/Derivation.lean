import RandomBits.Aes.Cipher
import RandomBits.Bytes.Stream

/-! # Block_Cipher_df, the derivation function of the block cipher

A message is framed into whole blocks. Chained encryptions of the framed message under a fixed key
give a key and a block, and repeated encryptions of that block under that key give the seed. The
main statement is that the framing fills whole blocks.
-/

namespace RandomBits.Aes

/-- The framed message: its length and the seed length in four bytes each, the message, the byte
0x80, and zero bytes up to the end of a block. -/
def framedMessage (size : KeySize) (parts : List Bytes) : Bytes :=
  let message := parts.flatten
  let framed := Bytes.ofNat 4 message.length ++ Bytes.ofNat 4 size.seedLength ++ message ++ [0x80]
  framed ++ Bytes.zeros (blocksFor framed.length blockLength * blockLength - framed.length)

/-- The last link of the chain that encrypts each block of `data` after adding the link before. -/
def chain (keys : RoundKeys) (data : Bytes) : Bytes :=
  (Bytes.chunks blockLength data).foldl (fun link block => keys.encrypt (link.xor block))
    (Bytes.zeros blockLength)

/-- The fixed key of the derivation, which counts up from zero. -/
def derivationKey (size : KeySize) : Bytes := (List.range size.keyLength).map UInt8.ofNat

/-- One chain over the framed message behind a block that starts with the number of the chain. -/
def chainStep (keys : RoundKeys) (framed : Bytes) (number : Nat) : Bytes × Nat :=
  (chain keys (Bytes.ofNat 4 number ++ Bytes.zeros 12 ++ framed), number + 1)

/-- One encryption of the block that yields the seed. -/
def seedStep (keys : RoundKeys) (block : Bytes) : Bytes × Bytes :=
  let next := keys.encrypt block
  (next, next)

/-- The seed that is derived from the concatenation of `parts`. -/
def blockCipherDf (size : KeySize) (parts : List Bytes) : Bytes :=
  let fixed := RoundKeys.ofKey size (derivationKey size)
  let material :=
    (emitBytes (chainStep fixed (framedMessage size parts)) blockLength size.seedLength 0).1
  let keys := RoundKeys.ofKey size (material.take size.keyLength)
  (emitBytes (seedStep keys) blockLength size.seedLength (material.drop size.keyLength)).1

theorem blockLength_dvd_length_framedMessage (size : KeySize) (parts : List Bytes) :
    blockLength ∣ (framedMessage size parts).length := by
  refine ⟨blocksFor (Bytes.ofNat 4 parts.flatten.length ++ Bytes.ofNat 4 size.seedLength
    ++ parts.flatten ++ [0x80]).length blockLength, ?_⟩
  simp only [framedMessage, List.length_append, Bytes.length_zeros, blocksFor, blockLength]
  omega

end RandomBits.Aes
