import RandomBits.Bytes.Arithmetic
import RandomBits.Bytes.Stream
import RandomBits.Digest.Basic

/-! # Hash_df, the hash-based derivation function

Derives a seed of any number of bits from a message: digests under a counter are strung together
and cut. A seed that is not a whole number of bytes is right-aligned, with zero bits above it.
-/

namespace RandomBits.Digest

/-- One digest of the derivation: the counter byte, the number of bits asked for, the message. -/
def derivationStep (d : Digest) (bits : Nat) (parts : List Bytes) (counter : UInt8) :
    Bytes × UInt8 :=
  (d.hash ([counter] :: Bytes.ofNat 4 bits :: parts), counter + 1)

/-- The seed of `bits` bits that is derived from the concatenation of `parts`. -/
def hashDf (d : Digest) (parts : List Bytes) (bits : Nat) : Bytes :=
  let length := blocksFor bits 8
  let leftmost := (emitBytes (d.derivationStep bits parts) d.outputLength length 1).1
  Bytes.shiftRight (8 * length - bits) leftmost

end RandomBits.Digest
