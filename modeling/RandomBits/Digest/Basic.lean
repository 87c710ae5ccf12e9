import RandomBits.Digest.Compression

/-! # The approved SHA-2 digests

The closed set of digests that mechanisms may be built on, with their public parameters, and the
hash of a message that is given in parts. The main statement is that a digest has exactly its
output length.
-/

namespace RandomBits

open Sha2

/-- A SHA-2 digest. -/
inductive Digest
  | sha224
  | sha256
  | sha384
  | sha512
  | sha512_224
  | sha512_256
deriving DecidableEq, Repr

namespace Sha2

/-- Registers from the square roots of eight primes that follow the first `skipped` ones: the low
`low` bits of the first `width` bits after the binary point. -/
def rootRegisters (skipped width low : Nat) : Registers Nat :=
  let part (i : Nat) : Nat := rootFraction 2 width (primes.getD (skipped + i) 0) % 1 <<< low
  ⟨part 0, part 1, part 2, part 3, part 4, part 5, part 6, part 7⟩

def initial256 : Registers UInt32 := (rootRegisters 0 32 32).map UInt32.ofNat

/-- The initial registers of SHA-224, the low halves of those of SHA-384. -/
def initial224 : Registers UInt32 := (rootRegisters 8 64 32).map UInt32.ofNat

def initial512 : Registers UInt64 := (rootRegisters 0 64 64).map UInt64.ofNat

def initial384 : Registers UInt64 := (rootRegisters 8 64 64).map UInt64.ofNat

/-- The initial registers of a truncated SHA-512, which its name is hashed to. That hash starts
from the initial registers of SHA-512 with the bits of 0xa5 flipped in every byte. -/
def truncatedInitial (name : String) : Registers UInt64 :=
  digest (initial512.map (· ^^^ 0xa5a5a5a5a5a5a5a5)) name.toUTF8.toList

def initial512_224 : Registers UInt64 := truncatedInitial "SHA-512/224"

def initial512_256 : Registers UInt64 := truncatedInitial "SHA-512/256"

end Sha2

namespace Digest

def name : Digest → String
  | sha224 => "SHA-224"
  | sha256 => "SHA-256"
  | sha384 => "SHA-384"
  | sha512 => "SHA-512"
  | sha512_224 => "SHA-512/224"
  | sha512_256 => "SHA-512/256"

/-- The length of a digest in bytes. -/
def outputLength : Digest → Nat
  | sha224 | sha512_224 => 28
  | sha256 | sha512_256 => 32
  | sha384 => 48
  | sha512 => 64

/-- The length in bytes of the blocks a message is cut into. -/
def blockLength : Digest → Nat
  | sha224 | sha256 => 64
  | _ => 128

/-- The highest security strength in bits that a digest supports. -/
def maxSecurityStrength : Digest → Nat
  | sha224 | sha512_224 => 192
  | _ => 256

/-- The length in bits of the Hash_DRBG seed. -/
def seedBits : Digest → Nat
  | sha384 | sha512 => 888
  | _ => 440

/-- The final registers of a message, written as bytes. -/
def finalBytes (message : Bytes) : Digest → Bytes
  | sha224 => (digest initial224 message).toBytes
  | sha256 => (digest initial256 message).toBytes
  | sha384 => (digest initial384 message).toBytes
  | sha512 => (digest initial512 message).toBytes
  | sha512_224 => (digest initial512_224 message).toBytes
  | sha512_256 => (digest initial512_256 message).toBytes

/-- The digest of the concatenation of `parts`. -/
def hash (d : Digest) (parts : List Bytes) : Bytes :=
  (finalBytes parts.flatten d).take d.outputLength

@[simp] theorem length_hash (d : Digest) (parts : List Bytes) :
    (d.hash parts).length = d.outputLength := by
  cases d <;>
    simp [hash, finalBytes, outputLength, Registers.length_toBytes, Word.size]

theorem outputLength_pos (d : Digest) : 0 < d.outputLength := by cases d <;> decide

/-- A digest fits into one message block, so it can serve as a message authentication key. -/
theorem outputLength_le_blockLength (d : Digest) : d.outputLength ≤ d.blockLength := by
  cases d <;> decide

end Digest

end RandomBits
