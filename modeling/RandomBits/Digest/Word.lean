import RandomBits.Digest.Root

/-! # Words of the SHA-2 functions

The two families of SHA-2 functions differ in the width of their words and in what depends on it:
the number of rounds, the round constants and the rotation amounts.
-/

namespace RandomBits.Sha2

/-- Words of a fixed width, with what one family of SHA-2 functions computes on them. -/
class Word (α : Type) extends Add α, AndOp α, XorOp α, Complement α where
  /-- The length of a word in bytes. -/
  size : Nat
  /-- The number of rounds of the compression function. -/
  rounds : Nat
  /-- The word of the low-order bits of a number. -/
  ofNat : Nat → α
  /-- The number that a word is the binary form of. -/
  toNat : α → Nat
  /-- The constant of each round. -/
  constants : Vector α rounds
  /-- The mixing of the first register in a round. -/
  bigSigma0 : α → α
  /-- The mixing of the fifth register in a round. -/
  bigSigma1 : α → α
  /-- The mixing of the word fifteen places back in the message schedule. -/
  smallSigma0 : α → α
  /-- The mixing of the word two places back in the message schedule. -/
  smallSigma1 : α → α

/-- The rotation of a 32-bit word to the right by `n` places, for `n` strictly between 0 and 32. -/
@[inline] def rotate32 (x n : UInt32) : UInt32 := x >>> n ||| x <<< (32 - n)

/-- The rotation of a 64-bit word to the right by `n` places, for `n` strictly between 0 and 64. -/
@[inline] def rotate64 (x n : UInt64) : UInt64 := x >>> n ||| x <<< (64 - n)

/-- The round constants of 32-bit words: the first 32 fraction bits of cube roots of 64 primes. -/
def constants32 : Vector UInt32 64 :=
  Vector.ofFn fun t => UInt32.ofNat (rootFraction 3 32 (primes.getD t 0))

/-- The round constants of 64-bit words: the first 64 fraction bits of cube roots of 80 primes. -/
def constants64 : Vector UInt64 80 :=
  Vector.ofFn fun t => UInt64.ofNat (rootFraction 3 64 (primes.getD t 0))

instance : Word UInt32 where
  size := 4
  rounds := 64
  ofNat := UInt32.ofNat
  toNat := UInt32.toNat
  constants := constants32
  bigSigma0 x := rotate32 x 2 ^^^ rotate32 x 13 ^^^ rotate32 x 22
  bigSigma1 x := rotate32 x 6 ^^^ rotate32 x 11 ^^^ rotate32 x 25
  smallSigma0 x := rotate32 x 7 ^^^ rotate32 x 18 ^^^ x >>> 3
  smallSigma1 x := rotate32 x 17 ^^^ rotate32 x 19 ^^^ x >>> 10

instance : Word UInt64 where
  size := 8
  rounds := 80
  ofNat := UInt64.ofNat
  toNat := UInt64.toNat
  constants := constants64
  bigSigma0 x := rotate64 x 28 ^^^ rotate64 x 34 ^^^ rotate64 x 39
  bigSigma1 x := rotate64 x 14 ^^^ rotate64 x 18 ^^^ rotate64 x 41
  smallSigma0 x := rotate64 x 1 ^^^ rotate64 x 8 ^^^ x >>> 7
  smallSigma1 x := rotate64 x 19 ^^^ rotate64 x 61 ^^^ x >>> 6

end RandomBits.Sha2
