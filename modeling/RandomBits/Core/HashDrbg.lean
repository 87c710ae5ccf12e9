import RandomBits.Digest.Derivation

/-! # The Hash_DRBG core

The working state is a value `v` and a constant `c`, both of the seed length of the digest. Output
is the digest of successive increments of `v`; afterwards `v` moves on by sums modulo its length.
-/

namespace RandomBits

structure HashDrbg where
  digest : Digest
  v : Bytes
  c : Bytes
deriving DecidableEq

namespace HashDrbg

/-- The state with the value `v`, which fixes the constant. -/
def ofValue (d : Digest) (v : Bytes) : HashDrbg :=
  { digest := d, v, c := d.hashDf [[0x00], v] d.seedBits }

def instantiate (d : Digest) (entropy nonce personalization : Bytes) : HashDrbg :=
  ofValue d (d.hashDf [entropy, nonce, personalization] d.seedBits)

def reseed (s : HashDrbg) (entropy additional : Bytes) : HashDrbg :=
  ofValue s.digest (s.digest.hashDf [[0x01], s.v, entropy, additional] s.digest.seedBits)

/-- The value that output starts from: additional input, unless empty, is hashed in. -/
def startValue (s : HashDrbg) (additional : Bytes) : Bytes :=
  if additional.isEmpty then s.v else s.v.add (s.digest.hash [[0x02], s.v, additional])

/-- One block of output: the digest of a value, which is then incremented. -/
def outputStep (d : Digest) (value : Bytes) : Bytes × Bytes := (d.hash [value], value.increment)

/-- Puts out `length` bytes and moves the state on, given the number of this request since the
last seed. -/
def generate (s : HashDrbg) (length : Nat) (additional : Bytes) (counter : Nat) :
    Bytes × HashDrbg :=
  let start := s.startValue additional
  let output := (emitBytes (outputStep s.digest) s.digest.outputLength length start).1
  let moved := start.add (s.digest.hash [[0x03], start])
  (output, { s with v := (moved.add s.c).add (Bytes.ofNat 8 counter) })

end HashDrbg

end RandomBits
