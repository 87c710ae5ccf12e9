import RandomBits.Curve.Multiple
import RandomBits.Digest.Derivation

/-! # The Dual_EC_DRBG core

The working state is a scalar `s`, right-aligned in the bytes of a coordinate. Each block takes the
x-coordinate of a multiple of `P` to the next scalar, and that of a multiple of `Q` to the output,
less its leading bytes. A point operation may fault in any block. The state goes through the blocks, and is
only set behind the last one.
-/

namespace RandomBits

structure DualEcDrbg where
  digest : Digest
  curve : Curve
  s : Bytes
deriving DecidableEq

namespace DualEcDrbg

/-- The scalar that is derived from data in parts. -/
def derive (d : Digest) (c : Curve) (data : List Bytes) : Bytes := d.hashDf data c.seedBits

def instantiate (d : Digest) (c : Curve) (entropy nonce personalization : Bytes) : DualEcDrbg :=
  { digest := d, curve := c, s := derive d c [entropy, nonce, personalization] }

/-- The scalar as a string of bits that is filled up with zero bits on the right. -/
def pad8 (c : Curve) (s : Bytes) : Bytes := s.shiftLeft (8 * c.fieldLength - c.seedBits)

def reseed (g : DualEcDrbg) (entropy additional : Bytes) : DualEcDrbg :=
  { g with s := derive g.digest g.curve [pad8 g.curve g.s, entropy, additional] }

/-- The scalar that output starts from: additional input, unless empty, is mixed in. -/
def startScalar (g : DualEcDrbg) (additional : Bytes) : Bytes :=
  if additional.isEmpty then g.s else g.s.xor (derive g.digest g.curve [additional])

/-- One block from the scalar `t`: the output and the next scalar. -/
def block (c : Curve) (t : Bytes) : Except Fault (Bytes × Bytes) := do
  let s ← c.xOfP t
  let r ← c.xOfQ s
  return (r.drop (c.fieldLength - c.outputLength), s)

/-- The blocks of output up to the first fault, the last scalar if there is no fault, and the state that
the blocks leave. -/
def blocks (c : Curve) :
    (count : Nat) → DualEcDrbg → (t : Bytes) → Bytes × Except Fault Bytes × DualEcDrbg
  | 0, g, t => ([], .ok t, g)
  | count + 1, g, t =>
    match block c t with
    | .error fault => ([], .error fault, g)
    | .ok (output, s) =>
      let (rest, last, g) := blocks c count g s
      (output ++ rest, last, g)

/-- Puts out up to `length` bytes and moves the state on, or stops at a fault. The state is given back in
either case. -/
def generate (g : DualEcDrbg) (length : Nat) (additional : Bytes) :
    Bytes × Except Fault Unit × DualEcDrbg :=
  let curve := g.curve
  let count := blocksFor length curve.outputLength
  let (output, last, g) := blocks curve count g (g.startScalar additional)
  match last.bind curve.xOfP with
  | .error fault => (output.take length, .error fault, g)
  | .ok s => (output.take length, .ok (), { g with s })

end DualEcDrbg

end RandomBits
