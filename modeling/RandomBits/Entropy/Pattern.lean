import RandomBits.Entropy.Basic

/-! # Patterned randomness

A reproducible stand-in for randomness: each call yields bytes that count up from a start that
depends on the number of the call alone. One chosen call may fail.
-/

namespace RandomBits

/-- A pattern and the number of calls that it has answered. -/
structure Pattern where
  seed : Nat := 0
  /-- The number of the call that fails, if any; the first call has the number one. -/
  failOn : Option Nat := none
  calls : Nat := 0

namespace Pattern

/-- The bytes that the call after `calls` earlier ones yields. -/
def bytes (p : Pattern) (length : Nat) : Bytes :=
  (List.range length).map fun j => UInt8.ofNat (p.seed + 37 * p.calls + j)

def draw (p : Pattern) (length : Nat) : Except EntropyFailure Bytes × Pattern :=
  let next := { p with calls := p.calls + 1 }
  if p.failOn = some next.calls then (.error (.source "pattern entropy failure"), next)
  else (.ok (p.bytes length), next)

instance : Randomness Pattern where
  draw := draw

end Pattern

end RandomBits
