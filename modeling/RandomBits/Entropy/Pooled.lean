import RandomBits.Bytes.Basic
import RandomBits.Entropy.Pattern

/-! # Seed sources over shared randomness

The basic provider: every source that it hands out draws its blocks from the same shared
randomness, in whole bytes. The main statement is that a block has at least the bits asked for.
-/

namespace RandomBits

/-- Shared randomness of type `ρ` that also backs the seed sources handed out. -/
structure Pooled (ρ : Type) where
  randomness : ρ
  /-- Whether every fetch is claimed to be fresh, independent entropy. -/
  predictionResistant : Bool := false

/-- A seed source that draws from the pool. -/
structure PooledSource where
  /-- The number of bits that each block holds. -/
  bits : Nat
  predictionResistant : Bool
deriving DecidableEq

namespace Pooled

variable {ρ : Type} [Randomness ρ]

def draw (pool : Pooled ρ) (length : Nat) : Except EntropyFailure Bytes × Pooled ρ :=
  let (result, randomness) := Randomness.draw pool.randomness length
  (result, { pool with randomness })

/-- Hands out a source, of any size but none. -/
def get (pool : Pooled ρ) (bits : Nat) : Except EntropyFailure PooledSource × Pooled ρ :=
  if bits = 0 then (.error (.unsupported bits), pool)
  else (.ok { bits, predictionResistant := pool.predictionResistant }, pool)

/-- Fetches a block for a source: as many bytes as hold its bits. -/
def fetch (source : PooledSource) (pool : Pooled ρ) :
    Except EntropyFailure Bytes × PooledSource × Pooled ρ :=
  let (result, pool) := pool.draw (blocksFor source.bits 8)
  (result, source, pool)

instance : Randomness (Pooled ρ) where
  draw := draw

instance : SeedProvider (Pooled ρ) PooledSource where
  fetch := fetch
  get := get

instance : Metered (Pooled Pattern) where
  calls pool := pool.randomness.calls
  requested _ := []

omit [Randomness ρ] in
def describe (pool : Pooled ρ) : String :=
  s!"BasicEntropySourceProvider \x7b prediction_resistant: {pool.predictionResistant}, .. \x7d"

end Pooled

end RandomBits
