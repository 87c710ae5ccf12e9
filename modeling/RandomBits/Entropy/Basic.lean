import RandomBits.Failure

/-! # Where entropy comes from

Everything that draws entropy does so in an environment, whose state it passes on. An environment
may share randomness with everyone, and it may hand out seed sources, each of which serves one
generator. What an environment does with its state is its own affair: these classes only fix what
can be asked of it.
-/

namespace RandomBits

/-- An environment whose randomness is shared by everyone in it. -/
class Randomness (ω : Type) where
  /-- Draws `length` bytes. -/
  draw : ω → (length : Nat) → Except EntropyFailure Bytes × ω

/-- Seed sources of type `σ` in an environment `ω`. -/
class SeedSource (σ ω : Type) where
  /-- Fetches the next block of entropy from a source. -/
  fetch : σ → ω → Except EntropyFailure Bytes × σ × ω

/-- An environment that hands out seed sources. -/
class SeedProvider (ω : Type) (σ : outParam Type) extends SeedSource σ ω where
  /-- Asks for a source whose blocks hold `bits` bits of entropy. -/
  get : ω → (bits : Nat) → Except EntropyFailure σ × ω

/-- An environment that keeps count of what was asked of it. -/
class Metered (ω : Type) where
  /-- The number of times that entropy was drawn or fetched. -/
  calls : ω → Nat
  /-- The sizes in bits of the sources that were asked for, in order. -/
  requested : ω → List Nat

/-- Sources that are nothing but the results of their fetches, in order. -/
instance : SeedSource (List (Except EntropyFailure Bytes)) Unit where
  fetch
    | [], _ => (.error .exhausted, [], ())
    | result :: rest, _ => (result, rest, ())

end RandomBits
