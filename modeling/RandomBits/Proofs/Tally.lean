import Mathlib
import RandomBits.Proofs.Coupling

/-! # Environments that are counted

An environment with a tally says how often it was asked for entropy. It passes every call on and is
an environment like any other. Coupled environments are still coupled when they are tallied, and then
their tallies are the same (`Coupling.tallied`).
-/

namespace RandomBits

/-- An environment with the number of fetches, the number of draws, and the sizes of the sources that
it was asked for. -/
structure Tallied (ω : Type) where
  world : ω
  fetches : ℕ := 0
  draws : ℕ := 0
  requested : List ℕ := []

namespace Tallied

variable {σ ω : Type}

instance [Randomness ω] : Randomness (Tallied ω) where
  draw w length :=
    let (drawn, world) := Randomness.draw w.world length
    (drawn, { w with world, draws := w.draws + 1 })

instance [SeedSource σ ω] : SeedSource σ (Tallied ω) where
  fetch source w :=
    let (block, source, world) := SeedSource.fetch source w.world
    (block, source, { w with world, fetches := w.fetches + 1 })

instance [SeedProvider ω σ] : SeedProvider (Tallied ω) σ where
  toSeedSource := inferInstance
  get w bits :=
    let (source, world) := SeedProvider.get w.world bits
    (source, { w with world, requested := w.requested ++ [bits] })

instance : Metered (Tallied ω) where
  calls w := w.fetches + w.draws
  requested w := w.requested

/-- Two tallied environments that are related and have the same tally. -/
structure Alike {ω χ : Type} (worlds : ω → χ → Prop) (w : Tallied ω) (x : Tallied χ) : Prop where
  world : worlds w.world x.world
  fetches : x.fetches = w.fetches
  draws : x.draws = w.draws
  requested : x.requested = w.requested

end Tallied

variable {σ τ ω χ : Type} [SeedProvider ω σ] [SeedProvider χ τ] [Randomness ω] [Randomness χ]
  {v : View} {auxiliary : Bool} {sources : σ → τ → Prop} {worlds : ω → χ → Prop}

/-- Coupled environments are asked equally often. -/
theorem Coupling.tallied (coupling : Coupling v auxiliary sources worlds) :
    Coupling v auxiliary sources (Tallied.Alike worlds) where
  fetch related alike := by
    obtain ⟨agree, still, after⟩ := coupling.fetch related alike.world
    exact ⟨agree, still, { alike with world := after, fetches := congrArg (· + 1) alike.fetches }⟩
  draw available alike length := by
    obtain ⟨agree, after⟩ := coupling.draw available alike.world length
    exact ⟨agree, { alike with world := after, draws := congrArg (· + 1) alike.draws }⟩
  get alike bits := by
    obtain ⟨agree, after⟩ := coupling.get alike.world bits
    have requested := congrArg (· ++ [bits]) alike.requested
    exact ⟨agree, { alike with world := after, requested := requested }⟩

end RandomBits
