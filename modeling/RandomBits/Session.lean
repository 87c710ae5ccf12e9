import RandomBits.Builder

/-! # Sessions

A session is a builder, the environment it works in, and the generators it has been asked for.
Every build takes the next slot, which stays empty if the build fails. Steps may come in any order
and may interleave the generators at will.
-/

namespace RandomBits

/-- A builder, its environment and its generators. -/
structure Session (σ ω : Type) where
  builder : Builder
  world : ω
  slots : List (Option (Generator (Seeded σ))) := []

/-- A change of one setting of the builder, or of all of them. -/
inductive Setting
  | personalization (value : Bytes)
  | securityStrength (value : Nat)
  | entropyBits (value : Nat)
  | reseedInterval (value : Nat)
  | all (value : Config)
deriving DecidableEq

def Setting.apply (c : Config) : Setting → Config
  | personalization value => { c with personalization := some value }
  | securityStrength value => { c with securityStrength := value }
  | entropyBits value => { c with entropyBits := value }
  | reseedInterval value => { c with reseedInterval := some value }
  | all value => value

inductive Step
  /-- Changes a setting of the builder. -/
  | configure (setting : Setting)
  /-- Asks for the settings. -/
  | config
  /-- Asks for the builder in one line. -/
  | describe
  /-- Asks for the sizes of the seed sources that were asked for. -/
  | requested
  /-- Builds a generator into the next slot. -/
  | build (order : Order) (nonce : Bytes) (predictionResistant : Bool)
  /-- Uses the generator in a slot. -/
  | use (slot : Nat) (operation : Operation)
deriving DecidableEq

/-- The public properties of a new mechanism. -/
structure Instantiation where
  algorithm : Algorithm
  reseedInterval : Nat
  securityStrength : Nat
  blockBits : Nat
  maxRequest : Nat
deriving DecidableEq

def Seeded.properties {σ : Type} (m : Seeded σ) : Instantiation where
  algorithm := m.core.algorithm
  reseedInterval := m.interval
  securityStrength := m.securityStrength
  blockBits := m.core.algorithm.blockBits
  maxRequest := m.maxRequest

inductive StepAnswer
  | done
  | config (value : Config)
  | text (value : String)
  | requested (sizes : List Nat)
  | built (result : Except Failure Instantiation)
  /-- There is no generator in the slot. -/
  | noGenerator
  /-- The answer of a generator, and whether it is disabled afterwards. -/
  | used (answer : Answer) (faulted : Bool)

namespace Session

variable {σ ω : Type} [SeedProvider ω σ] [Randomness ω] [Metered ω]

def useGenerator (g : Generator (Seeded σ)) (w : ω) (operation : Operation) :
    Answer × List Event × Generator (Seeded σ) × ω :=
  let (answer, events, g) := (g.map (Within.mk · w)).apply operation
  (answer, events, g.map Within.value, g.mechanism.world)

/-- Takes one step: its answer, its events in order, and the session afterwards. -/
def step (s : Session σ ω) : Step → StepAnswer × List Event × Session σ ω
  | .configure setting =>
    let config := setting.apply s.builder.config
    (.done, [], { s with builder := { s.builder with config } })
  | .config => (.config s.builder.config, [], s)
  | .describe => (.text s.builder.describe, [], s)
  | .requested => (.requested (Metered.requested s.world), [], s)
  | .build order nonce predictionResistant =>
    let (result, events, world) := s.builder.build order nonce predictionResistant s.world
    let slots := s.slots ++ [result.toOption]
    (.built (result.map fun g => g.mechanism.properties), events, { s with world, slots })
  | .use slot operation =>
    match s.slots[slot]?.join with
    | none => (.noGenerator, [], s)
    | some g =>
      let (answer, events, g, world) := useGenerator g s.world operation
      (.used answer g.faulted, events, { s with world, slots := s.slots.set slot (some g) })

/-- Takes steps in order. Each answer comes with its events and with the number of entropy calls
that were made by then. -/
def run : List Step → Session σ ω → List (StepAnswer × List Event × Nat) × Session σ ω
  | [], s => ([], s)
  | step :: rest, s =>
    let (answer, events, s) := s.step step
    let (answers, last) := run rest s
    ((answer, events, Metered.calls s.world) :: answers, last)

end Session

end RandomBits
