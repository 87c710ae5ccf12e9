import RandomBits.Generator.Basic

/-! # Operations on a generator

The calls that users make, as data, and their answers. A run is a list of operations, so that what
holds after any use of a generator can be said of runs.
-/

namespace RandomBits

/-- A call to a generator. Absent additional input is empty. -/
inductive Operation
  /-- Generates a number of bytes. -/
  | generate (count : Nat) (additional : Bytes)
  /-- Fills a buffer. -/
  | fill (buffer additional : Bytes)
  /-- Reseeds on demand. -/
  | reseed (additional : Bytes)
  /-- Generates a word of a number of bytes, the first of which is the least significant. -/
  | word (size : Nat)
  /-- Asks for the public properties. -/
  | properties
  /-- Asks for the generator in one line. -/
  | describe
deriving DecidableEq

structure Properties where
  predictionResistant : Bool
  securityStrength : Nat
  blockBits : Nat
  maxRequest : Nat
  faulted : Bool
deriving DecidableEq

inductive Answer
  | bytes (result : Except Failure Bytes)
  | buffer (result : Except Failure Unit) (after : Bytes)
  | done (result : Except Failure Unit)
  | word (size : Nat) (result : Except Failure Nat)
  | properties (value : Properties)
  | text (value : String)

namespace Generator

variable {μ : Type} [Mechanism μ]

def properties (g : Generator μ) : Properties where
  predictionResistant := g.predictionResistant
  securityStrength := Mechanism.securityStrength g.mechanism
  blockBits := Mechanism.blockBits g.mechanism
  maxRequest := Mechanism.maxRequest g.mechanism
  faulted := g.faulted

variable [Randomness μ]

/-- Carries out one operation: its answer, its events in order, and the generator afterwards. -/
def apply (g : Generator μ) : Operation → Answer × List Event × Generator μ
  | .generate count additional =>
    let o := g.fill (Bytes.zeros count) additional
    (.bytes (o.result.map fun _ => o.buffer), o.events, o.generator)
  | .fill buffer additional =>
    let o := g.fill buffer additional
    (.buffer o.result o.buffer, o.events, o.generator)
  | .reseed additional =>
    let o := g.reseed additional
    (.done o.result, o.events, o.generator)
  | .word size =>
    let o := g.fill (Bytes.zeros size) []
    (.word size (o.result.map fun _ => o.buffer.toNatLE), o.events, o.generator)
  | .properties => (.properties g.properties, [], g)
  | .describe => (.text g.describe, [], g)

def run : List Operation → Generator μ → List Answer × List Event × Generator μ
  | [], g => ([], [], g)
  | operation :: rest, g =>
    let (answer, events, g) := g.apply operation
    let (answers, later, g) := run rest g
    (answer :: answers, events ++ later, g)

end Generator

end RandomBits
