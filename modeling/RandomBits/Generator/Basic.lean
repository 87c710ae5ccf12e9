import RandomBits.Generator.Event

/-! # Generators

A generator serves requests of any length from one mechanism. It cuts them into chunks that the
mechanism accepts, reseeds once when the mechanism asks for it, and refuses all further use after a
mechanism fault. Reseeds on demand may mix in auxiliary randomness.
-/

namespace RandomBits

structure Generator (μ : Type) where
  mechanism : μ
  /-- Whether reseeds on demand draw auxiliary randomness. -/
  auxiliary : Bool
  /-- Whether the mechanism reseeds before every request. -/
  predictionResistant : Bool
  /-- Whether a fault has disabled the generator. -/
  faulted : Bool := false
deriving DecidableEq

/-- What a call leads to: the buffer afterwards, the result, the events in order, and the
generator afterwards. A call without a buffer has an empty one. -/
structure Outcome (μ : Type) where
  buffer : Bytes
  result : Except Failure Unit
  events : List Event
  generator : Generator μ

namespace Generator

variable {μ ν : Type}

def map (f : μ → ν) (g : Generator μ) : Generator ν := { g with mechanism := f g.mechanism }

/-- The end of a call that failed: a fault disables the generator and is reported. -/
def fail (g : Generator μ) (buffer : Bytes) (cause : Failure) : Outcome μ :=
  match cause with
  | .faulted reason =>
    { buffer, result := .error cause, events := [.disabled reason]
      generator := { g with faulted := true } }
  | _ => { buffer, result := .error cause, events := [], generator := g }

/-- The end of a call on a disabled generator. -/
def refuse (g : Generator μ) (buffer : Bytes) : Outcome μ :=
  { buffer, result := .error (.faulted .poisoned), events := [], generator := g }

section

variable [Mechanism μ]

/-- Asks the mechanism for one chunk again, directly after a reseed. -/
def retryChunk (g : Generator μ) (additional chunk : Bytes) : Outcome μ :=
  let (reply, mechanism) :=
    Mechanism.generate g.mechanism chunk.length additional g.predictionResistant
  let g := { g with mechanism }
  let buffer := chunk.overwrite reply.written
  match reply.result with
  | .ok () => { buffer, result := .ok (), events := [], generator := g }
  | .error .reseedRequired => g.fail buffer (.faulted .reseedLoop)
  | .error (.failed cause) => g.fail buffer cause

/-- Asks the mechanism for one chunk, and once more after a reseed if it requires one. The reseed
takes no additional input. -/
def fillChunk (g : Generator μ) (additional chunk : Bytes) : Outcome μ :=
  let (reply, mechanism) :=
    Mechanism.generate g.mechanism chunk.length additional g.predictionResistant
  let g := { g with mechanism }
  let buffer := chunk.overwrite reply.written
  match reply.result with
  | .ok () => { buffer, result := .ok (), events := [], generator := g }
  | .error (.failed cause) => g.fail buffer cause
  | .error .reseedRequired =>
    let (reseeded, mechanism) := Mechanism.reseed g.mechanism []
    let g := { g with mechanism }
    let last :=
      match reseeded with
      | .error cause => g.fail buffer cause
      | .ok () => g.retryChunk additional buffer
    { last with events := .intervalExhausted :: last.events }

/-- Fills chunks in order, up to the first failure. -/
def fillChunks (additional : Bytes) : List Bytes → Generator μ → Outcome μ
  | [], g => { buffer := [], result := .ok (), events := [], generator := g }
  | chunk :: rest, g =>
    let head := g.fillChunk additional chunk
    match head.result with
    | .error _ => { head with buffer := head.buffer ++ rest.flatten }
    | .ok () =>
      let tail := fillChunks additional rest head.generator
      { tail with
        buffer := head.buffer ++ tail.buffer
        events := head.events ++ tail.events }

/-- The length of the chunks that requests are cut into. -/
def chunkLength (g : Generator μ) : Nat := max (Mechanism.maxRequest g.mechanism) 1

/-- Fills a buffer. What a failure leaves unfilled keeps its bytes. -/
def fill (g : Generator μ) (buffer additional : Bytes) : Outcome μ :=
  if g.faulted then g.refuse buffer
  else fillChunks additional (buffer.chunks g.chunkLength) g

def reseedMechanism (g : Generator μ) (additional : Bytes) : Outcome μ :=
  let (result, mechanism) := Mechanism.reseed g.mechanism additional
  let g := { g with mechanism }
  match result with
  | .error cause => g.fail [] cause
  | .ok () =>
    { buffer := [], result := .ok ()
      events := [.reseeded (Mechanism.securityStrength g.mechanism)], generator := g }

/-- The number of auxiliary bytes that a reseed draws. -/
def auxiliaryLength (g : Generator μ) : Nat :=
  blocksFor (Mechanism.securityStrength g.mechanism) 8

variable [Randomness μ]

/-- Reseeds on demand. Auxiliary randomness, if there is any, is drawn first and joins the
additional input. -/
def reseed (g : Generator μ) (additional : Bytes) : Outcome μ :=
  if g.faulted then g.refuse []
  else if g.auxiliary then
    let (drawn, mechanism) := Randomness.draw g.mechanism g.auxiliaryLength
    let g := { g with mechanism }
    match drawn with
    | .error cause =>
      { buffer := [], result := .error (.entropyUnavailable cause), events := [], generator := g }
    | .ok bytes => g.reseedMechanism (additional ++ bytes)
  else g.reseedMechanism additional

end

def describe (g : Generator μ) : String :=
  let resistance := if g.predictionResistant then "Enabled" else "Disabled"
  s!"Sp800SecureRandom \x7b prediction_resistance: {resistance}, " ++
    s!"auxiliary_randomness: {g.auxiliary}, faulted: {g.faulted}, .. \x7d"

end Generator

end RandomBits
