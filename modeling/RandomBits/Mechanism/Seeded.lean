import RandomBits.Core.Basic
import RandomBits.Mechanism.Basic

/-! # Seeded cores

A core bound to the seed source that it reseeds from, with the counter that enforces the reseed
interval. The counter says what was put out since the last seed: requests for most mechanisms,
blocks for Dual_EC_DRBG. Entropy is fetched before anything is changed, so a failed fetch costs
nothing but itself.
-/

namespace RandomBits

/-- The longest personalization string and the longest additional input, in bytes. -/
def maxInputLength : Nat := 0xffffffff

/-- What every mechanism is given when it is instantiated. -/
structure Parameters where
  nonce : Bytes := []
  personalization : Option Bytes := none
  securityStrength : Nat
  /-- The largest count between two seeds; without one it is the maximum of the mechanism. -/
  reseedInterval : Option Nat := none
deriving DecidableEq

/-- A core, its seed source and its reseed counter. -/
structure Seeded (σ : Type) where
  core : Core
  source : σ
  securityStrength : Nat
  counter : Nat
  interval : Nat

/-- A block of entropy, unless it holds fewer bits than the security strength. -/
def checkSeed (securityStrength : Nat) (block : Bytes) : Except EntropyFailure Bytes :=
  if 8 * block.length < securityStrength then
    .error (.insufficient (8 * block.length) securityStrength)
  else .ok block

namespace Seeded

variable {σ ω : Type}

def maxRequest (m : Seeded σ) : Nat := m.core.algorithm.maxRequest m.interval

/-- Puts out bytes from the core, unless that would go beyond the reseed interval. -/
def produce (m : Seeded σ) (length : Nat) (additional : Bytes) : Reply × Seeded σ :=
  let cost := m.core.algorithm.requestCost length
  if m.interval < m.counter + cost then ({ written := [], result := .error .reseedRequired }, m)
  else match m.core.generate length additional (m.counter + 1) with
    | (written, .error fault, core) =>
      ({ written, result := .error (.failed (.faulted fault)) }, { m with core })
    | (written, .ok (), core) =>
      ({ written, result := .ok () }, { m with core, counter := m.counter + cost })

variable [SeedSource σ ω]

/-- Fetches a block of entropy and checks that it is long enough. -/
def fetchSeed (securityStrength : Nat) (source : σ) (w : ω) :
    Except EntropyFailure Bytes × σ × ω :=
  let (result, source, w) := SeedSource.fetch source w
  (result.bind (checkSeed securityStrength), source, w)

/-- Seeds a new core. Parameters are checked before entropy is fetched. -/
def instantiate (a : Algorithm) (p : Parameters) (source : σ) (w : ω) :
    Except Failure (Seeded σ) × ω :=
  let interval := p.reseedInterval.getD a.maxReseedInterval
  let personalization := p.personalization.getD []
  if interval = 0 ∨ a.maxReseedInterval < interval then
    (.error (.refused (.reseedIntervalOutOfRange interval a.maxReseedInterval)), w)
  else if maxInputLength < personalization.length then
    (.error (.refused .personalizationStringTooLong), w)
  else match fetchSeed p.securityStrength source w with
    | (.error cause, _, w) => (.error (.entropyUnavailable cause), w)
    | (.ok entropy, source, w) =>
      let core := Core.instantiate a entropy p.nonce personalization
      (.ok { core, source, securityStrength := p.securityStrength, counter := 0, interval }, w)

/-- Mixes a fresh block of entropy into the core and starts to count anew. -/
def reseed (m : Seeded σ) (w : ω) (additional : Bytes) : Except Failure Unit × Seeded σ × ω :=
  if maxInputLength < additional.length then
    (.error (.refused .additionalInputTooLong), m, w)
  else match fetchSeed m.securityStrength m.source w with
    | (.error cause, source, w) => (.error (.entropyUnavailable cause), { m with source }, w)
    | (.ok entropy, source, w) =>
      (.ok (), { m with core := m.core.reseed entropy additional, source, counter := 0 }, w)

def generate (m : Seeded σ) (w : ω) (length : Nat) (additional : Bytes)
    (predictionResistant : Bool) : Reply × Seeded σ × ω :=
  let refuse (cause : Failure) : Reply := { written := [], result := .error (.failed cause) }
  if m.maxRequest < length then (refuse (.faulted .requestTooLong), m, w)
  else if predictionResistant then
    match m.reseed w additional with
    | (.error cause, m, w) => (refuse cause, m, w)
    | (.ok (), m, w) =>
      let (reply, m) := m.produce length []
      (reply, m, w)
  else if maxInputLength < additional.length then
    (refuse (.refused .additionalInputTooLong), m, w)
  else
    let (reply, m) := m.produce length additional
    (reply, m, w)

end Seeded

/-- A value together with the environment that it lives in. -/
structure Within (α ω : Type) where
  value : α
  world : ω

instance {σ ω : Type} [SeedSource σ ω] : Mechanism (Within (Seeded σ) ω) where
  generate m length additional predictionResistant :=
    let (reply, value, world) := m.value.generate m.world length additional predictionResistant
    (reply, { value, world })
  reseed m additional :=
    let (result, value, world) := m.value.reseed m.world additional
    (result, { value, world })
  blockBits m := m.value.core.algorithm.blockBits
  securityStrength m := m.value.securityStrength
  maxRequest m := m.value.maxRequest

instance {α ω : Type} [Randomness ω] : Randomness (Within α ω) where
  draw m length :=
    let (result, world) := Randomness.draw m.world length
    (result, { m with world })

end RandomBits
