import Mathlib
import RandomBits.Proofs.Cores
import RandomBits.Session

/-! # What calls do to a seeded core

Three relations list everything that a reseed, an output and a request can do to a seeded core and
its environment: `Seeded.Reseeds`, `Seeded.Produces` and `Seeded.Serves`. Later statements argue by
cases on them and never open the calls themselves. Whatever happens, the public properties of the
mechanism stay as they are (`Seeded.Serves.properties`).
-/

namespace RandomBits

/-- The reply to a request that is turned down before any output. -/
def Reply.refusal (cause : Failure) : Reply := { written := [], result := .error (.failed cause) }

/-- A scheme and its algorithm have the same largest interval. -/
theorem Scheme.maxReseedInterval_of_algorithm {scheme : Scheme} {strength : ℕ} {a : Algorithm}
    (chosen : scheme.algorithm strength = .ok a) : a.maxReseedInterval = scheme.maxReseedInterval := by
  cases scheme with
  | hash d | hmac d =>
    cases chosen
    rfl
  | ctr keyBits | dualEc d =>
    simp only [Scheme.algorithm] at chosen
    split at chosen <;> cases chosen
    rfl

namespace Seeded

variable {σ ω : Type}

/-- A seeded core that has mixed in fresh entropy and counts anew. -/
def renewed (m : Seeded σ) (entropy additional : Bytes) (source : σ) : Seeded σ :=
  { m with core := m.core.reseed entropy additional, source, counter := 0 }

/-- Everything that a request for output can do to a core and its counter. -/
inductive Produces (m : Seeded σ) (length : ℕ) (additional : Bytes) : Reply → Seeded σ → Prop
  | exhausted (beyond : m.interval < m.counter + m.core.algorithm.requestCost length) :
      Produces m length additional { written := [], result := .error .reseedRequired } m
  | faulted {written : Bytes} {fault : Fault}
      (within : m.counter + m.core.algorithm.requestCost length ≤ m.interval)
      (ran : m.core.generate length additional (m.counter + 1) = (written, .error fault, m.core)) :
      Produces m length additional { written, result := .error (.failed (.faulted fault)) } m
  | served {written : Bytes} {core : Core}
      (within : m.counter + m.core.algorithm.requestCost length ≤ m.interval)
      (ran : m.core.generate length additional (m.counter + 1) = (written, .ok (), core)) :
      Produces m length additional { written, result := .ok () }
        { m with core, counter := m.counter + m.core.algorithm.requestCost length }

theorem produces (m : Seeded σ) (length : ℕ) (additional : Bytes) :
    Produces m length additional (m.produce length additional).1 (m.produce length additional).2 := by
  unfold produce
  dsimp only
  split
  next beyond => exact .exhausted beyond
  next within =>
    rw [not_lt] at within
    split
    next written fault core ran =>
      -- The core that a fault leaves is the one that was asked.
      obtain rfl := Core.eq_of_fault ran
      exact .faulted within ran
    next written core ran => exact .served within ran

/-- Nothing else can happen than what happens. -/
theorem Produces.eq {m value : Seeded σ} {length : ℕ} {additional : Bytes} {reply : Reply}
    (produced : Produces m length additional reply value) :
    m.produce length additional = (reply, value) := by
  cases produced with
  | exhausted beyond => simp only [produce, if_pos beyond]
  | faulted within ran => simp only [produce, if_neg (not_lt.mpr within), ran]
  | served within ran => simp only [produce, if_neg (not_lt.mpr within), ran]

variable [SeedSource σ ω] {s next : Within (Seeded σ) ω} {length : ℕ} {additional : Bytes}
  {predictionResistant : Bool} {reply : Reply} {result : Except Failure Unit}

/-- Everything that a reseed can do. -/
inductive Reseeds (s : Within (Seeded σ) ω) (additional : Bytes) :
    Except Failure Unit → Within (Seeded σ) ω → Prop
  | refused (long : maxInputLength < additional.length) :
      Reseeds s additional (.error (.refused .additionalInputTooLong)) s
  | unavailable {cause : EntropyFailure} {source : σ} {world : ω}
      (short : additional.length ≤ maxInputLength)
      (fetched : fetchSeed s.value.securityStrength s.value.source s.world =
        (.error cause, source, world)) :
      Reseeds s additional (.error (.entropyUnavailable cause)) ⟨{ s.value with source }, world⟩
  | mixed {entropy : Bytes} {source : σ} {world : ω} (short : additional.length ≤ maxInputLength)
      (fetched : fetchSeed s.value.securityStrength s.value.source s.world =
        (.ok entropy, source, world)) :
      Reseeds s additional (.ok ()) ⟨s.value.renewed entropy additional source, world⟩

theorem reseeds (ran : Mechanism.reseed s additional = (result, next)) :
    Reseeds s additional result next := by
  have done : Reseeds s additional (Mechanism.reseed s additional).1
      (Mechanism.reseed s additional).2 := by
    simp only [Mechanism.reseed, reseed]
    split
    next long => exact .refused long
    next short =>
      rw [not_lt] at short
      split
      next cause source world fetched => exact .unavailable short fetched
      next entropy source world fetched => exact .mixed short fetched
  rwa [ran] at done

theorem Reseeds.eq (reseeded : Reseeds s additional result next) :
    Mechanism.reseed s additional = (result, next) := by
  cases reseeded with
  | refused long => simp only [Mechanism.reseed, reseed, if_pos long]
  | unavailable short fetched =>
    simp only [Mechanism.reseed, reseed, if_neg (not_lt.mpr short), fetched]
  | mixed short fetched =>
    simp only [Mechanism.reseed, reseed, if_neg (not_lt.mpr short), fetched]
    rfl

/-- Everything that a request can do, without and with prediction resistance. -/
inductive Serves (s : Within (Seeded σ) ω) (length : ℕ) (additional : Bytes) :
    Bool → Reply → Within (Seeded σ) ω → Prop
  | tooLong (predictionResistant : Bool) (beyond : s.value.maxRequest < length) :
      Serves s length additional predictionResistant (.refusal (.faulted .requestTooLong)) s
  | refused (fits : length ≤ s.value.maxRequest) (long : maxInputLength < additional.length) :
      Serves s length additional false (.refusal (.refused .additionalInputTooLong)) s
  | direct {reply : Reply} {value : Seeded σ} (fits : length ≤ s.value.maxRequest)
      (short : additional.length ≤ maxInputLength)
      (produced : Produces s.value length additional reply value) :
      Serves s length additional false reply ⟨value, s.world⟩
  | unseeded {cause : Failure} {next : Within (Seeded σ) ω} (fits : length ≤ s.value.maxRequest)
      (reseeded : Reseeds s additional (.error cause) next) :
      Serves s length additional true (.refusal cause) next
  | renewed {reply : Reply} {middle : Within (Seeded σ) ω} {value : Seeded σ}
      (fits : length ≤ s.value.maxRequest) (reseeded : Reseeds s additional (.ok ()) middle)
      (produced : Produces middle.value length [] reply value) :
      Serves s length additional true reply ⟨value, middle.world⟩

theorem serves
    (ran : Mechanism.generate s length additional predictionResistant = (reply, next)) :
    Serves s length additional predictionResistant reply next := by
  have done : Serves s length additional predictionResistant
      (Mechanism.generate s length additional predictionResistant).1
      (Mechanism.generate s length additional predictionResistant).2 := by
    simp only [Mechanism.generate, generate]
    split
    next beyond => exact .tooLong predictionResistant beyond
    next fits =>
      rw [not_lt] at fits
      cases predictionResistant with
      | false =>
        simp only [Bool.false_eq_true, ↓reduceIte]
        split
        next long => exact .refused fits long
        next short => exact .direct fits (not_lt.mp short) (produces s.value length additional)
      | true =>
        simp only [↓reduceIte]
        split
        next cause value world ran =>
          have reseeded : Reseeds s additional (.error cause) ⟨value, world⟩ :=
            reseeds (by simp [Mechanism.reseed, ran])
          exact .unseeded fits reseeded
        next value world ran =>
          have reseeded : Reseeds s additional (.ok ()) ⟨value, world⟩ :=
            reseeds (by simp [Mechanism.reseed, ran])
          exact .renewed fits reseeded (produces value length [])
  rwa [ran] at done

theorem Serves.eq (served : Serves s length additional predictionResistant reply next) :
    Mechanism.generate s length additional predictionResistant = (reply, next) := by
  have reseed {result : Except Failure Unit} {next : Within (Seeded σ) ω}
      (reseeded : Reseeds s additional result next) :
      s.value.reseed s.world additional = (result, next.value, next.world) := by
    have ran := reseeded.eq
    simp only [Mechanism.reseed, Prod.mk.injEq] at ran
    obtain ⟨rfl, rfl⟩ := ran
    rfl
  cases served with
  | tooLong _ beyond => simp only [Mechanism.generate, generate, if_pos beyond, Reply.refusal]
  | refused fits long =>
    simp only [Mechanism.generate, generate, if_neg (not_lt.mpr fits), Bool.false_eq_true, if_false,
      if_pos long, Reply.refusal]
  | direct fits short produced =>
    simp only [Mechanism.generate, generate, if_neg (not_lt.mpr fits), Bool.false_eq_true, if_false,
      if_neg (not_lt.mpr short), produced.eq]
  | unseeded fits reseeded =>
    simp only [Mechanism.generate, generate, if_neg (not_lt.mpr fits), if_true, reseed reseeded,
      Reply.refusal]
  | renewed fits reseeded produced =>
    simp only [Mechanism.generate, generate, if_neg (not_lt.mpr fits), if_true, reseed reseeded,
      produced.eq]

/-- The public properties are those of the algorithm, the interval and the strength. -/
theorem properties_eq_iff {m n : Seeded σ} :
    n.properties = m.properties ↔ n.core.algorithm = m.core.algorithm ∧
      n.interval = m.interval ∧ n.securityStrength = m.securityStrength := by
  constructor
  · intro same
    exact ⟨congrArg Instantiation.algorithm same, congrArg Instantiation.reseedInterval same,
      congrArg Instantiation.securityStrength same⟩
  · rintro ⟨algorithm, interval, strength⟩
    simp only [Seeded.properties, maxRequest, algorithm, interval, strength]

theorem Produces.properties {m next : Seeded σ} (produced : Produces m length additional reply next) :
    next.properties = m.properties := by
  cases produced with
  | exhausted _ | faulted _ _ => rfl
  | served _ ran => exact properties_eq_iff.mpr ⟨Core.algorithm_of_generate ran, rfl, rfl⟩

theorem Produces.source {m next : Seeded σ} (produced : Produces m length additional reply next) :
    next.source = m.source := by
  cases produced <;> rfl

theorem Reseeds.properties (reseeded : Reseeds s additional result next) :
    next.value.properties = s.value.properties := by
  cases reseeded with
  | refused _ | unavailable _ _ => rfl
  | mixed _ _ => exact properties_eq_iff.mpr ⟨Core.algorithm_reseed .., rfl, rfl⟩

/-- No request changes what the public can see of a mechanism. -/
theorem Serves.properties (served : Serves s length additional predictionResistant reply next) :
    next.value.properties = s.value.properties := by
  cases served with
  | tooLong _ _ | refused _ _ => rfl
  | direct _ _ produced => exact produced.properties
  | unseeded _ reseeded => exact reseeded.properties
  | renewed _ reseeded produced => exact produced.properties.trans reseeded.properties

theorem Serves.fits_of_ok
    (served : Serves s length additional predictionResistant reply next)
    (success : reply.result = .ok ()) : length ≤ s.value.maxRequest := by
  cases served with
  | tooLong _ _ => cases success
  | refused fits _ | direct fits _ _ | unseeded fits _ | renewed fits _ _ => exact fits

/-- The interval stops a request that leaves the mechanism as it is, or one with prediction
resistance that costs more than the whole interval. -/
theorem Serves.exhausted (served : Serves s length additional predictionResistant reply next)
    (required : reply.result = .error .reseedRequired) :
    reply.written = [] ∧
      (predictionResistant = false ∧ next = s ∨
        predictionResistant = true ∧
          s.value.properties.reseedInterval < s.value.properties.algorithm.requestCost length) := by
  cases served with
  | tooLong _ _ | refused _ _ | unseeded _ _ => cases required
  | direct _ _ produced =>
    cases produced with
    | exhausted _ => exact ⟨rfl, .inl ⟨rfl, rfl⟩⟩
    | faulted _ _ | served _ _ => cases required
  | renewed _ reseeded produced =>
    rw [← reseeded.properties]
    cases produced with
    | exhausted beyond =>
      cases reseeded with
      | mixed _ _ =>
        simp only [Seeded.renewed, Nat.zero_add] at beyond
        exact ⟨rfl, .inr ⟨rfl, beyond⟩⟩
    | faulted _ _ | served _ _ => cases required

/-- A seeded core as it is made from parameters. -/
structure Fresh (m : Seeded σ) (a : Algorithm) (p : Parameters) (maxInterval : ℕ) : Prop where
  algorithm : m.core.algorithm = a
  strength : m.securityStrength = p.securityStrength
  interval : m.interval = p.reseedInterval.getD maxInterval
  positive : 0 < m.interval
  capped : m.interval ≤ a.maxReseedInterval
  counter : m.counter = 0

/-- What is instantiated is fresh and of the algorithm that the plan stands for. -/
theorem instantiated {p : Plan} {source : σ} {w world : ω} {m : Seeded σ}
    (made : p.instantiate source w = (.ok m, world)) :
    ∃ a, p.scheme.algorithm p.parameters.securityStrength = .ok a ∧
      Fresh m a p.parameters p.scheme.maxReseedInterval := by
  unfold Plan.instantiate at made
  split at made
  next => cases (Prod.mk.inj made).1
  next a chosen =>
    refine ⟨a, chosen, ?_⟩
    unfold instantiate at made
    dsimp only at made
    rw [Scheme.maxReseedInterval_of_algorithm chosen] at made
    split at made
    next => cases (Prod.mk.inj made).1
    next range =>
      split at made
      next => cases (Prod.mk.inj made).1
      next =>
        split at made
        next => cases (Prod.mk.inj made).1
        next entropy rest last fetched =>
          rw [not_or, not_lt] at range
          obtain ⟨done, -⟩ := Prod.mk.inj made
          obtain rfl := Except.ok.inj done
          exact
            { algorithm := Core.algorithm_instantiate ..
              strength := rfl
              interval := rfl
              positive := Nat.pos_of_ne_zero range.1
              capped := (Scheme.maxReseedInterval_of_algorithm chosen).symm ▸ range.2
              counter := rfl }

end Seeded

end RandomBits
