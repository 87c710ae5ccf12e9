import Mathlib
import RandomBits.Entropy.Playback
import RandomBits.Proofs.Building

/-! # What an instantiation checks, and what it leaves to validation

A plan can be carried out without having been validated. Main statements: an instantiation refuses
exactly the plans that are not `Plan.Instantiable`, before it fetches any entropy, and takes the
strength of all others as it comes (`Plan.instantiation_checked`). So there are plans that no validation
accepts and that are carried out nevertheless (`Plan.not_refused_of_rejected`).
-/

namespace RandomBits

def Scheme.order : Scheme → Order
  | hash d => .hash d
  | hmac d => .hmac d
  | ctr keyBits => .ctr keyBits (keyBits + 128)
  | dualEc d => .dualEc d

theorem Scheme.target_order (scheme : Scheme) : scheme.order.target = scheme := by
  cases scheme <;> rfl

/-- A primitive that can be had supports every strength up to its limit. -/
theorem Scheme.Available.supported_iff {scheme : Scheme} {strength : ℕ}
    (available : scheme.Available strength) :
    (∃ supported primitive,
        scheme.supportedStrength strength = .ok (supported, primitive) ∧ strength ≤ supported) ↔
      strength ≤ scheme.order.strengthLimit := by
  have sized : scheme.order.Sized := by
    cases scheme with
    | ctr keyBits => exact ⟨available, rfl⟩
    | hash _ | hmac _ | dualEc _ => trivial
  rw [← Order.supported_iff sized, target_order]

namespace Plan

/-- A plan asks for a strength that can be had. -/
def Attainable (p : Plan) : Prop :=
  0 < p.parameters.securityStrength ∧ p.parameters.securityStrength ≤ p.scheme.order.strengthLimit

/-- A plan is rejected by validation, whatever sources it is validated for. -/
def Rejected (p : Plan) : Prop :=
  ∀ entropyBits, ∃ refusal, p.validate entropyBits = .error refusal

variable {p : Plan}

/-- Validation checks what an instantiation does, and the strength. -/
theorem valid_iff {entropyBits : ℕ} :
    p.Valid entropyBits ↔
      p.Instantiable ∧ p.Attainable ∧ p.parameters.securityStrength ≤ entropyBits := by
  constructor
  · intro valid
    have instantiable := valid.instantiable
    have within := instantiable.available.supported_iff.mp valid.supported
    exact ⟨instantiable, ⟨valid.strength_pos, within⟩, valid.enough⟩
  · rintro ⟨instantiable, ⟨positive, within⟩, enough⟩
    have supported := instantiable.available.supported_iff.mpr within
    exact ⟨positive, supported, enough, instantiable.interval, instantiable.personalization⟩

theorem rejected_iff : p.Rejected ↔ ¬ (p.Instantiable ∧ p.Attainable) := by
  have rejects (entropyBits : ℕ) :
      (∃ refusal, p.validate entropyBits = .error refusal) ↔ ¬ p.Valid entropyBits := by
    rw [← validate_eq_ok_iff]
    cases p.validate entropyBits <;> simp
  simp only [Rejected, rejects, valid_iff]
  constructor
  · rintro never ⟨instantiable, attainable⟩
    exact never p.parameters.securityStrength ⟨instantiable, attainable, le_rfl⟩
  · rintro unfit entropyBits ⟨instantiable, attainable, -⟩
    exact unfit ⟨instantiable, attainable⟩

section

variable {σ ω : Type} [SeedSource σ ω]

/-- A plan that fails a check of an instantiation is refused before anything is fetched. -/
theorem instantiate_of_not_instantiable (unfit : ¬ p.Instantiable) (source : σ) (w : ω) :
    ∃ refusal, p.instantiate source w = (.error (.refused refusal), w) := by
  unfold Plan.instantiate
  split
  next refusal _ => exact ⟨refusal, rfl⟩
  next a chosen =>
    simp only [Seeded.instantiate, Scheme.maxReseedInterval_of_algorithm chosen]
    split
    next => exact ⟨_, rfl⟩
    next range =>
      split
      next => exact ⟨_, rfl⟩
      next short =>
        rw [not_or, not_lt] at range
        refine absurd ⟨Scheme.available_iff.mpr ⟨a, chosen⟩, ?_, not_lt.mp short⟩ unfit
        intro interval given
        rw [given] at range
        exact ⟨Nat.pos_of_ne_zero range.1, range.2⟩

/-- How a plan is carried out that nobody has validated. -/
structure InstantiatesAsIs (p : Plan) (source : σ) (w : ω) : Prop where
  /-- All checks are made before entropy is fetched. -/
  refused_iff :
    (∃ refusal, p.instantiate source w = (.error (.refused refusal), w)) ↔ ¬ p.Instantiable
  /-- The strength is that of the plan, be it one that can be had or not. -/
  carriedOut {entropy : Bytes} {rest : σ} {world : ω} (instantiable : p.Instantiable)
    (fetched : Seeded.fetchSeed p.parameters.securityStrength source w =
      (.ok entropy, rest, world)) :
    ∃ m, p.instantiate source w = (.ok m, world) ∧
      m.securityStrength = p.parameters.securityStrength
  unavailable {cause : EntropyFailure} {rest : σ} {world : ω} (instantiable : p.Instantiable)
    (fetched : Seeded.fetchSeed p.parameters.securityStrength source w =
      (.error cause, rest, world)) :
    p.instantiate source w = (.error (.entropyUnavailable cause), world)

theorem instantiatesAsIs (p : Plan) (source : σ) (w : ω) : p.InstantiatesAsIs source w where
  refused_iff := by
    constructor
    · rintro ⟨refusal, refused⟩ instantiable
      rcases fetched : Seeded.fetchSeed p.parameters.securityStrength source w with
        ⟨cause | entropy, rest, world⟩
      · cases (instantiable.instantiate_of_unavailable fetched).symm.trans refused
      · obtain ⟨m, made, -⟩ := instantiable.instantiate fetched
        cases made.symm.trans refused
    · intro unfit
      exact instantiate_of_not_instantiable unfit source w
  carriedOut instantiable fetched := by
    obtain ⟨m, made, -, strength⟩ := instantiable.instantiate fetched
    exact ⟨m, made, strength⟩
  unavailable instantiable fetched := instantiable.instantiate_of_unavailable fetched

/-- Validation rejects a plan for every source if its strength cannot be had, or if the plan fails a
check that an instantiation makes as well. An instantiation only makes the latter. -/
theorem instantiation_checked (p : Plan) :
    (p.Rejected ↔ ¬ (p.Instantiable ∧ p.Attainable)) ∧
      ∀ (source : σ) (w : ω), p.InstantiatesAsIs source w :=
  ⟨rejected_iff, p.instantiatesAsIs⟩

end

/-- What validation rejects need not be refused: SHA-224 offers 192 bits of strength and is seeded for
256 bits. -/
theorem not_refused_of_rejected :
    ¬ ∀ (p : Plan) (source : Player) (w : Playback), p.Rejected →
      ∃ refusal, p.instantiate source w = (.error (.refused refusal), w) := by
  intro refuses
  let p : Plan := ⟨.hash .sha224, { securityStrength := 256 }⟩
  let source : Player := ⟨.counting 32, none, 0⟩
  let w : Playback := { recording := .counting 32 }
  have instantiable : p.Instantiable := by
    refine ⟨trivial, ?_, Nat.zero_le _⟩
    rintro interval ⟨⟩
  have rejected : p.Rejected := by
    rw [rejected_iff]
    rintro ⟨-, -, within⟩
    exact absurd within (by decide)
  obtain ⟨refusal, refused⟩ := refuses p source w rejected
  let block : Bytes := (List.range 32).map UInt8.ofNat
  have fetched : Seeded.fetchSeed 256 source w =
      (.ok block, { source with position := 1 }, { w with fetches := 1 }) := rfl
  obtain ⟨m, made, -⟩ := instantiable.instantiate fetched
  cases made.symm.trans refused

end Plan

end RandomBits
