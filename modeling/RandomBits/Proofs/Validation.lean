import Mathlib
import RandomBits.Proofs.Seeding

/-! # What validation establishes

`Plan.Valid` says what a plan has to fulfil, and a plan passes validation exactly if it does
(`Plan.validate_eq_ok_iff`). A valid plan also passes the fewer checks of an instantiation
(`Plan.Instantiable`), so it is carried out whenever a long enough block of entropy is fetched
(`Plan.instantiate_of_valid`).
-/

namespace RandomBits

variable {α : Type} {refusal : Refusal}

theorem require_eq_ok_iff {requirement : Prop} [Decidable requirement] {u : Unit} :
    require requirement refusal = .ok u ↔ requirement := by
  unfold require
  split <;> simp [*]

namespace Plan

/-- What a plan has to fulfil for seed sources of `entropyBits` bits. -/
structure Valid (p : Plan) (entropyBits : ℕ) : Prop where
  strength_pos : 0 < p.parameters.securityStrength
  supported : ∃ supported primitive,
    p.scheme.supportedStrength p.parameters.securityStrength = .ok (supported, primitive) ∧
      p.parameters.securityStrength ≤ supported
  enough : p.parameters.securityStrength ≤ entropyBits
  interval : ∀ interval, p.parameters.reseedInterval = some interval →
    0 < interval ∧ interval ≤ p.scheme.maxReseedInterval
  personalization : (p.parameters.personalization.getD []).length ≤ maxInputLength

/-- Validation accepts exactly the valid plans. -/
theorem validate_eq_ok_iff (p : Plan) (entropyBits : ℕ) :
    p.validate entropyBits = .ok () ↔ p.Valid entropyBits := by
  simp only [validate, bind_eq_ok_iff, require_eq_ok_iff, exists_const]
  constructor
  · rintro ⟨strength, -, ⟨supported, primitive⟩, found, within, enough, rest⟩
    refine ⟨Nat.pos_of_ne_zero strength, ⟨supported, primitive, found, within⟩, enough, ?_, ?_⟩
    · intro interval given
      simp only [given, bind_eq_ok_iff, require_eq_ok_iff, exists_const] at rest
      exact ⟨Nat.pos_of_ne_zero rest.1.1, rest.1.2⟩
    · cases given : p.parameters.reseedInterval with
      | none => simpa only [given, require_eq_ok_iff] using rest
      | some interval =>
        simp only [given, bind_eq_ok_iff, require_eq_ok_iff, exists_const] at rest
        exact rest.2
  · intro valid
    obtain ⟨supported, primitive, found, within⟩ := valid.supported
    have bits : entropyBits ≠ 0 := (valid.strength_pos.trans_le valid.enough).ne'
    refine ⟨valid.strength_pos.ne', bits, (supported, primitive), found, within, valid.enough, ?_⟩
    cases given : p.parameters.reseedInterval with
    | none => simpa only [require_eq_ok_iff] using valid.personalization
    | some interval =>
      obtain ⟨positive, capped⟩ := valid.interval interval given
      simp only [bind_eq_ok_iff, require_eq_ok_iff, exists_const]
      exact ⟨⟨positive.ne', capped⟩, valid.personalization⟩

end Plan

/-- There are keys of three sizes. -/
theorem Aes.KeySize.isSome_ofBits?_iff {bits : ℕ} :
    (ofBits? bits).isSome = true ↔ bits ∈ [128, 192, 256] := by
  constructor
  · intro known
    unfold ofBits? at known
    split at known
    · decide
    · decide
    · decide
    · cases known
  · intro listed
    simp only [List.mem_cons, List.not_mem_nil, or_false] at listed
    rcases listed with rfl | rfl | rfl <;> rfl

/-- The keys that the cipher supports are those that can be made. -/
theorem Aes.supportsKeyBits_eq (bits : ℕ) : supportsKeyBits bits = (KeySize.ofBits? bits).isSome := by
  unfold supportsKeyBits KeySize.ofBits?
  split <;> rfl

/-- A key that can be made is as strong as it is taken to be, which is as long as it is. -/
theorem Scheme.cipherStrength_of_ofBits? {keyBits : ℕ} {size : Aes.KeySize}
    (known : Aes.KeySize.ofBits? keyBits = some size) :
    cipherStrength keyBits = size.bits ∧ size.bits = keyBits := by
  unfold Aes.KeySize.ofBits? at known
  split at known <;> cases known <;> exact ⟨rfl, rfl⟩

theorem Curve.securityStrength_le (c : Curve) : c.securityStrength ≤ 256 := by
  cases c <;> decide

/-- The curves reach up to 256 bits of strength. -/
theorem Curve.isSome_forStrength?_iff {strength : ℕ} :
    (forStrength? strength).isSome = true ↔ strength ≤ 256 := by
  rw [forStrength?, List.find?_isSome]
  constructor
  · rintro ⟨c, -, met⟩
    exact (of_decide_eq_true met).trans c.securityStrength_le
  · intro reached
    exact ⟨p521, by simp, decide_eq_true reached⟩

namespace Scheme

theorem maxReseedInterval_pos (scheme : Scheme) : 0 < scheme.maxReseedInterval := by
  cases scheme with
  | dualEc _ =>
    change 0 < maxBlockCount
    decide
  | hash _ | hmac _ | ctr _ =>
    change 0 < maxRequestCount
    decide

/-- The primitive of a scheme can be had: a key of its size, and for Dual_EC_DRBG a curve that meets
the strength. -/
def Available (strength : ℕ) : Scheme → Prop
  | ctr keyBits => keyBits ∈ [128, 192, 256]
  | dualEc _ => strength ≤ 256
  | _ => True

variable {scheme : Scheme} {strength : ℕ}

/-- A scheme stands for an algorithm exactly if its primitive can be had. -/
theorem available_iff : scheme.Available strength ↔ ∃ a, scheme.algorithm strength = .ok a := by
  cases scheme with
  | hash _ | hmac _ => simp [Available, Scheme.algorithm]
  | ctr keyBits =>
    simp only [Available, Scheme.algorithm, ← Aes.KeySize.isSome_ofBits?_iff]
    split <;> simp [*]
  | dualEc _ =>
    simp only [Available, Scheme.algorithm, ← Curve.isSome_forStrength?_iff]
    split <;> simp [*]

theorem available_of_supported {supported : ℕ} {primitive : Primitive}
    (found : scheme.supportedStrength strength = .ok (supported, primitive))
    (within : strength ≤ supported) : scheme.Available strength := by
  cases scheme with
  | hash _ | hmac _ => trivial
  | ctr keyBits =>
    simp only [supportedStrength] at found
    rw [Available, ← Aes.KeySize.isSome_ofBits?_iff]
    split at found
    next known => rwa [← Aes.supportsKeyBits_eq]
    next => cases found
  | dualEc _ =>
    simp only [supportedStrength] at found
    rw [Available, ← Curve.isSome_forStrength?_iff]
    split at found
    next =>
      cases found
      exact Curve.isSome_forStrength?_iff.mpr within
    next known => simp [known]

end Scheme

namespace Plan

/-- What a plan has to fulfil to be carried out, of whatever strength. -/
structure Instantiable (p : Plan) : Prop where
  available : p.scheme.Available p.parameters.securityStrength
  interval : ∀ interval, p.parameters.reseedInterval = some interval →
    0 < interval ∧ interval ≤ p.scheme.maxReseedInterval
  personalization : (p.parameters.personalization.getD []).length ≤ maxInputLength

variable {p : Plan} {entropyBits : ℕ}

theorem Valid.instantiable (valid : p.Valid entropyBits) : p.Instantiable := by
  obtain ⟨supported, primitive, found, within⟩ := valid.supported
  exact ⟨Scheme.available_of_supported found within, valid.interval, valid.personalization⟩

theorem Instantiable.intervalRange (instantiable : p.Instantiable) :
    0 < p.parameters.reseedInterval.getD p.scheme.maxReseedInterval ∧
      p.parameters.reseedInterval.getD p.scheme.maxReseedInterval ≤ p.scheme.maxReseedInterval := by
  cases given : p.parameters.reseedInterval with
  | some interval => exact instantiable.interval interval given
  | none => exact ⟨p.scheme.maxReseedInterval_pos, le_rfl⟩

theorem Instantiable.passes (instantiable : p.Instantiable) :
    ∃ a, p.scheme.algorithm p.parameters.securityStrength = .ok a ∧
      ¬ (p.parameters.reseedInterval.getD a.maxReseedInterval = 0 ∨
        a.maxReseedInterval < p.parameters.reseedInterval.getD a.maxReseedInterval) ∧
      ¬ maxInputLength < (p.parameters.personalization.getD []).length := by
  obtain ⟨a, chosen⟩ := Scheme.available_iff.mp instantiable.available
  refine ⟨a, chosen, ?_, not_lt.mpr instantiable.personalization⟩
  have := instantiable.intervalRange
  rw [Scheme.maxReseedInterval_of_algorithm chosen]
  omega

section

variable {σ ω : Type} [SeedSource σ ω] {source rest : σ} {w world : ω}

/-- A plan that passes the checks of an instantiation is carried out with the strength that it asks
for, on any source that yields enough entropy. -/
theorem Instantiable.instantiate {entropy : Bytes} (instantiable : p.Instantiable)
    (fetched : Seeded.fetchSeed p.parameters.securityStrength source w =
      (.ok entropy, rest, world)) :
    ∃ m, p.instantiate source w = (.ok m, world) ∧ m.source = rest ∧
      m.securityStrength = p.parameters.securityStrength := by
  obtain ⟨a, chosen, range, short⟩ := instantiable.passes
  simp only [Plan.instantiate, chosen, Seeded.instantiate, if_neg range, if_neg short, fetched]
  exact ⟨_, rfl, rfl, rfl⟩

/-- On any other source it fails for want of entropy. -/
theorem Instantiable.instantiate_of_unavailable {cause : EntropyFailure}
    (instantiable : p.Instantiable)
    (fetched : Seeded.fetchSeed p.parameters.securityStrength source w =
      (.error cause, rest, world)) :
    p.instantiate source w = (.error (.entropyUnavailable cause), world) := by
  obtain ⟨a, chosen, range, short⟩ := instantiable.passes
  simp only [Plan.instantiate, chosen, Seeded.instantiate, if_neg range, if_neg short, fetched]

/-- A valid plan is carried out on any source that yields enough entropy. -/
theorem instantiate_of_valid {entropy : Bytes} (valid : p.Valid entropyBits)
    (fetched : Seeded.fetchSeed p.parameters.securityStrength source w =
      (.ok entropy, rest, world)) :
    ∃ m, p.instantiate source w = (.ok m, world) ∧ m.source = rest := by
  obtain ⟨m, made, left, -⟩ := valid.instantiable.instantiate fetched
  exact ⟨m, made, left⟩

theorem instantiate_of_unavailable {cause : EntropyFailure} (valid : p.Valid entropyBits)
    (fetched : Seeded.fetchSeed p.parameters.securityStrength source w =
      (.error cause, rest, world)) :
    p.instantiate source w = (.error (.entropyUnavailable cause), world) :=
  valid.instantiable.instantiate_of_unavailable fetched

end

end Plan

namespace Builder

variable {b : Builder} {order : Order} {nonce : Bytes} {plan : Plan}

/-- A plan is checked exactly if it is the plan of the scheme that was ordered, and valid. -/
theorem checkedPlan_eq_ok_iff :
    b.checkedPlan order nonce = .ok plan ↔
      ∃ scheme, order.scheme = .ok scheme ∧ plan = b.plan scheme nonce ∧
        plan.Valid b.config.entropyBits := by
  simp only [checkedPlan, bind_eq_ok_iff]
  constructor
  · rintro ⟨scheme, asked, ⟨⟩, validated, same⟩
    cases same
    exact ⟨scheme, asked, rfl, (Plan.validate_eq_ok_iff ..).mp validated⟩
  · rintro ⟨scheme, asked, rfl, valid⟩
    exact ⟨scheme, asked, (), (Plan.validate_eq_ok_iff ..).mpr valid, rfl⟩

end Builder

end RandomBits
