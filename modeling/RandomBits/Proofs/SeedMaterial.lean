import Mathlib
import RandomBits.Mechanism.Plan
import RandomBits.Proofs.MessageChain

/-! # Seed material counts as a concatenation

Every core takes its seed material in parts: a list that is hashed, a list whose emptiness decides on a
second round, a message with its length in front, a list behind the old scalar. Main statement: none of
them can tell where one part ends and the next begins, so cores that were seeded with the same
concatenations answer alike for ever after (`Core.material_concatenated`).
-/

namespace RandomBits

variable {parts others : List Bytes}

/-- What is derived depends on the concatenation of the parts. -/
theorem Digest.hashDf_congr (d : Digest) (bits : ℕ) (same : parts.flatten = others.flatten) :
    d.hashDf parts bits = d.hashDf others bits := by
  have steps : d.derivationStep bits parts = d.derivationStep bits others := by
    funext counter
    have messages : d.hash ([counter] :: Bytes.ofNat 4 bits :: parts) =
        d.hash ([counter] :: Bytes.ofNat 4 bits :: others) :=
      d.hash_congr (by rw [List.flatten_cons, List.flatten_cons, same]; rfl)
    rw [derivationStep, derivationStep, messages]
  rw [hashDf, hashDf, steps]

/-- Whether there is a second round depends on the concatenation, too. -/
theorem HmacDrbg.update_congr (s : HmacDrbg) (same : parts.flatten = others.flatten) :
    s.update parts = s.update others := by
  rw [update_eq_absorb, update_eq_absorb, same]

theorem Aes.blockCipherDf_congr (size : KeySize) (same : parts.flatten = others.flatten) :
    blockCipherDf size parts = blockCipherDf size others := by
  rw [← blockCipherDf_flatten size parts, ← blockCipherDf_flatten size others, same]

namespace Core

variable {entropy nonce personalization additional entropy' nonce' personalization' additional' : Bytes}

/-- Seeds of one concatenation are one seed. -/
theorem instantiate_congr (a : Algorithm)
    (same : entropy ++ nonce ++ personalization = entropy' ++ nonce' ++ personalization') :
    instantiate a entropy nonce personalization = instantiate a entropy' nonce' personalization' := by
  have parts : [entropy, nonce, personalization].flatten =
      [entropy', nonce', personalization'].flatten := by
    simpa using same
  cases a with
  | hash d => exact congrArg (fun v => hash (HashDrbg.ofValue d v)) (d.hashDf_congr _ parts)
  | hmac d => exact congrArg hmac (HmacDrbg.update_congr _ parts)
  | ctr size =>
    exact congrArg (fun data => ctr (CtrDrbg.update _ data)) (Aes.blockCipherDf_congr size parts)
  | dualEc d c => exact congrArg (fun s => dualEc ⟨d, c, s⟩) (d.hashDf_congr _ parts)

/-- Entropy and additional input of one concatenation reseed alike, from whatever state. -/
theorem reseed_congr (c : Core) (same : entropy ++ additional = entropy' ++ additional') :
    c.reseed entropy additional = c.reseed entropy' additional' := by
  have parts : [entropy, additional].flatten = [entropy', additional'].flatten := by
    simpa using same
  cases c with
  | hash s =>
    have behind : [[0x01], s.v, entropy, additional].flatten =
        [[0x01], s.v, entropy', additional'].flatten := by
      simpa using same
    exact congrArg (fun v => hash (HashDrbg.ofValue s.digest v)) (s.digest.hashDf_congr _ behind)
  | hmac s => exact congrArg hmac (s.update_congr parts)
  | ctr s => exact congrArg (fun data => ctr (s.update data)) (Aes.blockCipherDf_congr s.size parts)
  | dualEc s =>
    have behind : [DualEcDrbg.pad8 s.curve s.s, entropy, additional].flatten =
        [DualEcDrbg.pad8 s.curve s.s, entropy', additional'].flatten := by
      simpa using same
    exact congrArg (fun next => dualEc { s with s := next }) (s.digest.hashDf_congr _ behind)

inductive Task
  | reseed (entropy additional : Bytes)
  | generate (length : ℕ) (additional : Bytes) (counter : ℕ)

/-- Tasks that are the same, up to where the entropy of a reseed ends and its additional input
begins. -/
inductive Task.Regrouped : Task → Task → Prop
  | reseed {entropy additional entropy' additional' : Bytes}
      (same : entropy ++ additional = entropy' ++ additional') :
      Regrouped (.reseed entropy additional) (.reseed entropy' additional')
  | generate (length : ℕ) (additional : Bytes) (counter : ℕ) :
      Regrouped (.generate length additional counter) (.generate length additional counter)

/-- What comes of a task: the output, whether there was a fault, and the core afterwards. -/
def serve (c : Core) : Task → (Bytes × Except Fault Unit) × Core
  | .reseed entropy additional => (([], .ok ()), c.reseed entropy additional)
  | .generate length additional counter =>
    let (written, result, next) := c.generate length additional counter
    ((written, result), next)

def run : List Task → Core → List (Bytes × Except Fault Unit) × Core
  | [], c => ([], c)
  | task :: rest, c =>
    let (answer, next) := c.serve task
    let (answers, last) := run rest next
    (answer :: answers, last)

theorem serve_congr (c : Core) {task other : Task} (regrouped : task.Regrouped other) :
    c.serve task = c.serve other := by
  cases regrouped with
  | reseed same => simp only [serve, c.reseed_congr same]
  | generate length additional counter => rfl

/-- A whole run cannot tell how the material of its reseeds was divided. -/
theorem run_congr {tasks others : List Task} (regrouped : List.Forall₂ Task.Regrouped tasks others)
    (c : Core) : run tasks c = run others c := by
  induction regrouped generalizing c with
  | nil => rfl
  | cons head _ ih => simp only [run, c.serve_congr head, ih]

end Core

def Plan.withPersonalization (p : Plan) (personalization : Option Bytes) : Plan :=
  { p with parameters := { p.parameters with personalization } }

/-- Seed material counts as a concatenation. Cores that are instantiated or reseeded with the same bytes
are the same, however these bytes are divided, so a whole run puts out the same and ends in the same
state, even if the material of all its reseeds is divided otherwise. To have no personalization string is
to have an empty one: the same mechanism is made from the same fetches, or the same failure is reported. -/
theorem Core.material_concatenated :
    (∀ (a : Algorithm) (entropy nonce personalization entropy' nonce' personalization' : Bytes),
      entropy ++ nonce ++ personalization = entropy' ++ nonce' ++ personalization' →
        instantiate a entropy nonce personalization =
          instantiate a entropy' nonce' personalization') ∧
    (∀ (c : Core) (entropy additional entropy' additional' : Bytes),
      entropy ++ additional = entropy' ++ additional' →
        c.reseed entropy additional = c.reseed entropy' additional') ∧
    (∀ (c d : Core) (tasks others : List Task), c = d → List.Forall₂ Task.Regrouped tasks others →
      run tasks c = run others d) ∧
    ∀ (σ ω : Type) [SeedSource σ ω] (p : Plan) (source : σ) (w : ω),
      let absent := p.withPersonalization none
      let empty := p.withPersonalization (some [])
      (∀ entropyBits, absent.validate entropyBits = empty.validate entropyBits) ∧
        absent.instantiate source w = empty.instantiate source w ∧
        ∀ a, Seeded.instantiate a absent.parameters source w =
          Seeded.instantiate a empty.parameters source w := by
  refine ⟨?_, ?_, ?_, ?_⟩
  · intro a _ _ _ _ _ _ same
    exact instantiate_congr a same
  · intro c _ _ _ _ same
    exact c.reseed_congr same
  · rintro c d tasks others rfl regrouped
    exact run_congr regrouped c
  · intro σ ω _ p source w absent empty
    exact ⟨fun entropyBits => rfl, rfl, fun a => rfl⟩

/-- HMAC_DRBG is seeded with one string and with its bytes spread out behind an empty part, and is told to
reseed with entropy that is taken for additional input. -/
theorem Core.material_concatenated_empty_parts :
    let c := instantiate (.hmac .sha256) [1, 2, 3] [] []
    let d := instantiate (.hmac .sha256) [] [1] [2, 3]
    let tasks : List Task := [.generate 20 [5] 1, .reseed [4] [], .generate 40 [] 1]
    let others : List Task := [.generate 20 [5] 1, .reseed [] [4], .generate 40 [] 1]
    [1, 2, 3] ++ [] ++ [] = [] ++ [1] ++ ([2, 3] : Bytes) ∧ c = d ∧
      c.reseed [4] [] = c.reseed [] [4] ∧ List.Forall₂ Task.Regrouped tasks others ∧
      run tasks c = run others d := by
  intro c d tasks others
  have same : [1, 2, 3] ++ [] ++ [] = [] ++ [1] ++ ([2, 3] : Bytes) := rfl
  have regrouped : List.Forall₂ Task.Regrouped tasks others :=
    .cons (.generate 20 [5] 1) (.cons (.reseed rfl) (.cons (.generate 40 [] 1) .nil))
  obtain ⟨seeded, reseeded, ran, -⟩ := material_concatenated
  have cores : c = d := seeded (.hmac .sha256) [1, 2, 3] [] [] [] [1] [2, 3] same
  exact ⟨same, cores, reseeded c [4] [] [] [4] rfl, regrouped, ran c d tasks others cores regrouped⟩

end RandomBits
