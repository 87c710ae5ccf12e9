import Mathlib
import RandomBits.Proofs.Cores
import RandomBits.Proofs.Derivation

/-! # The working states that a core can reach

Main statement: whatever a core is seeded with and asked for, the byte strings of its working state
keep the lengths of its algorithm, and the scalar of Dual_EC_DRBG keeps to the bits of its curve
(`Core.Reachable.shaped`). Each of the four cores has one lemma for every way to move on.
-/

namespace RandomBits

/-- The length in bytes of the Hash_DRBG seed. -/
def Digest.seedLength (d : Digest) : ℕ := d.seedBits / 8

theorem Digest.blocksFor_seedBits (d : Digest) : blocksFor d.seedBits 8 = d.seedLength := by
  cases d <;> rfl

theorem Digest.eight_mul_seedLength (d : Digest) : 8 * d.seedLength = d.seedBits := by
  cases d <;> rfl

namespace HashDrbg

/-- Value and constant have the seed length. -/
structure Shaped (s : HashDrbg) : Prop where
  v : s.v.length = s.digest.seedLength
  c : s.c.length = s.digest.seedLength

theorem shaped_ofValue {d : Digest} {v : Bytes} (length : v.length = d.seedLength) :
    (ofValue d v).Shaped where
  v := length
  c := (Digest.length_hashDf ..).trans d.blocksFor_seedBits

theorem shaped_instantiate (d : Digest) (entropy nonce personalization : Bytes) :
    (instantiate d entropy nonce personalization).Shaped :=
  shaped_ofValue ((Digest.length_hashDf ..).trans d.blocksFor_seedBits)

theorem shaped_reseed (s : HashDrbg) (entropy additional : Bytes) :
    (s.reseed entropy additional).Shaped :=
  shaped_ofValue ((Digest.length_hashDf ..).trans s.digest.blocksFor_seedBits)

theorem length_startValue (s : HashDrbg) (additional : Bytes) :
    (s.startValue additional).length = s.v.length := by
  unfold startValue
  split
  · rfl
  · exact Bytes.length_add ..

theorem Shaped.generate {s : HashDrbg} (shaped : s.Shaped) (length : ℕ) (additional : Bytes)
    (counter : ℕ) : (s.generate length additional counter).2.Shaped where
  v := by
    simp only [HashDrbg.generate, Bytes.length_add, length_startValue]
    exact shaped.v
  c := shaped.c

end HashDrbg

namespace HmacDrbg

/-- Key and value have the length of a digest. -/
structure Shaped (s : HmacDrbg) : Prop where
  key : s.key.length = s.digest.outputLength
  v : s.v.length = s.digest.outputLength

theorem shaped_round (s : HmacDrbg) (separator : UInt8) (data : List Bytes) :
    (s.round separator data).Shaped where
  key := Digest.length_hmac ..
  v := Digest.length_hmac ..

/-- An update replaces key and value by authentication codes. -/
theorem shaped_update (s : HmacDrbg) (data : List Bytes) : (s.update data).Shaped := by
  unfold update
  split <;> exact shaped_round ..

end HmacDrbg

namespace CtrDrbg

/-- The key has the length of its size, and the counter that of a block. -/
structure Shaped (s : CtrDrbg) : Prop where
  key : s.key.length = s.size.keyLength
  v : s.v.length = Aes.blockLength

/-- Key stream never falls short. -/
@[simp] theorem length_keyStream (s : CtrDrbg) (length : ℕ) :
    (s.keyStream length).1.length = length :=
  (blocks _).length_emitBytes trivial length

/-- Output increments the counter in its place. -/
@[simp] theorem length_counter_keyStream (s : CtrDrbg) (length : ℕ) :
    (s.keyStream length).2.length = s.v.length :=
  emit_preserves List.length (fun v => Bytes.length_increment v) _ _

/-- An update with a whole seed yields a whole key and a whole counter. -/
theorem shaped_update (s : CtrDrbg) {data : Bytes} (whole : data.length = s.size.seedLength) :
    (s.update data).Shaped where
  key := by
    simp [update, whole, Aes.KeySize.seedLength]
  v := by
    simp [update, whole, Aes.KeySize.seedLength]

/-- Additional input is always made into a whole seed. -/
@[simp] theorem length_derivedInput (s : CtrDrbg) (additional : Bytes) :
    (s.derivedInput additional).length = s.size.seedLength := by
  unfold derivedInput
  split <;> simp

theorem shaped_generate (s : CtrDrbg) (length : ℕ) (additional : Bytes) :
    (s.generate length additional).2.Shaped := by
  refine shaped_update _ ?_
  rw [length_derivedInput]
  dsimp only
  split <;> rfl

end CtrDrbg

namespace Curve

theorem prime_lt (c : Curve) : c.prime < 2 ^ c.seedBits := by
  cases c <;> decide +kernel

/-- The bytes of a coordinate have room for the bits of a seed. -/
theorem seedBits_le (c : Curve) : c.seedBits ≤ 8 * c.fieldLength := by
  cases c <;> decide

theorem outputLength_le (c : Curve) : c.outputLength ≤ c.fieldLength := by
  cases c <;> decide

/-- A byte string is a scalar of a curve, right-aligned in the bytes of a coordinate. -/
structure IsScalar (c : Curve) (k : Bytes) : Prop where
  length : k.length = c.fieldLength
  lt : k.toNat < 2 ^ c.seedBits

/-- Coordinates are reduced, so they can serve as scalars again. -/
theorem isScalar_of_xOfMultiple {c : Curve} {base : Coordinates} {k x : Bytes}
    (found : c.xOfMultiple base k = .ok x) : c.IsScalar x where
  length := length_of_xOfMultiple found
  lt := by
    unfold xOfMultiple at found
    split at found
    next => cases found
    next =>
      dsimp only at found
      split at found
      next => cases found
      next x affine =>
        obtain rfl := Except.ok.inj found
        unfold Jacobian.affineX? at affine
        split at affine
        next => cases affine
        next =>
          obtain rfl := Option.some.inj affine
          have reduced {n : ℕ} : n % c.prime < c.prime := Nat.mod_lt _ (by cases c <;> decide +kernel)
          rw [Bytes.toNat_ofNat]
          exact (Nat.mod_le ..).trans_lt (reduced.trans c.prime_lt)

theorem isScalar_of_xOfP {c : Curve} {k x : Bytes} (found : c.xOfP k = .ok x) : c.IsScalar x :=
  isScalar_of_xOfMultiple found

theorem isScalar_of_xOfQ {c : Curve} {k x : Bytes} (found : c.xOfQ k = .ok x) : c.IsScalar x := by
  unfold xOfQ at found
  split at found
  · exact isScalar_of_xOfMultiple found
  · cases found

end Curve

namespace DualEcDrbg

/-- The working state is a scalar of its curve. -/
def Shaped (g : DualEcDrbg) : Prop := g.curve.IsScalar g.s

theorem isScalar_derive (d : Digest) (c : Curve) (data : List Bytes) :
    c.IsScalar (derive d c data) where
  length := Digest.length_hashDf ..
  lt := by
    rw [derive, Digest.toNat_hashDf]
    exact d.derived_lt ..

/-- Additional input is mixed in within the bits of a scalar. -/
theorem Shaped.startScalar {g : DualEcDrbg} (shaped : g.Shaped) (additional : Bytes) :
    g.curve.IsScalar (g.startScalar additional) := by
  unfold DualEcDrbg.startScalar
  split
  next => exact shaped
  next =>
    have derived := isScalar_derive g.digest g.curve [additional]
    have length := shaped.length.trans derived.length.symm
    constructor
    · rw [Bytes.length_xor, ← length, min_self, shaped.length]
    · rw [Bytes.toNat_xor length]
      exact Nat.xor_lt_two_pow shaped.lt derived.lt

theorem isScalar_of_nextScalar {g : DualEcDrbg} {length : ℕ} {additional s : Bytes}
    (moved : g.nextScalar length additional = .ok s) : g.curve.IsScalar s := by
  obtain ⟨t, -, stepped⟩ := bind_eq_ok_iff.mp moved
  exact Curve.isScalar_of_xOfP stepped

/-- A request leads to a scalar, or leaves the one that there was. -/
theorem Shaped.generate {g : DualEcDrbg} (shaped : g.Shaped) (length : ℕ) (additional : Bytes) :
    (g.generate length additional).2.2.Shaped := by
  cases outcome : g.nextScalar length additional with
  | ok s =>
    have scalar : g.curve.IsScalar s := isScalar_of_nextScalar outcome
    rw [generate_of_moved outcome]
    exact scalar
  | error fault =>
    rw [generate_of_fault outcome]
    exact shaped

end DualEcDrbg

namespace Core

/-- The working states that an algorithm can get into: those that it is seeded with, and those that
reseeds and output lead to, output that stops at a fault included. -/
inductive Reachable (a : Algorithm) : Core → Prop
  | instantiated (entropy nonce personalization : Bytes) :
      Reachable a (.instantiate a entropy nonce personalization)
  | reseeded {c : Core} (reached : Reachable a c) (entropy additional : Bytes) :
      Reachable a (c.reseed entropy additional)
  | generated {c next : Core} {length counter : ℕ} {additional written : Bytes}
      {result : Except Fault Unit} (reached : Reachable a c)
      (ran : c.generate length additional counter = (written, result, next)) : Reachable a next

/-- A working state has the shape that its algorithm asks for. -/
def Shaped : Core → Prop
  | hash s => s.Shaped
  | hmac s => s.Shaped
  | ctr s => s.Shaped
  | dualEc s => s.Shaped

theorem shaped_instantiate (a : Algorithm) (entropy nonce personalization : Bytes) :
    (instantiate a entropy nonce personalization).Shaped := by
  cases a with
  | hash d => exact HashDrbg.shaped_instantiate ..
  | hmac d => exact HmacDrbg.shaped_update ..
  | ctr size => exact CtrDrbg.shaped_update _ (Aes.length_blockCipherDf ..)
  | dualEc d c => exact DualEcDrbg.isScalar_derive ..

theorem shaped_reseed (c : Core) (entropy additional : Bytes) :
    (c.reseed entropy additional).Shaped := by
  cases c with
  | hash s => exact s.shaped_reseed ..
  | hmac s => exact s.shaped_update _
  | ctr s => exact s.shaped_update (Aes.length_blockCipherDf ..)
  | dualEc s => exact DualEcDrbg.isScalar_derive ..

/-- Output leaves a state of the same shape. -/
theorem Shaped.of_generate {c next : Core} {length counter : ℕ} {additional written : Bytes}
    {result : Except Fault Unit} (shaped : c.Shaped)
    (ran : c.generate length additional counter = (written, result, next)) : next.Shaped := by
  cases c with
  | hash s =>
    cases ran
    exact HashDrbg.Shaped.generate shaped length additional counter
  | hmac s =>
    cases ran
    exact HmacDrbg.shaped_update ..
  | ctr s =>
    cases ran
    exact s.shaped_generate ..
  | dualEc s =>
    cases ran
    exact DualEcDrbg.Shaped.generate shaped length additional

namespace Reachable

variable {a : Algorithm} {c : Core}

theorem algorithm (reached : Reachable a c) : c.algorithm = a := by
  induction reached with
  | instantiated => exact algorithm_instantiate ..
  | reseeded _ _ _ ih => exact (algorithm_reseed ..).trans ih
  | generated _ ran ih => exact (algorithm_of_generate ran).trans ih

/-- Every working state that can be reached has the shape of its algorithm. -/
theorem shaped (reached : Reachable a c) : c.Shaped := by
  induction reached with
  | instantiated => exact shaped_instantiate ..
  | reseeded => exact shaped_reseed ..
  | generated _ ran ih => exact ih.of_generate ran

end Reachable

end Core

end RandomBits
