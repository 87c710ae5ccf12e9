import Mathlib
import RandomBits.Proofs.LeftmostBits
import RandomBits.Proofs.ScalarWalk

/-! # Scalars aligned to the left

A scalar of Dual_EC_DRBG is kept right-aligned in the bytes of a coordinate, and goes into a reseed
left-aligned. Main statement: the shift byte by byte that aligns it to the left loses no bit, so
different states have different images, and it gives back the bits of the digests that a scalar was
derived from (`DualEcDrbg.pad8_aligns_left`).
-/

namespace RandomBits

private theorem ofBits_append_replicate (bits : List Bool) (count : ℕ) :
    ofBits (bits ++ List.replicate count false) = 2 ^ count * ofBits bits := by
  have zero : ofBits (List.replicate count false) = 0 := by
    rw [← List.append_nil (List.replicate count false), ofBits_replicate_append]
    rfl
  rw [ofBits_append, List.length_replicate, zero, Nat.add_zero]

/-- Byte strings have the bits that stand for their number. -/
private theorem Bytes.bits_eq_of_toNat_eq {b : Bytes} {bits : List Bool} (length : 8 * b.length = bits.length)
    (same : b.toNat = ofBits bits) : b.bits = bits :=
  eq_of_ofBits_eq (by rw [length_bits, length]) (by rw [ofBits_bits, same])

namespace Curve

variable (c : Curve)

/-- The number of bits in the bytes of a coordinate that a scalar leaves free. -/
def spareBits : ℕ := 8 * c.fieldLength - c.seedBits

private theorem spareBits_lt : c.spareBits < 8 := by cases c <;> decide

private theorem seedBits_add_spareBits : c.seedBits + c.spareBits = 8 * c.fieldLength :=
  Nat.add_sub_cancel' c.seedBits_le

end Curve

/-- A string of bytes holds the bits of a scalar at its left end. -/
structure AlignsLeft (c : Curve) (s padded : Bytes) : Prop where
  length : padded.length = c.fieldLength
  value : padded.toNat = s.toNat * 2 ^ c.spareBits
  /-- The spare bits move from the front to the end. -/
  bits : s.bits = List.replicate c.spareBits false ++ padded.bits.take c.seedBits ∧
    padded.bits = s.bits.drop c.spareBits ++ List.replicate c.spareBits false
  /-- The shift that aligns derived scalars to the right takes it back. -/
  undone : padded.shiftRight c.spareBits = s

namespace DualEcDrbg

variable {c : Curve} {s t : Bytes}

/-- The left end has room for all bits of a scalar. -/
theorem toNat_pad8 (scalar : c.IsScalar s) : (pad8 c s).toNat = s.toNat * 2 ^ c.spareBits := by
  have room : s.toNat * 2 ^ c.spareBits < 256 ^ c.fieldLength := by
    rw [Bytes.pow_256, ← c.seedBits_add_spareBits, Nat.pow_add]
    exact Nat.mul_lt_mul_of_pos_right scalar.lt (by positivity)
  rw [pad8, Bytes.toNat_shiftLeft, scalar.length]
  exact Nat.mod_eq_of_lt room

theorem length_pad8 (scalar : c.IsScalar s) : (pad8 c s).length = c.fieldLength := by
  rw [pad8, Bytes.length_shiftLeft, scalar.length]

theorem shiftRight_pad8 (scalar : c.IsScalar s) : (pad8 c s).shiftRight c.spareBits = s := by
  apply Bytes.eq_of_toNat_eq
  · rw [Bytes.length_shiftRight, length_pad8 scalar, scalar.length]
  · rw [Bytes.toNat_shiftRight c.spareBits_lt.le, toNat_pad8 scalar, Nat.mul_div_cancel _ (by positivity)]

theorem pad8_injOn (c : Curve) : Set.InjOn (pad8 c) {s | c.IsScalar s} := by
  intro s scalar t other same
  rw [← shiftRight_pad8 scalar, same, shiftRight_pad8 other]

/-- The bits in front of a scalar are zero. -/
theorem bits_eq_replicate_append (scalar : c.IsScalar s) :
    s.bits = List.replicate c.spareBits false ++ s.bits.drop c.spareBits := by
  have room : s.bits.length = c.spareBits + c.seedBits := by
    rw [Bytes.length_bits, scalar.length, Nat.add_comm, c.seedBits_add_spareBits]
  have front : ofBits (s.bits.take c.spareBits) = 0 := by
    rw [ofBits_take room, Bytes.ofBits_bits, Nat.div_eq_of_lt scalar.lt]
  apply eq_of_ofBits_eq
  · simp [room]
  · conv_lhs => rw [← List.take_append_drop c.spareBits s.bits, ofBits_append, front]
    rw [ofBits_replicate_append, Nat.mul_zero, Nat.zero_add]

theorem bits_pad8 (scalar : c.IsScalar s) :
    (pad8 c s).bits = s.bits.drop c.spareBits ++ List.replicate c.spareBits false := by
  have value : ofBits (s.bits.drop c.spareBits) = s.toNat := by
    rw [← ofBits_replicate_append c.spareBits, ← bits_eq_replicate_append scalar, Bytes.ofBits_bits]
  apply Bytes.bits_eq_of_toNat_eq
  · have room := c.seedBits_add_spareBits
    simp only [length_pad8 scalar, List.length_append, List.length_drop, Bytes.length_bits,
      scalar.length, List.length_replicate]
    omega
  · rw [toNat_pad8 scalar, ofBits_append_replicate, value, Nat.mul_comm]

theorem alignsLeft (scalar : c.IsScalar s) : AlignsLeft c s (pad8 c s) where
  length := length_pad8 scalar
  value := toNat_pad8 scalar
  bits := by
    have room : (s.bits.drop c.spareBits).length = c.seedBits := by
      rw [List.length_drop, Bytes.length_bits, scalar.length, ← c.seedBits_add_spareBits,
        Nat.add_sub_cancel]
    refine ⟨?_, bits_pad8 scalar⟩
    rw [bits_pad8 scalar, List.take_left' room]
    exact bits_eq_replicate_append scalar
  undone := shiftRight_pad8 scalar

/-- What a scalar was derived from is seen again at the left end. -/
private theorem bits_pad8_hashDf (c : Curve) (d : Digest) (parts : List Bytes) {count : ℕ}
    (enough : c.seedBits ≤ count * (8 * d.outputLength)) :
    (pad8 c (d.hashDf parts c.seedBits)).bits =
      (d.digests c.seedBits parts.flatten count).bits.take c.seedBits ++
        List.replicate c.spareBits false := by
  have scalar : c.IsScalar (d.hashDf parts c.seedBits) := isScalar_derive d c parts
  have covered : c.seedBits ≤ (d.digests c.seedBits parts.flatten count).bits.length := by
    rw [Bytes.length_bits, Digest.length_digests, Nat.mul_left_comm]
    exact enough
  apply Bytes.bits_eq_of_toNat_eq
  · rw [length_pad8 scalar, List.length_append, List.length_take_of_le covered, List.length_replicate,
      c.seedBits_add_spareBits]
  · rw [toNat_pad8 scalar, d.toNat_hashDf, d.derived_eq_ofBits enough, ofBits_append_replicate,
      Nat.mul_comm]

/-- Alignment to the left keeps every bit of a scalar. It multiplies the number of a scalar by the power
of two that fills its bytes, so scalars with one image are one scalar, and all states that can be reached
are scalars. Of a derived scalar it shows the leftmost bits of the string of digests, and zero bits behind
them. -/
theorem pad8_aligns_left (c : Curve) :
    (∀ s, c.IsScalar s → AlignsLeft c s (pad8 c s)) ∧
      Set.InjOn (pad8 c) {s | c.IsScalar s} ∧
      (∀ (d : Digest) (g : DualEcDrbg), Core.Reachable (.dualEc d c) (.dualEc g) → c.IsScalar g.s) ∧
      ∀ (d : Digest) (parts : List Bytes) (count : ℕ), c.seedBits ≤ count * (8 * d.outputLength) →
        (pad8 c (d.hashDf parts c.seedBits)).bits =
          (d.digests c.seedBits parts.flatten count).bits.take c.seedBits ++
            List.replicate c.spareBits false := by
  refine ⟨fun s scalar => alignsLeft scalar, pad8_injOn c, fun d g reached => ?_,
    fun d parts count enough => bits_pad8_hashDf c d parts enough⟩
  have shaped : g.Shaped := reached.shaped
  obtain ⟨-, rfl⟩ : g.digest = d ∧ g.curve = c := Algorithm.dualEc.inj reached.algorithm
  exact shaped

/-- The largest scalar of P-521 moves by seven bits, and so does the one that is derived from a seed with
SHA-256, of which it takes three digests. -/
theorem pad8_aligns_left_p521 :
    let largest : Bytes := 0x01 :: List.replicate 65 0xff
    let g := instantiate .sha256 .p521 (Bytes.zeros 32) [1] []
    Curve.p521.IsScalar largest ∧ AlignsLeft .p521 largest (pad8 .p521 largest) ∧
      pad8 .p521 largest = List.replicate 65 0xff ++ [0x80] ∧
      Core.Reachable (.dualEc .sha256 .p521) (.dualEc g) ∧ Curve.p521.IsScalar g.s ∧
      521 ≤ 3 * (8 * Digest.sha256.outputLength) ∧
      (pad8 .p521 g.s).bits =
        (Digest.sha256.digests 521 (Bytes.zeros 32 ++ [1]) 3).bits.take 521 ++
          List.replicate 7 false := by
  intro largest g
  obtain ⟨aligned, -, scalars, derived⟩ := pad8_aligns_left .p521
  have scalar : Curve.p521.IsScalar largest := ⟨by decide, by decide +kernel⟩
  have reached : Core.Reachable (.dualEc .sha256 .p521) (.dualEc g) :=
    .instantiated (Bytes.zeros 32) [1] []
  have enough : 521 ≤ 3 * (8 * Digest.sha256.outputLength) := by decide
  exact ⟨scalar, aligned largest scalar, by decide +kernel, reached, scalars .sha256 g reached, enough,
    derived .sha256 [Bytes.zeros 32, [1], []] 3 enough⟩

end DualEcDrbg

end RandomBits
