import Mathlib
import RandomBits.Proofs.Derivation

/-! # Hash_df bit by bit

The standard describes Hash_df by strings of bits: the leftmost bits of a string of digests under a
counter. Main statement: the seed that is cut and shifted byte by byte has these bits, behind zero bits
where they do not fill its first byte (`Digest.derives_leftmost_bits`).
-/

namespace RandomBits

/-! ## Strings of bits -/

/-- The number that bits stand for, the most significant one first. -/
def ofBits (bits : List Bool) : ℕ := Nat.ofDigits 2 (bits.reverse.map Bool.toNat)

/-- The bits behind others are the low-order digits. -/
theorem ofBits_append (a b : List Bool) :
    ofBits (a ++ b) = 2 ^ b.length * ofBits a + ofBits b := by
  rw [ofBits, List.reverse_append, List.map_append, Nat.ofDigits_append, List.length_map,
    List.length_reverse, Nat.add_comm]
  rfl

private theorem digit_lt {bits : List Bool} {digit : ℕ} (member : digit ∈ bits.map Bool.toNat) :
    digit < 2 := by
  obtain ⟨bit, -, rfl⟩ := List.mem_map.mp member
  exact Bool.toNat_lt bit

private theorem ofBits_lt (bits : List Bool) : ofBits bits < 2 ^ bits.length := by
  have digits (digit : ℕ) (member : digit ∈ bits.reverse.map Bool.toNat) : digit < 2 :=
    digit_lt member
  have lt := Nat.ofDigits_lt_base_pow_length (b := 2) (by decide) digits
  rwa [List.length_map, List.length_reverse] at lt

/-- Zero bits in front do not count. -/
theorem ofBits_replicate_append (count : ℕ) (bits : List Bool) :
    ofBits (List.replicate count false ++ bits) = ofBits bits := by
  rw [ofBits, List.reverse_append, List.reverse_replicate, List.map_append, List.map_replicate]
  exact Nat.ofDigits_append_replicate_zero _

/-- Strings of bits of one length are told apart by their numbers. -/
theorem eq_of_ofBits_eq {a b : List Bool} (length : a.length = b.length)
    (same : ofBits a = ofBits b) : a = b := by
  have digits := Nat.ofDigits_inj_of_len_eq (by decide) (by simpa using length)
    (fun _ => digit_lt) (fun _ => digit_lt) same
  have told := List.map_injective_iff.mpr (Function.LeftInverse.injective Bool.ofNat_toNat)
  exact List.reverse_injective (told digits)

/-- The bits in front are the number without the digits behind them. -/
theorem ofBits_take {bits : List Bool} {count rest : ℕ} (length : bits.length = count + rest) :
    ofBits (bits.take count) = ofBits bits / 2 ^ rest := by
  have dropped : (bits.drop count).length = rest := by
    rw [List.length_drop, length]
    omega
  have small := ofBits_lt (bits.drop count)
  conv_rhs => rw [← List.take_append_drop count bits, ofBits_append]
  rw [dropped] at small ⊢
  rw [Nat.mul_add_div (by positivity), Nat.div_eq_of_lt small, Nat.add_zero]

namespace Bytes

/-- The bits of a byte string from left to right. Every byte begins with its most significant bit. -/
def bits (b : Bytes) : List Bool :=
  b.flatMap fun x => (List.range 8).map fun i => x.toNat.testBit (7 - i)

@[simp] theorem length_bits (b : Bytes) : b.bits.length = 8 * b.length := by
  simp [bits, Nat.mul_comm]

private theorem ofBits_byte (x : UInt8) :
    ofBits ((List.range 8).map fun i => x.toNat.testBit (7 - i)) = x.toNat := by
  have small := x.toNat_lt
  simp only [ofBits, List.range_succ, List.range_zero, List.nil_append, List.cons_append,
    List.map_cons, List.map_nil, List.reverse_cons, List.reverse_nil, Nat.ofDigits_cons,
    Nat.ofDigits_nil, Nat.toNat_testBit, Nat.reduceSub]
  omega

/-- A byte string stands for the same number by its bits. -/
theorem ofBits_bits (b : Bytes) : ofBits b.bits = b.toNat := by
  induction b with
  | nil => rfl
  | cons x b ih =>
    rw [bits, List.flatMap_cons, ofBits_append, ofBits_byte, ← bits, ih, length_bits, toNat_cons,
      pow_256]

/-- The leftmost bits of a byte string as a number. -/
private theorem ofBits_take_bits {count : ℕ} {b : Bytes} (enough : count ≤ 8 * b.length) :
    ofBits (b.bits.take count) = b.leftmost count := by
  have length : b.bits.length = count + (8 * b.length - count) := by
    rw [length_bits]
    omega
  rw [ofBits_take length, ofBits_bits, leftmost]

end Bytes

namespace Digest

variable (d : Digest)

/-- A number of digests in a row: of a counter that starts with one, the number of bits that are asked
for in four bytes, and the message. -/
def digests (bits : ℕ) (message : Bytes) (count : ℕ) : Bytes :=
  (List.range count).flatMap fun i =>
    d.hash [Bytes.ofNat 1 (i + 1) ++ Bytes.ofNat 4 bits ++ message]

@[simp] theorem length_digests (bits : ℕ) (message : Bytes) (count : ℕ) :
    (d.digests bits message count).length = count * d.outputLength := by
  simp [digests]

theorem derivationString_eq (bits : ℕ) (message : Bytes) :
    d.derivationString bits message = d.digests bits message (blocksFor bits (8 * d.outputLength)) :=
  rfl

/-- A seed is the leftmost bits of digests, of whatever number of them that is large enough. -/
theorem derived_eq_ofBits {bits count : ℕ} (enough : bits ≤ count * (8 * d.outputLength))
    (message : Bytes) :
    d.derived bits message = ofBits ((d.digests bits message count).bits.take bits) := by
  have positive : 0 < 8 * d.outputLength := Nat.mul_pos (by decide) d.outputLength_pos
  have fewest := (blocksFor_le_iff positive).mpr enough
  obtain ⟨rest, more⟩ : d.digests bits message (blocksFor bits (8 * d.outputLength)) <+:
      d.digests bits message count := flatMap_range_prefix _ fewest
  have covered := d.le_length_derivationString bits message
  rw [derived, ← Bytes.ofBits_take_bits covered, ← more, ← derivationString_eq, Bytes.bits,
    Bytes.bits, List.flatMap_append, List.take_append_of_le_length]
  rw [← Bytes.bits, Bytes.length_bits]
  exact covered

/-- What the standard has for a seed of a number of bits that a message is hashed to. -/
structure DerivesLeftmost (bits : ℕ) (message seed : Bytes) : Prop where
  /-- There are as few bytes as hold the bits. -/
  length : seed.length = blocksFor bits 8
  /-- The bits are the leftmost ones of as many digests as it takes, or more, behind zero bits. -/
  aligned {count : ℕ} (enough : bits ≤ count * (8 * d.outputLength)) :
    seed.bits = List.replicate (8 * seed.length - bits) false ++
      (d.digests bits message count).bits.take bits
  value {count : ℕ} (enough : bits ≤ count * (8 * d.outputLength)) :
    seed.toNat = ofBits ((d.digests bits message count).bits.take bits)
  below : seed.toNat < 2 ^ bits
  /-- The number of bits fits its four bytes, and every counter that is needed fits its byte. -/
  written : (Bytes.ofNat 4 bits).toNat = bits ∧
    ∀ i < blocksFor bits (8 * d.outputLength), (Bytes.ofNat 1 (i + 1)).toNat = i + 1

/-- What is asked of at most 255 digests is written without loss. -/
private theorem written_of_bounded {bits : ℕ} (bounded : bits ≤ 255 * (8 * d.outputLength)) :
    (Bytes.ofNat 4 bits).toNat = bits ∧
      ∀ i < blocksFor bits (8 * d.outputLength), (Bytes.ofNat 1 (i + 1)).toNat = i + 1 := by
  have positive : 0 < 8 * d.outputLength := Nat.mul_pos (by decide) d.outputLength_pos
  have longest : d.outputLength ≤ 64 := by cases d <;> decide
  constructor
  · rw [Bytes.toNat_ofNat]
    exact Nat.mod_eq_of_lt (by omega)
  · intro i needed
    have counters := (blocksFor_le_iff positive).mpr bounded
    rw [Bytes.toNat_ofNat]
    exact Nat.mod_eq_of_lt (by omega)

/-- Hash_df yields the leftmost bits of a string of digests, right-aligned in whole bytes, however its
message is cut into parts. -/
theorem derives_leftmost_bits {bits : ℕ} (bounded : bits ≤ 255 * (8 * d.outputLength))
    (parts : List Bytes) :
    d.DerivesLeftmost bits parts.flatten (d.hashDf parts bits) ∧
      ∀ others : List Bytes, others.flatten = parts.flatten →
        d.hashDf others bits = d.hashDf parts bits := by
  have value := d.toNat_hashDf parts bits
  have length := d.length_hashDf parts bits
  have whole : bits ≤ blocksFor bits 8 * 8 := (blocksFor_le_iff (by decide)).mp le_rfl
  refine ⟨⟨length, ?_, ?_, ?_, d.written_of_bounded bounded⟩, ?_⟩
  · intro count enough
    have filled : 8 * blocksFor bits 8 =
        8 * blocksFor bits 8 - bits + min bits (8 * (count * d.outputLength)) := by
      rw [Nat.mul_left_comm] at enough
      omega
    apply eq_of_ofBits_eq
    · simpa using filled
    · rw [ofBits_replicate_append, Bytes.ofBits_bits, value, d.derived_eq_ofBits enough]
  · intro count enough
    rw [value, d.derived_eq_ofBits enough]
  · rw [value]
    exact d.derived_lt ..
  · intro others same
    apply Bytes.eq_of_toNat_eq
    · rw [length_hashDf, length]
    · rw [toNat_hashDf, value, same]

/-- The 521 bits of a scalar of P-521 leave seven bits of their first byte. -/
theorem derives_leftmost_bits_partial_byte :
    521 ≤ 255 * (8 * sha224.outputLength) ∧
      sha224.DerivesLeftmost 521 [1, 2, 3] (sha224.hashDf [[1], [], [2, 3]] 521) ∧
      8 * (sha224.hashDf [[1], [], [2, 3]] 521).length - 521 = 7 := by
  have bounded : 521 ≤ 255 * (8 * sha224.outputLength) := by decide
  refine ⟨bounded, (sha224.derives_leftmost_bits bounded [[1], [], [2, 3]]).1, ?_⟩
  rw [length_hashDf]
  rfl

end Digest

end RandomBits
