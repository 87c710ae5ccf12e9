import Mathlib
import RandomBits.Proofs.Arithmetic
import RandomBits.Proofs.Streams

/-! # Derivation functions by what they derive

Both derivation functions depend on the concatenation of their parts only. Main statements: the
hash-based one has as many bytes as hold its bits (`Digest.length_hashDf`) and yields the leftmost
bits of a string of digests as a number (`Digest.toNat_hashDf`), and the one of the block cipher
yields a seed (`Aes.length_blockCipherDf`).
-/

namespace RandomBits

/-- Blocks of blocks are counted like blocks of the product of their sizes. -/
private theorem blocksFor_blocksFor {size group : ℕ} (length : ℕ) (positive : 0 < size)
    (nonempty : 0 < group) : blocksFor (blocksFor length size) group = blocksFor length (size * group) := by
  refine eq_of_forall_ge_iff fun count => ?_
  rw [blocksFor_le_iff nonempty, blocksFor_le_iff positive,
    blocksFor_le_iff (Nat.mul_pos positive nonempty), Nat.mul_assoc, Nat.mul_comm group]

/-- The number that the leftmost bits of a byte string stand for. -/
def Bytes.leftmost (bits : ℕ) (b : Bytes) : ℕ := b.toNat / 2 ^ (8 * b.length - bits)

private theorem Bytes.leftmost_lt {bits : ℕ} {b : Bytes} (enough : bits ≤ 8 * b.length) :
    b.leftmost bits < 2 ^ bits := by
  rw [leftmost, Nat.div_lt_iff_lt_mul (by positivity), ← Nat.pow_add, Nat.add_sub_cancel' enough,
    ← Bytes.pow_256]
  exact b.toNat_lt

namespace Digest

variable (d : Digest)

/-- Only the concatenation of the parts of a message is hashed. -/
theorem hash_congr {parts others : List Bytes} (same : parts.flatten = others.flatten) :
    d.hash parts = d.hash others := by
  rw [hash, hash, same]

/-- The string of digests that a seed of a number of bits is cut from: of a counter that starts with
one, the number of bits in four bytes, and the message. -/
def derivationString (bits : ℕ) (message : Bytes) : Bytes :=
  (List.range (blocksFor bits (8 * d.outputLength))).flatMap fun i =>
    d.hash [[UInt8.ofNat (i + 1)] ++ Bytes.ofNat 4 bits ++ message]

/-- The seed of a number of bits that a message is hashed to, as a number. -/
def derived (bits : ℕ) (message : Bytes) : ℕ := (d.derivationString bits message).leftmost bits

private theorem length_derivationString (bits : ℕ) (message : Bytes) :
    (d.derivationString bits message).length = blocksFor bits (8 * d.outputLength) * d.outputLength := by
  simp [derivationString]

/-- The string of digests is long enough. -/
theorem le_length_derivationString (bits : ℕ) (message : Bytes) :
    bits ≤ 8 * (d.derivationString bits message).length := by
  have covered : bits ≤ blocksFor bits (8 * d.outputLength) * (8 * d.outputLength) :=
    (blocksFor_le_iff (Nat.mul_pos (by decide) d.outputLength_pos)).mp le_rfl
  rw [length_derivationString, Nat.mul_left_comm]
  exact covered

theorem derived_lt (bits : ℕ) (message : Bytes) : d.derived bits message < 2 ^ bits :=
  Bytes.leftmost_lt (d.le_length_derivationString bits message)

private theorem derivationBlocks (bits : ℕ) (parts : List Bytes) :
    Blocks (d.derivationStep bits parts) d.outputLength fun _ => True where
  positive := d.outputLength_pos
  length _ := length_hash ..
  next _ := trivial

/-- A seed has as many bytes as hold its bits. -/
@[simp] theorem length_hashDf (parts : List Bytes) (bits : ℕ) :
    (d.hashDf parts bits).length = blocksFor bits 8 := by
  rw [hashDf, Bytes.length_shiftRight, (d.derivationBlocks bits parts).length_emitBytes trivial]

/-- What is cut and shifted are the leading bytes of the string of digests. -/
private theorem emitBytes_derivationStep (bits : ℕ) (parts : List Bytes) :
    (emitBytes (d.derivationStep bits parts) d.outputLength (blocksFor bits 8) 1).1 =
      (d.derivationString bits parts.flatten).take (blocksFor bits 8) := by
  have moves (i : ℕ) : (d.derivationStep bits parts (UInt8.ofNat (i + 1))).2 =
      UInt8.ofNat (i + 1 + 1) :=
    (UInt8.ofNat_add (i + 1) 1).symm
  have blocks (i : ℕ) : (d.derivationStep bits parts (UInt8.ofNat (i + 1))).1 =
      d.hash [[UInt8.ofNat (i + 1)] ++ Bytes.ofNat 4 bits ++ parts.flatten] :=
    d.hash_congr (by simp)
  have emitted := emitBytes_of_states moves d.outputLength (blocksFor bits 8)
  simp only [blocks] at emitted
  rw [show (1 : UInt8) = UInt8.ofNat (0 + 1) from rfl, emitted, leading,
    blocksFor_blocksFor _ (by decide) d.outputLength_pos, derivationString]

/-- The bytes of a seed are its number, right-aligned where they hold more bits. -/
theorem toNat_hashDf (parts : List Bytes) (bits : ℕ) :
    (d.hashDf parts bits).toNat = d.derived bits parts.flatten := by
  have whole : bits ≤ blocksFor bits 8 * 8 := (blocksFor_le_iff (by decide)).mp le_rfl
  have fewest : blocksFor bits 8 * 8 < bits + 8 := by
    rw [blocksFor]
    omega
  have enough := d.le_length_derivationString bits parts.flatten
  -- The bits behind the seed are dropped in two steps: whole bytes, then the end of the last one.
  obtain ⟨rest, long⟩ : ∃ rest,
      (d.derivationString bits parts.flatten).length = blocksFor bits 8 + rest :=
    Nat.exists_eq_add_of_le ((blocksFor_le_iff (by decide)).mpr (by omega))
  have shift : 8 * rest + (8 * blocksFor bits 8 - bits) = 8 * (blocksFor bits 8 + rest) - bits := by
    omega
  rw [hashDf, Bytes.toNat_shiftRight (by omega), emitBytes_derivationStep, Bytes.toNat_take long,
    Bytes.pow_256, Nat.div_div_eq_div_mul, ← Nat.pow_add, shift, derived, Bytes.leftmost, long]

end Digest

namespace Aes

/-- Only the concatenation of the parts of a message is framed. -/
theorem blockCipherDf_flatten (size : KeySize) (parts : List Bytes) :
    blockCipherDf size [parts.flatten] = blockCipherDf size parts := by
  simp only [blockCipherDf, framedMessage, List.flatten_singleton]

private theorem seedBlocks (keys : RoundKeys) : Blocks (seedStep keys) blockLength fun _ => True where
  positive := by decide
  length _ := RoundKeys.length_encrypt ..
  next _ := trivial

/-- What is derived is a key and a block. -/
@[simp] theorem length_blockCipherDf (size : KeySize) (parts : List Bytes) :
    (blockCipherDf size parts).length = size.seedLength :=
  (seedBlocks _).length_emitBytes trivial _

end Aes

end RandomBits
