import Mathlib
import RandomBits.Aes.Cipher

/-! # Encryption permutes blocks

No layer of the cipher merges two states: inverses of bytes are taken back by inverses
(`inverse_inverse`), rotated rows and added keys can be undone, and a column that is mixed four times
is as before (`Column.mix_injective`). Main statement: under one key, blocks are told apart by their
encryptions (`RoundKeys.encrypt_inj`).
-/

namespace RandomBits.Aes

/-! ## Bytes

Products of bytes are computed on numbers here, where a check of all bytes takes the least time.
-/

/-- The product of a byte with `x`, as a number. -/
def doubleNat (a : ℕ) : ℕ := 2 * a ^^^ a / 128 * 283

/-- The product of `a` with the polynomial of the low bits of `b`, as a number. -/
def mulNat : (bits : ℕ) → ℕ → ℕ → ℕ
  | 0, _, _ => 0
  | bits + 1, a, b => b % 2 * a ^^^ mulNat bits (doubleNat a) (b / 2)

def inverseNat (a : ℕ) : ℕ :=
  let root := Nat.repeat (fun power => mulNat 8 (mulNat 8 power power) a) 6 a
  mulNat 8 root root

private theorem toNat_double (a : UInt8) : (double a).toNat = doubleNat a.toNat := by
  revert a
  decide +kernel

private theorem toNat_mulBits (bits : ℕ) (a b : UInt8) :
    (mulBits bits a b).toNat = mulNat bits a.toNat b.toNat := by
  induction bits generalizing a b with
  | zero => rfl
  | succ bits ih =>
    have lowest : b.toNat % 2 = 0 ∧ b &&& 1 ≠ 1 ∨ b.toNat % 2 = 1 ∧ b &&& 1 = 1 := by
      revert b
      decide +kernel
    have rest : (b >>> 1).toNat = b.toNat / 2 := by
      revert b
      decide +kernel
    rw [mulBits, mulNat, UInt8.toNat_xor, ih, toNat_double, rest]
    obtain ⟨even, unset⟩ | ⟨odd, set⟩ := lowest
    · rw [if_neg unset, even, Nat.zero_mul, UInt8.toNat_zero]
    · rw [if_pos set, odd, Nat.one_mul]

private theorem toNat_inverse (a : UInt8) : (inverse a).toNat = inverseNat a.toNat := by
  simp only [inverse, inverseNat, mul, Nat.repeat, toNat_mulBits]

/-- The inverse of an inverse is the byte itself, also for zero. -/
theorem inverse_inverse (a : UInt8) : inverse (inverse a) = a := by
  -- The inverse is a power, which is quicker to compute for all bytes than to reason about.
  have all : ∀ n < 256, inverseNat (inverseNat n) = n := by decide +kernel
  apply UInt8.toNat_inj.mp
  rw [toNat_inverse, toNat_inverse]
  exact all _ a.toNat_lt

/-- The affine map is undone by another one. -/
theorem affine_injective : Function.Injective affine := by
  let unaffine (a : UInt8) : UInt8 :=
    rotateLeft a 1 ^^^ rotateLeft a 3 ^^^ rotateLeft a 6 ^^^ 0x05
  have undone : ∀ a, unaffine (affine a) = a := by decide +kernel
  exact Function.LeftInverse.injective undone

theorem substitute_injective : Function.Injective substitute := by
  have composed : substitute = affine ∘ inverse := funext substitute_eq
  rw [composed]
  exact affine_injective.comp (Function.LeftInverse.injective inverse_inverse)

private theorem xor_left_comm (a b c : UInt8) : a ^^^ (b ^^^ c) = b ^^^ (a ^^^ c) := by
  rw [← UInt8.xor_assoc, UInt8.xor_comm a, UInt8.xor_assoc]

private theorem xor_self_left (a b : UInt8) : a ^^^ (a ^^^ b) = b := by
  rw [← UInt8.xor_assoc, UInt8.xor_self, UInt8.zero_xor]

private theorem and_xor_right (a b c : UInt8) : (a ^^^ b) &&& c = (a &&& c) ^^^ (b &&& c) := by
  apply UInt8.toBitVec_inj.mp
  ext i
  simp only [UInt8.toBitVec_and, UInt8.toBitVec_xor, BitVec.getElem_and, BitVec.getElem_xor]
  exact Bool.and_xor_distrib_right ..

/-- Products with `x` are taken summand by summand. -/
private theorem double_xor (a b : UInt8) : double (a ^^^ b) = double a ^^^ double b := by
  have front (c : UInt8) : c &&& 0x80 = 0 ∨ c &&& 0x80 = 0x80 := by
    revert c
    decide +kernel
  simp only [double, and_xor_right, UInt8.shiftLeft_xor]
  rcases front a with ha | ha <;> rcases front b with hb | hb <;>
    simp [ha, hb, UInt8.xor_assoc, UInt8.xor_comm, xor_left_comm]

/-! ## Columns -/

namespace Column

theorem map_injective {f : UInt8 → UInt8} (injective : Function.Injective f) :
    Function.Injective (Column.map f) := by
  rintro ⟨a0, a1, a2, a3⟩ ⟨b0, b1, b2, b3⟩ same
  simpa only [map, Column.mk.injEq, injective.eq_iff] using same

theorem xor_injective (key : Column) : Function.Injective fun w => Column.xor w key := by
  rintro ⟨a0, a1, a2, a3⟩ ⟨b0, b1, b2, b3⟩ same
  simpa only [xor, Column.mk.injEq, UInt8.xor_left_inj] using same

/-- A byte of a mixed column, from the bytes of the column that begin at its place. -/
def mixedByte (a b c d : UInt8) : UInt8 := double a ^^^ (double b ^^^ b) ^^^ c ^^^ d

theorem mix_eq (w : Column) : w.mix = ⟨mixedByte w.b0 w.b1 w.b2 w.b3, mixedByte w.b1 w.b2 w.b3 w.b0,
    mixedByte w.b2 w.b3 w.b0 w.b1, mixedByte w.b3 w.b0 w.b1 w.b2⟩ := by
  simp only [mix, mixedByte, UInt8.xor_assoc, UInt8.xor_comm, xor_left_comm]

/-- A byte that is mixed twice meets the one across only. -/
def crossedByte (a c : UInt8) : UInt8 := double (double a) ^^^ a ^^^ double (double c)

private theorem mixedByte_mixedByte (a b c d : UInt8) :
    mixedByte (mixedByte a b c d) (mixedByte b c d a) (mixedByte c d a b) (mixedByte d a b c) =
      crossedByte a c := by
  simp only [mixedByte, crossedByte, double_xor, UInt8.xor_assoc, UInt8.xor_comm, xor_left_comm,
    xor_self_left]

def cross (w : Column) : Column :=
  ⟨crossedByte w.b0 w.b2, crossedByte w.b1 w.b3, crossedByte w.b2 w.b0, crossedByte w.b3 w.b1⟩

theorem mix_mix (w : Column) : w.mix.mix = w.cross := by
  simp only [mix_eq, mixedByte_mixedByte, cross]

private theorem cross_cross (w : Column) : w.cross.cross = w := by
  simp only [cross, crossedByte, double_xor, UInt8.xor_assoc, UInt8.xor_comm, xor_left_comm,
    xor_self_left, UInt8.xor_self, UInt8.xor_zero]

/-- A column that is mixed four times is as before, so nothing is lost by one mix. -/
theorem mix_injective : Function.Injective mix := by
  intro w v same
  rw [← cross_cross w, ← cross_cross v, ← mix_mix w, ← mix_mix v, same]

end Column

/-! ## States and blocks -/

namespace State

theorem map_injective {f : Column → Column} (injective : Function.Injective f) :
    Function.Injective (State.map f) := by
  rintro ⟨a0, a1, a2, a3⟩ ⟨b0, b1, b2, b3⟩ same
  simpa only [map, State.mk.injEq, injective.eq_iff] using same

theorem xor_injective (key : State) : Function.Injective fun s => State.xor s key := by
  rintro ⟨a0, a1, a2, a3⟩ ⟨b0, b1, b2, b3⟩ same
  simpa only [xor, State.mk.injEq, (Column.xor_injective _).eq_iff] using same

theorem shiftRows_injective : Function.Injective shiftRows := by
  intro s t same
  have turned (s : State) : s.shiftRows.shiftRows.shiftRows.shiftRows = s := rfl
  rw [← turned s, ← turned t, same]

theorem substituteBytes_injective : Function.Injective substituteBytes :=
  map_injective (Column.map_injective substitute_injective)

theorem round_injective (key : State) : Function.Injective fun s => State.round s key :=
  (xor_injective key).comp
    ((map_injective Column.mix_injective).comp
      (shiftRows_injective.comp substituteBytes_injective))

theorem lastRound_injective (key : State) : Function.Injective fun s => State.lastRound s key :=
  (xor_injective key).comp (shiftRows_injective.comp substituteBytes_injective)

/-- A block fills the square without loss. -/
private theorem ofBytes_injOn : Set.InjOn ofBytes {b | b.length = 16} := by
  have taken {b : Bytes} (length : b.length = 16) : (ofBytes b).toBytes = b := by
    match b, length with
    | [_, _, _, _, _, _, _, _, _, _, _, _, _, _, _, _], _ => rfl
  intro a ha b hb same
  rw [← taken ha, ← taken hb, same]

/-- The square can be read off the block that it fills. -/
theorem toBytes_injective : Function.Injective toBytes := by
  have filled (s : State) : ofBytes s.toBytes = s := rfl
  exact Function.LeftInverse.injective filled

end State

namespace RoundKeys

/-- Rounds in a row merge no states. -/
private theorem foldl_round_injective (keys : List State) :
    Function.Injective fun s => keys.foldl State.round s := by
  induction keys with
  | nil => exact Function.injective_id
  | cons key keys ih => exact ih.comp (State.round_injective key)

theorem encryptState_injective (keys : RoundKeys) : Function.Injective keys.encryptState :=
  (State.lastRound_injective keys.last).comp
    ((foldl_round_injective keys.inner).comp (State.xor_injective keys.first))

/-- Under one key, blocks are told apart by their encryptions. -/
theorem encrypt_inj (keys : RoundKeys) {a b : Bytes} (ha : a.length = blockLength)
    (hb : b.length = blockLength) : keys.encrypt a = keys.encrypt b ↔ a = b := by
  constructor
  · intro same
    have squares := keys.encryptState_injective (State.toBytes_injective same)
    exact State.ofBytes_injOn ha hb squares
  · exact congrArg keys.encrypt

end RoundKeys

end RandomBits.Aes
