import Mathlib
import RandomBits.Bytes.Basic

/-! # The number that a byte string stands for

Main statements: a byte string is below the power of 256 of its length (`Bytes.toNat_lt`), and
writing a number as bytes reduces it modulo that power (`Bytes.toNat_ofNat`).
-/

namespace RandomBits.Bytes

@[simp] theorem toNat_nil : toNat [] = 0 := rfl

private theorem foldl_digits (b : Bytes) (n : Nat) :
    b.foldl (fun n x => 256 * n + x.toNat) n = 256 ^ b.length * n + toNat b := by
  induction b generalizing n with
  | nil => simp
  | cons x b ih =>
    simp only [toNat, List.foldl_cons, List.length_cons] at ih ⊢
    rw [ih, ih (256 * 0 + x.toNat), Nat.pow_succ]
    simp only [Nat.mul_add, Nat.mul_zero, Nat.zero_add, Nat.mul_assoc]
    omega

@[simp] theorem toNat_cons (x : UInt8) (b : Bytes) :
    toNat (x :: b) = 256 ^ b.length * x.toNat + toNat b := by
  have := foldl_digits b (256 * 0 + x.toNat)
  simpa [toNat] using this

/-- The bytes of a concatenation are the digits of both parts in order. -/
theorem toNat_append (a b : Bytes) : toNat (a ++ b) = 256 ^ b.length * toNat a + toNat b := by
  rw [toNat, List.foldl_append, foldl_digits]
  rfl

theorem toNat_lt (b : Bytes) : toNat b < 256 ^ b.length := by
  induction b with
  | nil => simp
  | cons x b ih =>
    have digit := x.toNat_lt
    have := Nat.mul_le_mul_left (256 ^ b.length) (Nat.le_of_lt_succ digit)
    rw [toNat_cons, List.length_cons, Nat.pow_succ]
    omega

/-- Writing a number as bytes reduces it modulo the numbers of that length. -/
@[simp] theorem toNat_ofNat (length n : Nat) : toNat (ofNat length n) = n % 256 ^ length := by
  induction length generalizing n with
  | zero => simp [ofNat, Nat.mod_one]
  | succ length ih =>
    rw [ofNat, toNat_append, ih, Nat.pow_succ, Nat.mul_comm (256 ^ length), Nat.mod_mul]
    simp
    omega

end RandomBits.Bytes
