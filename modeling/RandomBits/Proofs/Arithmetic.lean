import Mathlib
import RandomBits.Bytes.Arithmetic
import RandomBits.Proofs.Value

/-! # Byte-string arithmetic as arithmetic on numbers

Main statements: a byte string is what its number is written as (`Bytes.ofNat_toNat`), sums and
increments are sums modulo the power of 256 of their length (`Bytes.toNat_add`,
`Bytes.increment_ofNat`), shifts multiply and divide by a power of two (`Bytes.toNat_shiftLeft`,
`Bytes.toNat_shiftRight`), and the bytewise exclusive or is that of the numbers (`Bytes.toNat_xor`).
-/

namespace RandomBits.Bytes

/-! ## Byte strings and their numbers -/

@[simp] theorem toNat_zeros (length : ℕ) : toNat (zeros length) = 0 := by
  induction length with
  | zero => rfl
  | succ length ih =>
    rw [zeros, List.replicate_succ, toNat_cons, ← zeros, ih]
    rfl

/-- Only the low-order digits of a number are written. -/
@[simp] theorem ofNat_mod (length n : ℕ) : ofNat length (n % 256 ^ length) = ofNat length n := by
  induction length generalizing n with
  | zero => rfl
  | succ length ih =>
    have upper : n % 256 ^ (length + 1) / 256 = n / 256 % 256 ^ length := by
      rw [Nat.pow_succ, Nat.mul_comm, Nat.mod_mul_right_div_self]
    have lowest : UInt8.ofNat (n % 256 ^ (length + 1)) = UInt8.ofNat n := by
      apply UInt8.toNat_inj.mp
      simp only [UInt8.toNat_ofNat']
      exact Nat.mod_mod_of_dvd n (dvd_pow_self 256 length.succ_ne_zero)
    rw [ofNat, ofNat, upper, ih, lowest]

/-- Nothing is lost by writing the number of a byte string in as many bytes. -/
@[simp] theorem ofNat_toNat (b : Bytes) : ofNat b.length (toNat b) = b := by
  induction b using List.reverseRecOn with
  | nil => rfl
  | append_singleton b x ih =>
    have digit := x.toNat_lt
    have upper : (256 * toNat b + x.toNat) / 256 = toNat b := by omega
    have lowest : UInt8.ofNat (256 * toNat b + x.toNat) = x := by
      apply UInt8.toNat_inj.mp
      simp only [UInt8.toNat_ofNat']
      omega
    rw [toNat_append, List.length_append, List.length_singleton, ofNat]
    simp only [pow_one, toNat_cons, toNat_nil, List.length_nil, pow_zero, one_mul, add_zero, upper,
      lowest, ih]

/-- Byte strings of one length are told apart by their numbers. -/
theorem eq_of_toNat_eq {a b : Bytes} (length : a.length = b.length) (same : toNat a = toNat b) :
    a = b := by
  rw [← ofNat_toNat a, length, same, ofNat_toNat]

/-- The last bytes of a byte string are the low-order digits of its number. -/
theorem drop_eq_ofNat {b : Bytes} {front count : ℕ} (length : b.length = front + count) :
    b.drop front = ofNat count (toNat b) := by
  have rest : (b.drop front).length = count := by
    rw [List.length_drop, length]
    omega
  have digits : toNat b % 256 ^ count = toNat (b.drop front) := by
    conv_lhs => rw [← List.take_append_drop front b, toNat_append, rest]
    rw [Nat.mul_add_mod, ← rest]
    exact Nat.mod_eq_of_lt (toNat_lt _)
  rw [← ofNat_mod, digits, ← rest, ofNat_toNat]

/-- The first bytes of a byte string are the high-order digits of its number. -/
theorem toNat_take {b : Bytes} {count rest : ℕ} (length : b.length = count + rest) :
    toNat (b.take count) = toNat b / 256 ^ rest := by
  have dropped : (b.drop count).length = rest := by
    rw [List.length_drop, length]
    omega
  have small := toNat_lt (b.drop count)
  conv_rhs => rw [← List.take_append_drop count b, toNat_append]
  rw [dropped] at small ⊢
  rw [Nat.mul_add_div (by positivity), Nat.div_eq_of_lt small, Nat.add_zero]

theorem toNatLE_cons (x : UInt8) (b : Bytes) : toNatLE (x :: b) = 256 * toNatLE b + x.toNat := by
  simp only [toNatLE, List.reverse_cons, toNat_append, List.length_singleton, pow_one, toNat_cons,
    toNat_nil, List.length_nil, pow_zero, one_mul, add_zero]

theorem toNatLE_reverse (b : Bytes) : toNatLE b.reverse = toNat b := by
  rw [toNatLE, List.reverse_reverse]

theorem toNat_reverse (b : Bytes) : toNat b.reverse = toNatLE b := rfl

/-! ## Sums and increments -/

/-- A digit is kept and its excess is carried to the digits above it. -/
private theorem carry_digit (upper digit modulus : ℕ) :
    256 * ((upper + digit / 256) % modulus) + digit % 256 =
      (256 * upper + digit) % (256 * modulus) := by
  rw [Nat.mod_mul, Nat.mul_add_mod, Nat.mul_add_div (by decide), Nat.add_comm]

private theorem toNatLE_addCarry (target addend : Bytes) (carry : ℕ) :
    toNatLE (addCarry target addend carry) =
      (toNatLE target + toNatLE addend + carry) % 256 ^ target.length := by
  induction target generalizing addend carry with
  | nil => simp [addCarry, toNatLE, Nat.mod_one]
  | cons a target ih =>
    have split : toNatLE addend = 256 * toNatLE addend.tail + (addend.headD 0).toNat := by
      cases addend with
      | nil => rfl
      | cons x addend => exact toNatLE_cons x addend
    have total : 256 * toNatLE target + a.toNat + toNatLE addend + carry =
        256 * (toNatLE target + toNatLE addend.tail) +
          (a.toNat + (addend.headD 0).toNat + carry) := by
      omega
    rw [addCarry, toNatLE_cons, ih, toNatLE_cons, List.length_cons, Nat.pow_succ',
      UInt8.toNat_ofNat', carry_digit, total]

/-- A sum wraps around at the length of its target, whatever the length of what is added. -/
@[simp] theorem toNat_add (target addend : Bytes) :
    toNat (add target addend) = (toNat target + toNat addend) % 256 ^ target.length := by
  rw [add, toNat_reverse, toNatLE_addCarry, toNatLE_reverse, toNatLE_reverse, List.length_reverse,
    Nat.add_zero]

private theorem toNatLE_incrementLE (b : Bytes) :
    toNatLE (incrementLE b) = (toNatLE b + 1) % 256 ^ b.length := by
  induction b with
  | nil => simp [incrementLE, toNatLE]
  | cons x b ih =>
    have digit := x.toNat_lt
    have small : toNatLE b < 256 ^ b.length := by
      simpa [toNatLE] using toNat_lt b.reverse
    rw [incrementLE, toNatLE_cons, List.length_cons, Nat.pow_succ']
    split
    next wraps =>
      have full : x.toNat = 255 := by
        have := congrArg UInt8.toNat wraps
        simp only [UInt8.toNat_add, UInt8.toNat_one, UInt8.toNat_zero] at this
        omega
      have total : 256 * toNatLE b + x.toNat + 1 = 256 * (toNatLE b + 1) := by omega
      rw [toNatLE_cons, ih, total, Nat.mul_mod_mul_left]
      rfl
    next stays =>
      have below : x.toNat + 1 < 256 := by
        by_contra full
        apply stays
        apply UInt8.toNat_inj.mp
        simp only [UInt8.toNat_add, UInt8.toNat_one, UInt8.toNat_zero]
        omega
      have next : (x + 1).toNat = x.toNat + 1 := by
        rw [UInt8.toNat_add, UInt8.toNat_one]
        exact Nat.mod_eq_of_lt below
      rw [toNatLE_cons, next, Nat.mod_eq_of_lt]
      · omega
      · omega

@[simp] theorem toNat_increment (b : Bytes) :
    toNat (increment b) = (toNat b + 1) % 256 ^ b.length := by
  rw [increment, toNat_reverse, toNatLE_incrementLE, toNatLE_reverse, List.length_reverse]

/-- A counter that is written in bytes goes on to the next number, and from the last one to zero. -/
@[simp] theorem increment_ofNat (length n : ℕ) :
    increment (ofNat length n) = ofNat length (n + 1) := by
  apply eq_of_toNat_eq (by simp)
  simp [Nat.add_mod]

/-! ## Exclusive or -/

/-- The exclusive or of numbers is taken digit by digit. -/
private theorem xor_digits {a b width : ℕ} (m n : ℕ) (left : a < 2 ^ width) (right : b < 2 ^ width) :
    (2 ^ width * m + a) ^^^ (2 ^ width * n + b) = 2 ^ width * (m ^^^ n) + (a ^^^ b) := by
  apply Nat.eq_of_testBit_eq
  intro i
  rw [Nat.testBit_xor, Nat.testBit_two_pow_mul_add m left, Nat.testBit_two_pow_mul_add n right,
    Nat.testBit_two_pow_mul_add (m ^^^ n) (Nat.xor_lt_two_pow left right)]
  split <;> rw [Nat.testBit_xor]

theorem pow_256 (n : ℕ) : 256 ^ n = 2 ^ (8 * n) := by
  rw [Nat.pow_mul]

/-- The bytewise exclusive or of byte strings of one length. -/
theorem toNat_xor {a b : Bytes} (length : a.length = b.length) :
    toNat (xor a b) = toNat a ^^^ toNat b := by
  induction a generalizing b with
  | nil =>
    obtain rfl := List.eq_nil_of_length_eq_zero length.symm
    rfl
  | cons x a ih =>
    cases b with
    | nil => cases length
    | cons y b =>
      have rest : a.length = b.length := Nat.succ.inj length
      have left := toNat_lt a
      have right := toNat_lt b
      have head : xor (x :: a) (y :: b) = (x ^^^ y) :: xor a b := rfl
      rw [rest, pow_256] at left
      rw [pow_256] at right
      rw [head, toNat_cons, ih rest, toNat_cons, toNat_cons, length_xor, rest, min_self, pow_256,
        xor_digits _ _ left right, UInt8.toNat_xor]

/-! ## Shifts -/

/-- A digit that is shifted right takes in bits from the digit above and leaves bits to the rest. -/
private theorem shift_digit {shift width rest : ℕ} (small : shift ≤ 8) (below : rest < width)
    (above digit : ℕ) :
    width * ((256 * above + digit) / 2 ^ shift % 256) + (width * digit + rest) / 2 ^ shift % width =
      (256 * width * above + (width * digit + rest)) / 2 ^ shift % (256 * width) := by
  obtain ⟨scale, whole⟩ : 2 ^ shift ∣ 256 := pow_dvd_pow 2 small
  have upper : (256 * width * above + (width * digit + rest)) / 2 ^ shift / width =
      (256 * above + digit) / 2 ^ shift := by
    have total : 256 * width * above + (width * digit + rest) =
        width * (256 * above + digit) + rest := by
      ring
    rw [Nat.div_div_eq_div_mul, Nat.mul_comm (2 ^ shift), ← Nat.div_div_eq_div_mul, total,
      Nat.mul_add_div (by omega), Nat.div_eq_of_lt below, Nat.add_zero]
  have lower : (256 * width * above + (width * digit + rest)) / 2 ^ shift % width =
      (width * digit + rest) / 2 ^ shift % width := by
    have total : 256 * width * above + (width * digit + rest) =
        2 ^ shift * (width * (scale * above)) + (width * digit + rest) := by
      rw [whole]
      ring
    rw [total, Nat.mul_add_div (by positivity), Nat.mul_add_mod]
  rw [Nat.mul_comm 256 width, Nat.mod_mul, Nat.mul_comm width 256, upper, lower, Nat.add_comm]

private theorem length_shiftRightFrom (shift : ℕ) (above : UInt8) (b : Bytes) :
    (shiftRightFrom shift above b).length = b.length := by
  induction b generalizing above with
  | nil => rfl
  | cons x b ih => rw [shiftRightFrom, List.length_cons, ih, List.length_cons]

/-- Bits shifted out of the bytes above move in at the front. -/
private theorem toNat_shiftRightFrom {shift : ℕ} (small : shift ≤ 8) (above : UInt8) (b : Bytes) :
    toNat (shiftRightFrom shift above b) =
      (256 ^ b.length * above.toNat + toNat b) / 2 ^ shift % 256 ^ b.length := by
  induction b generalizing above with
  | nil => simp [shiftRightFrom, Nat.mod_one]
  | cons x b ih =>
    rw [shiftRightFrom, toNat_cons, length_shiftRightFrom, ih, toNat_cons, List.length_cons,
      Nat.pow_succ', UInt8.toNat_ofNat', Nat.shiftRight_eq_div_pow,
      shift_digit small (toNat_lt b)]

/-- A shift to the right divides, for a shift within a byte. -/
theorem toNat_shiftRight {shift : ℕ} (small : shift ≤ 8) (b : Bytes) :
    toNat (shiftRight shift b) = toNat b / 2 ^ shift := by
  rw [shiftRight, toNat_shiftRightFrom small]
  simp only [UInt8.toNat_zero, Nat.mul_zero, Nat.zero_add]
  exact Nat.mod_eq_of_lt ((Nat.div_le_self ..).trans_lt (toNat_lt b))

private theorem toNatLE_shiftLeftCarry (shift carry : ℕ) (b : Bytes) :
    toNatLE (shiftLeftCarry shift carry b) = (toNatLE b * 2 ^ shift + carry) % 256 ^ b.length := by
  induction b generalizing carry with
  | nil => simp [shiftLeftCarry, toNatLE, Nat.mod_one]
  | cons x b ih =>
    have total : (256 * toNatLE b + x.toNat) * 2 ^ shift + carry =
        256 * (toNatLE b * 2 ^ shift) + (x.toNat * 2 ^ shift + carry) := by
      ring
    rw [shiftLeftCarry, toNatLE_cons, ih, toNatLE_cons, List.length_cons, Nat.pow_succ',
      UInt8.toNat_ofNat', carry_digit, total, Nat.shiftLeft_eq]

/-- A shift to the left multiplies, and what does not fit falls off the front. -/
theorem toNat_shiftLeft (shift : ℕ) (b : Bytes) :
    toNat (shiftLeft shift b) = toNat b * 2 ^ shift % 256 ^ b.length := by
  rw [shiftLeft, toNat_reverse, toNatLE_shiftLeftCarry, toNatLE_reverse, List.length_reverse,
    Nat.add_zero]

end RandomBits.Bytes
