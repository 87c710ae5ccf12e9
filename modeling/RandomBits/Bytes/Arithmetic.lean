import RandomBits.Bytes.Basic

/-! # Arithmetic on byte strings

Sums, increments, conditional subtractions and shifts of big-endian numbers, done byte by byte
with a carry. Every operation keeps the length of its first operand, so sums wrap around.
-/

namespace RandomBits.Bytes

/-- The little-endian sum of two byte strings and a carry, as long as the first one. -/
def addCarry : Bytes → Bytes → (carry : Nat) → Bytes
  | [], _, _ => []
  | a :: target, addend, carry =>
    let sum := a.toNat + (addend.headD 0).toNat + carry
    UInt8.ofNat sum :: addCarry target addend.tail (sum / 256)

/-- The sum `target + addend`, modulo the numbers of the length of `target`. -/
def add (target addend : Bytes) : Bytes := (addCarry target.reverse addend.reverse 0).reverse

/-- The little-endian successor: bytes that wrap to zero carry into the next one. -/
def incrementLE : Bytes → Bytes
  | [] => []
  | x :: b => if x + 1 = 0 then 0 :: incrementLE b else (x + 1) :: b

/-- The successor of a counter, which wraps around at its length. -/
def increment (b : Bytes) : Bytes := (incrementLE b.reverse).reverse

/-- The little-endian difference of two byte strings and a borrow. -/
def subBorrow : Bytes → Bytes → (borrow : Nat) → Bytes
  | a :: b, m :: n, borrow =>
    let taken := m.toNat + borrow
    UInt8.ofNat (a.toNat + 256 - taken) :: subBorrow b n (if a.toNat < taken then 1 else 0)
  | _, _, _ => []

/-- `k` less one `n` if `k` is not below `n`. For strings of one length the lexicographic order
of the bytes is the order of the numbers. -/
def reduce (k n : Bytes) : Bytes :=
  if k < n then k else (subBorrow k.reverse n.reverse 0).reverse

/-- Shifts right by `shift` bits, where `above` is the byte before the first one. -/
def shiftRightFrom (shift : Nat) : (above : UInt8) → Bytes → Bytes
  | _, [] => []
  | above, x :: b =>
    UInt8.ofNat ((256 * above.toNat + x.toNat) >>> shift) :: shiftRightFrom shift x b

/-- `b` shifted right by `shift` bits; the low bits fall off the end. -/
def shiftRight (shift : Nat) (b : Bytes) : Bytes := shiftRightFrom shift 0 b

/-- Shifts little-endian bytes left by `shift` bits with the bits of `carry` at the bottom. -/
def shiftLeftCarry (shift : Nat) : (carry : Nat) → Bytes → Bytes
  | _, [] => []
  | carry, x :: b =>
    let moved := x.toNat <<< shift + carry
    UInt8.ofNat moved :: shiftLeftCarry shift (moved / 256) b

/-- `b` shifted left by `shift` bits; the high bits fall off the front. -/
def shiftLeft (shift : Nat) (b : Bytes) : Bytes := (shiftLeftCarry shift 0 b.reverse).reverse

@[simp] theorem length_addCarry (target addend : Bytes) (carry : Nat) :
    (addCarry target addend carry).length = target.length := by
  induction target generalizing addend carry with
  | nil => rfl
  | cons _ _ ih => simp [addCarry, ih]

@[simp] theorem length_add (target addend : Bytes) : (add target addend).length = target.length := by
  simp [add]

@[simp] theorem length_incrementLE (b : Bytes) : (incrementLE b).length = b.length := by
  induction b with
  | nil => rfl
  | cons _ _ ih => simp only [incrementLE]; split <;> simp [ih]

@[simp] theorem length_increment (b : Bytes) : (increment b).length = b.length := by
  simp [increment]

@[simp] theorem length_subBorrow (a m : Bytes) (borrow : Nat) :
    (subBorrow a m borrow).length = min a.length m.length := by
  induction a generalizing m borrow with
  | nil => simp [subBorrow]
  | cons _ _ ih => cases m <;> simp [subBorrow, ih]

@[simp] theorem length_shiftRight (shift : Nat) (b : Bytes) :
    (shiftRight shift b).length = b.length := by
  unfold shiftRight
  generalize (0 : UInt8) = above
  induction b generalizing above with
  | nil => rfl
  | cons _ _ ih => simp [shiftRightFrom, ih]

@[simp] theorem length_shiftLeft (shift : Nat) (b : Bytes) :
    (shiftLeft shift b).length = b.length := by
  have carried : ∀ (b : Bytes) (carry : Nat), (shiftLeftCarry shift carry b).length = b.length := by
    intro b
    induction b with
    | nil => intro carry; rfl
    | cons _ _ ih => intro carry; simp [shiftLeftCarry, ih]
  simp [shiftLeft, carried]

end RandomBits.Bytes
