/-! # The field of bytes and the substitution table

Bytes are polynomials over two elements modulo `x ^ 8 + x ^ 4 + x ^ 3 + x + 1`. The AES
substitution takes the inverse of a byte in this field and then an affine map of its bits.
-/

namespace RandomBits.Aes

/-- The product of a byte with `x`. -/
def double (a : UInt8) : UInt8 := if a &&& 0x80 = 0 then a <<< 1 else a <<< 1 ^^^ 0x1b

/-- The product of `a` with the polynomial of the `bits` low bits of `b`. -/
def mulBits : (bits : Nat) → UInt8 → UInt8 → UInt8
  | 0, _, _ => 0
  | bits + 1, a, b => (if b &&& 1 = 1 then a else 0) ^^^ mulBits bits (double a) (b >>> 1)

def mul (a b : UInt8) : UInt8 := mulBits 8 a b

/-- The power of a byte to 254, which is its inverse, and zero for zero. -/
def inverse (a : UInt8) : UInt8 :=
  let root := Nat.repeat (fun power => mul (mul power power) a) 6 a
  mul root root

/-- The rotation of the bits of a byte to the left by `n` places, for `n` from 1 to 7. -/
def rotateLeft (a n : UInt8) : UInt8 := a <<< n ||| a >>> (8 - n)

def affine (a : UInt8) : UInt8 :=
  a ^^^ rotateLeft a 1 ^^^ rotateLeft a 2 ^^^ rotateLeft a 3 ^^^ rotateLeft a 4 ^^^ 0x63

def substitutions : Vector UInt8 256 :=
  Vector.ofFn fun i => affine (inverse (UInt8.ofNat i))

def substitute (a : UInt8) : UInt8 :=
  have := a.toNat_lt
  substitutions[a.toNat]

theorem substitute_eq (a : UInt8) : substitute a = affine (inverse a) := by
  simp [substitute, substitutions]

end RandomBits.Aes
