/-! # Byte strings

Byte strings are lists of bytes. Read as a number, a byte string is big-endian: its first byte is
the most significant digit to base 256. The statements here say how long the results of the
operations are.
-/

namespace RandomBits

abbrev Bytes := List UInt8

/-- The number of blocks of `size` bytes that are needed to cover `length` bytes. -/
def blocksFor (length size : Nat) : Nat := (length + size - 1) / size

namespace Bytes

/-- The number whose big-endian digits to base 256 are the bytes. -/
def toNat (b : Bytes) : Nat := b.foldl (fun n x => 256 * n + x.toNat) 0

/-- The `length` big-endian bytes of `n`, which is cut to its low-order bytes. -/
def ofNat : (length : Nat) → Nat → Bytes
  | 0, _ => []
  | length + 1, n => ofNat length (n / 256) ++ [UInt8.ofNat n]

/-- The number whose little-endian digits to base 256 are the bytes. -/
def toNatLE (b : Bytes) : Nat := toNat b.reverse

def zeros (length : Nat) : Bytes := List.replicate length 0

/-- The bytewise exclusive or, as long as the shorter operand. -/
def xor (a b : Bytes) : Bytes := List.zipWith (· ^^^ ·) a b

/-- `buffer` after its first bytes were replaced by `written`. -/
def overwrite (buffer written : Bytes) : Bytes :=
  written.take buffer.length ++ buffer.drop written.length

/-- `count` successive pieces of `size` bytes each; the last ones are shorter if `b` ends. -/
def pieces (size : Nat) : (count : Nat) → Bytes → List Bytes
  | 0, _ => []
  | count + 1, b => b.take size :: pieces size count (b.drop size)

/-- `b` cut into pieces of `size` bytes, of which only the last may be shorter. -/
def chunks (size : Nat) (b : Bytes) : List Bytes := pieces size (blocksFor b.length size) b

@[simp] theorem length_ofNat (length n : Nat) : (ofNat length n).length = length := by
  induction length generalizing n with
  | zero => rfl
  | succ length ih => simp [ofNat, ih]

@[simp] theorem length_zeros (length : Nat) : (zeros length).length = length := by simp [zeros]

@[simp] theorem length_xor (a b : Bytes) : (xor a b).length = min a.length b.length := by
  simp [xor]

@[simp] theorem length_overwrite (buffer written : Bytes) :
    (overwrite buffer written).length = buffer.length := by
  simp [overwrite]
  omega

@[simp] theorem length_pieces (size count : Nat) (b : Bytes) :
    (pieces size count b).length = count := by
  induction count generalizing b with
  | zero => rfl
  | succ count ih => simp [pieces, ih]

end Bytes

end RandomBits
