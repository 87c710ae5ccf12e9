import RandomBits.Bytes.Arithmetic
import RandomBits.Curve.Point
import RandomBits.Fault

/-! # The x-coordinates of multiples of the curve points

The one-way maps of Dual_EC_DRBG: a scalar, written as bytes, is taken to the x-coordinate of its
multiple of `P` or `Q`, written as bytes of the same length.
-/

namespace RandomBits.Curve

/-- The scalar that `k` stands for: its number, less one group order if it is not below that. -/
def scalar (c : Curve) (k : Bytes) : Nat :=
  (Bytes.reduce k (Bytes.ofNat c.fieldLength c.order)).toNat

/-- The x-coordinate of the multiple of `base` by `k`. -/
def xOfMultiple (c : Curve) (base : Coordinates) (k : Bytes) : Except Fault Bytes :=
  if c.order ≤ c.scalar k then .error .scalarOutOfRange
  else
    let product := (Jacobian.ofCoordinates base).multiple c.prime c.seedBits (c.scalar k)
    match product.affineX? c.prime c.seedBits with
    | none => .error .pointAtInfinity
    | some x => .ok (Bytes.ofNat c.fieldLength x)

/-- The x-coordinate of the multiple of `P` by `k`. -/
def xOfP (c : Curve) (k : Bytes) : Except Fault Bytes := c.xOfMultiple c.pointP k

/-- The x-coordinate of the multiple of `Q` by `k`. -/
def xOfQ (c : Curve) (k : Bytes) : Except Fault Bytes :=
  if c.contains c.pointQ then c.xOfMultiple c.pointQ k else .error .pointNotOnCurve

/-- Written coordinates have the field length. -/
theorem length_of_xOfMultiple {c : Curve} {base : Coordinates} {k x : Bytes}
    (found : c.xOfMultiple base k = .ok x) : x.length = c.fieldLength := by
  unfold xOfMultiple at found
  split at found
  · cases found
  · dsimp only at found
    split at found
    · cases found
    · cases found
      simp

end RandomBits.Curve
