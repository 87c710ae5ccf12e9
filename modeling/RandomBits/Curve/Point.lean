import RandomBits.Curve.Basic

/-! # Multiples of points

Points of a curve are held in Jacobian coordinates: `(X, Y, Z)` stands for the point with the
affine coordinates `X / Z ^ 2` and `Y / Z ^ 3`, and for the point at infinity if `Z` is zero. All
coordinates are kept reduced modulo the prime.
-/

namespace RandomBits.Curve

/-- The difference of two numbers below the modulus `p`, modulo `p`. -/
def subMod (p a b : Nat) : Nat := (a + (p - b)) % p

/-- The power of `base` to the low `bits` binary digits of `exponent`, modulo `p`. -/
def powMod (p base : Nat) : (bits : Nat) → (exponent : Nat) → Nat
  | 0, _ => 1 % p
  | bits + 1, exponent =>
    let root := powMod p base bits (exponent / 2)
    let square := root * root % p
    if exponent % 2 = 1 then square * base % p else square

/-- A point in Jacobian coordinates. -/
structure Jacobian where
  x : Nat
  y : Nat
  z : Nat
deriving DecidableEq

namespace Jacobian

def infinity : Jacobian := ⟨1, 1, 0⟩

def ofCoordinates (a : Coordinates) : Jacobian := ⟨a.x, a.y, 1⟩

def double (p : Nat) (a : Jacobian) : Jacobian :=
  let delta := a.z * a.z % p
  let gamma := a.y * a.y % p
  let beta := a.x * gamma % p
  let alpha := 3 * (subMod p a.x delta * (a.x + delta)) % p
  let x := subMod p (alpha * alpha % p) (8 * beta % p)
  { x
    y := subMod p (alpha * subMod p (4 * beta % p) x % p) (8 * (gamma * gamma) % p)
    z := 2 * (a.y * a.z) % p }

def add (p : Nat) (a b : Jacobian) : Jacobian :=
  if a.z = 0 then b
  else if b.z = 0 then a
  else
    let aa := a.z * a.z % p
    let bb := b.z * b.z % p
    let left := a.x * bb % p
    let lower := a.y * (bb * b.z % p) % p
    let width := subMod p (b.x * aa % p) left
    let height := subMod p (b.y * (aa * a.z % p) % p) lower
    if width = 0 then
      if height = 0 then double p a else infinity
    else
      let square := width * width % p
      let cube := square * width % p
      let moved := left * square % p
      let x := subMod p (height * height % p) ((cube + 2 * moved) % p)
      { x
        y := subMod p (height * subMod p moved x % p) (lower * cube % p)
        z := a.z * b.z % p * width % p }

/-- The multiple of `a` by the low `bits` binary digits of `k`. -/
def multiple (p : Nat) (a : Jacobian) : (bits : Nat) → (k : Nat) → Jacobian
  | 0, _ => infinity
  | bits + 1, k =>
    let twice := double p (multiple p a bits (k / 2))
    if k % 2 = 1 then add p twice a else twice

/-- The affine x-coordinate of a point that is not at infinity; `bits` covers the prime. -/
def affineX? (p bits : Nat) (a : Jacobian) : Option Nat :=
  if a.z = 0 then none
  else
    let inverse := powMod p a.z bits (p - 2)
    some (a.x * (inverse * inverse % p) % p)

end Jacobian

/-- Whether a pair of reduced coordinates satisfies the curve equation. -/
def contains (c : Curve) (a : Coordinates) : Bool :=
  a.x < c.prime && a.y < c.prime &&
    (a.y * a.y + 3 * a.x) % c.prime == (a.x * a.x * a.x + c.coefficient) % c.prime

end RandomBits.Curve
