/-! # Constants from the roots of primes

The constants of the SHA-2 functions are leading bits of the fractional parts of square and cube
roots of the first primes. They are computed here in exact integer arithmetic.
-/

namespace RandomBits.Sha2

/-- Extends `start` by `bits` lower binary digits to the largest `r` with `r ^ degree ≤ n`. -/
def rootFrom (degree n : Nat) : (bits : Nat) → (start : Nat) → Nat
  | 0, start => start
  | bit + 1, start =>
    let candidate := start + 1 <<< bit
    rootFrom degree n bit (if candidate.pow degree ≤ n then candidate else start)

/-- The first `width` bits after the binary point of the root of `n`, for roots below 256. -/
def rootFraction (degree width n : Nat) : Nat :=
  rootFrom degree (n <<< (degree * width)) (width + 8) 0 % 1 <<< width

/-- Whether `n` has no divisors but one and itself. -/
def isPrime (n : Nat) : Bool := 2 ≤ n && (List.range n).all fun d => d < 2 || n % d != 0

/-- The eighty smallest primes, of which the largest is 409. -/
def primes : List Nat := (List.range 410).filter isPrime

end RandomBits.Sha2
