/-! # Mechanism faults

A fault is a reason for which a mechanism can no longer be trusted. A generator that meets one is
disabled for good.
-/

namespace RandomBits

/-- Why a mechanism must not be used again. -/
inductive Fault
  /-- A single request asked for more bytes than the mechanism puts out at once. -/
  | requestTooLong
  /-- The mechanism asked for a reseed directly after one. -/
  | reseedLoop
  /-- The generator met a fault in an earlier call. -/
  | poisoned
  /-- The second point of a curve does not satisfy the curve equation. -/
  | pointNotOnCurve
  /-- A scalar is not below the group order after one reduction. -/
  | scalarOutOfRange
  /-- A multiple of a point has no coordinates. -/
  | pointAtInfinity
  /-- A reason that a mechanism gives in its own words. -/
  | reported (reason : String)
deriving DecidableEq

def Fault.message : Fault → String
  | requestTooLong => "request exceeds the per-request limit"
  | reseedLoop => "reseed required immediately after reseed"
  | poisoned => "generator disabled after an earlier mechanism fault"
  | pointNotOnCurve => "Q is not a point on the curve"
  | scalarOutOfRange => "scalar out of range"
  | pointAtInfinity => "scalar multiple is the point at infinity"
  | reported reason => reason

end RandomBits
