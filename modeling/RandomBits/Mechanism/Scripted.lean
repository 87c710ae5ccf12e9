import RandomBits.Entropy.Playback
import RandomBits.Mechanism.Basic

/-! # Scripted mechanisms

A mechanism that answers from two lists of replies, one for requests and one for reseeds, and
succeeds when they have ended. It stands in for a real mechanism to show what a generator does.
-/

namespace RandomBits

/-- The fixed properties and the remaining replies of a scripted mechanism. -/
structure Scripted where
  blockBits : Nat := 128
  securityStrength : Nat := 128
  maxRequest : Nat := 65536
  /-- How the coming requests end. -/
  requests : List (Except RequestError Unit) := []
  /-- How the coming reseeds end. -/
  reseeds : List (Except Failure Unit) := []
  /-- The number of requests that have succeeded, which is what they put out. -/
  succeeded : Nat := 0

namespace Scripted

/-- Answers a request. A success fills it with the number of successes. -/
def generate (m : Scripted) (length : Nat) : Reply × Scripted :=
  let next := { m with requests := m.requests.tail }
  match m.requests.headD (.ok ()) with
  | .error cause => ({ written := [], result := .error cause }, next)
  | .ok () =>
    let succeeded := m.succeeded + 1
    let written := List.replicate length (UInt8.ofNat succeeded)
    ({ written, result := .ok () }, { next with succeeded })

instance : Mechanism Scripted where
  generate m length _ _ := m.generate length
  reseed m _ := (m.reseeds.headD (.ok ()), { m with reseeds := m.reseeds.tail })
  blockBits m := m.blockBits
  securityStrength m := m.securityStrength
  maxRequest m := m.maxRequest

end Scripted

end RandomBits
