import RandomBits.Entropy.Basic

/-! # What a mechanism offers

A mechanism fills one request at a time and reseeds on demand. A generator knows it only through
the class `Mechanism`. The state of a mechanism is whatever its calls depend on and change, so it
includes the environment that it draws its entropy from.
-/

namespace RandomBits

/-- What one request for output leads to: the bytes that were put out first, and whether the
request succeeded. -/
structure Reply where
  written : Bytes
  result : Except RequestError Unit

/-- The states of a mechanism and the calls on them. -/
class Mechanism (μ : Type) where
  /-- Asks for `length` bytes. With prediction resistance the mechanism first reseeds with the
  additional input and then generates without any. -/
  generate : μ → (length : Nat) → (additional : Bytes) → (predictionResistant : Bool) → Reply × μ
  /-- Mixes fresh entropy and additional input into the state. -/
  reseed : μ → (additional : Bytes) → Except Failure Unit × μ
  /-- The length of an output block in bits. -/
  blockBits : μ → Nat
  /-- The security strength in bits. -/
  securityStrength : μ → Nat
  /-- The most bytes that one request may ask for. -/
  maxRequest : μ → Nat

/-- A call to a mechanism and how it ended. -/
inductive Exchange
  | generate (length : Nat) (additional : Bytes) (predictionResistant : Bool)
      (result : Except RequestError Unit)
  | reseed (additional : Bytes) (result : Except Failure Unit)

/-- A mechanism with the calls that were made to it, in order. -/
structure Logged (μ : Type) where
  mechanism : μ
  exchanges : List Exchange := []

instance {μ : Type} [Mechanism μ] : Mechanism (Logged μ) where
  generate m length additional predictionResistant :=
    let (reply, mechanism) :=
      Mechanism.generate m.mechanism length additional predictionResistant
    let exchange := Exchange.generate length additional predictionResistant reply.result
    (reply, { mechanism, exchanges := m.exchanges ++ [exchange] })
  reseed m additional :=
    let (result, mechanism) := Mechanism.reseed m.mechanism additional
    (result, { mechanism, exchanges := m.exchanges ++ [.reseed additional result] })
  blockBits m := Mechanism.blockBits m.mechanism
  securityStrength m := Mechanism.securityStrength m.mechanism
  maxRequest m := Mechanism.maxRequest m.mechanism

/-- A mechanism beside randomness that it has no part in. -/
structure Beside (μ ρ : Type) where
  mechanism : μ
  randomness : ρ

instance {μ ρ : Type} [Mechanism μ] : Mechanism (Beside μ ρ) where
  generate m length additional predictionResistant :=
    let (reply, mechanism) :=
      Mechanism.generate m.mechanism length additional predictionResistant
    (reply, { m with mechanism })
  reseed m additional :=
    let (result, mechanism) := Mechanism.reseed m.mechanism additional
    (result, { m with mechanism })
  blockBits m := Mechanism.blockBits m.mechanism
  securityStrength m := Mechanism.securityStrength m.mechanism
  maxRequest m := Mechanism.maxRequest m.mechanism

instance {μ ρ : Type} [Randomness ρ] : Randomness (Beside μ ρ) where
  draw m length :=
    let (result, randomness) := Randomness.draw m.randomness length
    (result, { m with randomness })

end RandomBits
