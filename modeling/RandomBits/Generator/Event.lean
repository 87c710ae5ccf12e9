import RandomBits.Mechanism.Plan

/-! # Traced events

What builders and generators report while they work. An event carries public facts only: none of
its fields holds seed material, input or output.
-/

namespace RandomBits

/-- An event worth reporting. -/
inductive Event
  /-- A generator was built. -/
  | built (scheme : Scheme) (securityStrength entropyBits : Nat)
      (predictionResistant auxiliaryRandomness : Bool)
  /-- A mechanism asked to be reseeded, and will be. -/
  | intervalExhausted
  /-- A generator was reseeded on demand. -/
  | reseeded (securityStrength : Nat)
  /-- A fault disabled a generator. -/
  | disabled (reason : Fault)
deriving DecidableEq

/-- The value of an event's field. -/
inductive EventField
  | text (value : String)
  | number (value : Nat)
  | flag (value : Bool)
deriving DecidableEq

namespace Event

def isWarning : Event → Bool
  | disabled _ => true
  | _ => false

def level (e : Event) : String := if e.isWarning then "WARN" else "DEBUG"

def message : Event → String
  | built .. => "built secure random"
  | intervalExhausted => "reseed interval exhausted, reseeding"
  | reseeded _ => "generator reseeded"
  | disabled _ => "mechanism fault, disabling generator"

def fields : Event → List (String × EventField)
  | built scheme securityStrength entropyBits predictionResistant auxiliaryRandomness =>
    [("mechanism", .text scheme.name),
      ("primitive", .text scheme.primitive.name),
      ("security_strength", .number securityStrength),
      ("entropy_bits", .number entropyBits),
      ("prediction_resistant", .flag predictionResistant),
      ("auxiliary_randomness", .flag auxiliaryRandomness)]
  | intervalExhausted => []
  | reseeded securityStrength => [("security_strength", .number securityStrength)]
  | disabled reason => [("reason", .text reason.message)]

end Event

end RandomBits
