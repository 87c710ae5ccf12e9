import RandomBits.Generator.Operation

/-! # Builders

A builder holds the settings that every generator it makes is given. It validates them against the
chosen primitive before it asks for a seed source, and asks for a fresh one per generator.
-/

namespace RandomBits

structure Config where
  personalization : Option Bytes := none
  securityStrength : Nat := 256
  /-- The number of bits that the blocks of a seed source have to hold. -/
  entropyBits : Nat := 256
  reseedInterval : Option Nat := none
deriving DecidableEq

/-- The mechanism that a builder is asked for. A block cipher is chosen by its key size, and the
seed length is asked for to be confirmed. -/
inductive Order
  | hash (d : Digest)
  | hmac (d : Digest)
  | ctr (keyBits seedBits : Nat)
  | dualEc (d : Digest)
deriving DecidableEq

/-- The scheme that an order asks for, unless its key size or its seed length is refused. -/
def Order.scheme : Order → Except Refusal Scheme
  | hash d => .ok (.hash d)
  | hmac d => .ok (.hmac d)
  | ctr keyBits seedBits => do
    let expected := keyBits + 8 * Aes.blockLength
    require (Aes.supportsKeyBits keyBits) (.unsupportedKeySize keyBits)
    require (seedBits = expected) (.seedLengthMismatch seedBits expected)
    return .ctr keyBits
  | dualEc d => .ok (.dualEc d)

/-- Settings, and whether the generators draw auxiliary randomness. -/
structure Builder where
  config : Config := {}
  auxiliary : Bool
deriving DecidableEq

def bracketed (items : List String) : String := "[" ++ ", ".intercalate items ++ "]"

/-- An optional value by name. -/
def optional {α : Type} (describe : α → String) : Option α → String
  | none => "None"
  | some a => "Some(" ++ describe a ++ ")"

def Config.describe (c : Config) : String :=
  let bytes (b : Bytes) : String := bracketed (b.map fun x => x.toNat.repr)
  s!"BuilderConfig \x7b personalization_string: {optional bytes c.personalization}, " ++
    s!"security_strength: {c.securityStrength}, entropy_bits_required: {c.entropyBits}, " ++
    s!"reseed_interval: {optional Nat.repr c.reseedInterval} \x7d"

namespace Builder

def describe (b : Builder) : String :=
  s!"Sp800SecureRandomBuilder \x7b config: {b.config.describe}, " ++
    s!"auxiliary_randomness: {b.auxiliary}, .. \x7d"

def plan (b : Builder) (scheme : Scheme) (nonce : Bytes) : Plan where
  scheme := scheme
  parameters :=
    { nonce
      personalization := b.config.personalization
      securityStrength := b.config.securityStrength
      reseedInterval := b.config.reseedInterval }

def checkedPlan (b : Builder) (order : Order) (nonce : Bytes) : Except Refusal Plan := do
  let plan := b.plan (← order.scheme) nonce
  plan.validate b.config.entropyBits
  return plan

variable {σ ω : Type} [SeedProvider ω σ]

/-- Makes a generator in an environment: the generator, the events and the environment after. -/
def build (b : Builder) (order : Order) (nonce : Bytes) (predictionResistant : Bool) (w : ω) :
    Except Failure (Generator (Seeded σ)) × List Event × ω :=
  match b.checkedPlan order nonce with
  | .error refusal => (.error (.refused refusal), [], w)
  | .ok plan =>
    match plan.carryOut b.config.entropyBits w with
    | (.error cause, w) => (.error cause, [], w)
    | (.ok mechanism, w) =>
      let event := Event.built plan.scheme b.config.securityStrength b.config.entropyBits
        predictionResistant b.auxiliary
      (.ok { mechanism, auxiliary := b.auxiliary, predictionResistant }, [event], w)

end Builder

end RandomBits
