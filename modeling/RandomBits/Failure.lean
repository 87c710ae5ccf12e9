import RandomBits.Aes.Cipher
import RandomBits.Curve.Basic
import RandomBits.Digest.Basic
import RandomBits.Fault

/-! # Causes of failure

A call fails for one of four kinds of reason: a configuration that the chosen primitive cannot
honour, entropy that cannot be had, a mechanism fault, or, between a generator and its mechanism
only, an exhausted reseed interval. Each kind has one function that states its text.
-/

namespace RandomBits

/-- A primitive whose strength limits a configuration. -/
inductive Primitive
  | digest (d : Digest)
  | cipher
  | curve (c : Curve)
deriving DecidableEq

def Primitive.name : Primitive → String
  | digest d => d.name
  | cipher => Aes.name
  | curve c => c.name

/-- Why entropy could not be had. -/
inductive EntropyFailure
  /-- The source failed. -/
  | source (reason : String)
  /-- The source has no more blocks. -/
  | exhausted
  /-- The source returned fewer bits than the seed needs. -/
  | insufficient (provided required : Nat)
  /-- The provider has no sources of so many bits. -/
  | unsupported (bits : Nat)
deriving DecidableEq

def EntropyFailure.message : EntropyFailure → String
  | source reason => s!"entropy source failure: {reason}"
  | exhausted => "entropy source exhausted"
  | insufficient provided required =>
    s!"entropy source returned {provided} bits but {required} are required"
  | unsupported bits => s!"cannot provide entropy sources of {bits} bits"

/-- Why a configuration or an argument is refused. -/
inductive Refusal
  | zeroSecurityStrength
  | zeroEntropyBits
  | unsupportedSecurityStrength (requested supported : Nat) (primitive : Primitive)
  | insufficientEntropyBits (provided required : Nat)
  | unsupportedKeySize (bits : Nat)
  | seedLengthMismatch (given expected : Nat)
  | reseedIntervalOutOfRange (requested max : Nat)
  | personalizationStringTooLong
  | additionalInputTooLong
deriving DecidableEq

def Refusal.message : Refusal → String
  | zeroSecurityStrength => "security strength must be a positive number of bits"
  | zeroEntropyBits => "entropy bits required must be a positive number of bits"
  | unsupportedSecurityStrength requested supported primitive =>
    s!"requested security strength of {requested} bits exceeds the {supported} bits supported by "
      ++ primitive.name
  | insufficientEntropyBits provided required =>
    s!"entropy source provides {provided} bits but security strength requires {required}"
  | unsupportedKeySize bits => s!"unsupported key size of {bits} bits for {Aes.name}"
  | seedLengthMismatch given expected =>
    s!"seed length of {given} bits does not match the {expected} bits of {Aes.name}"
  | reseedIntervalOutOfRange requested max => s!"reseed interval {requested} outside 1..={max}"
  | personalizationStringTooLong => "personalization string too long"
  | additionalInputTooLong => "additional input too long"

/-- Why a builder, a mechanism or a generator fails. -/
inductive Failure
  | refused (cause : Refusal)
  | entropyUnavailable (cause : EntropyFailure)
  | faulted (cause : Fault)
deriving DecidableEq

def Failure.message : Failure → String
  | refused cause => "configuration error: " ++ cause.message
  | entropyUnavailable cause => "entropy unavailable: " ++ cause.message
  | faulted cause => "mechanism fault: " ++ cause.message

/-- Why a single request to a mechanism put out nothing. -/
inductive RequestError
  /-- The reseed interval is exhausted: the caller has to reseed and to ask again. -/
  | reseedRequired
  | failed (cause : Failure)
deriving DecidableEq

def RequestError.message : RequestError → String
  | reseedRequired => "reseed required"
  | failed cause => cause.message

end RandomBits
