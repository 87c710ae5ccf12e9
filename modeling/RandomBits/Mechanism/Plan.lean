import RandomBits.Mechanism.Seeded

/-! # Plans for mechanisms

A plan says which mechanism is to be made, on which primitive and with which parameters. It is
validated as a whole before any entropy is touched, and it is carried out on a seed source.
-/

namespace RandomBits

/-- A mechanism with the primitive that was asked for. The key size may be unsupported, and the
curve of Dual_EC_DRBG follows from the security strength. -/
inductive Scheme
  | hash (d : Digest)
  | hmac (d : Digest)
  | ctr (keyBits : Nat)
  | dualEc (d : Digest)
deriving DecidableEq

/-- A scheme and the parameters to instantiate it with. -/
structure Plan where
  scheme : Scheme
  parameters : Parameters
deriving DecidableEq

/-- Goes on if a requirement is met, and refuses otherwise. -/
def require (requirement : Prop) [Decidable requirement] (refusal : Refusal) :
    Except Refusal Unit :=
  if requirement then .ok () else .error refusal

namespace Scheme

def name : Scheme → String
  | hash _ => "Hash_DRBG"
  | hmac _ => "HMAC_DRBG"
  | ctr _ => "CTR_DRBG"
  | dualEc _ => "Dual_EC_DRBG"

def primitive : Scheme → Primitive
  | hash d | hmac d | dualEc d => .digest d
  | ctr _ => .cipher

def maxReseedInterval : Scheme → Nat
  | dualEc _ => maxBlockCount
  | _ => maxRequestCount

/-- The strength of the block cipher with keys of a number of bits that it supports. -/
def cipherStrength : (keyBits : Nat) → Nat
  | 128 => Aes.KeySize.aes128.bits
  | 192 => Aes.KeySize.aes192.bits
  | _ => Aes.KeySize.aes256.bits

/-- The highest strength in bits that a scheme supports when `requested` bits are asked for, and
the primitive that limits it. -/
def supportedStrength (requested : Nat) : Scheme → Except Refusal (Nat × Primitive)
  | hash d | hmac d => .ok (d.maxSecurityStrength, .digest d)
  | ctr keyBits =>
    if Aes.supportsKeyBits keyBits then .ok (cipherStrength keyBits, .cipher)
    else .error (.unsupportedKeySize keyBits)
  | dualEc d =>
    match Curve.forStrength? requested with
    | none => .ok (Curve.p521.securityStrength, .curve .p521)
    | some c =>
      if d.maxSecurityStrength < c.securityStrength then .ok (d.maxSecurityStrength, .digest d)
      else .ok (c.securityStrength, .curve c)

/-- The algorithm that a scheme stands for at a security strength. -/
def algorithm (strength : Nat) : Scheme → Except Refusal Algorithm
  | hash d => .ok (.hash d)
  | hmac d => .ok (.hmac d)
  | ctr keyBits =>
    match Aes.KeySize.ofBits? keyBits with
    | none => .error (.unsupportedKeySize keyBits)
    | some size => .ok (.ctr size)
  | dualEc d =>
    match Curve.forStrength? strength with
    | none =>
      .error (.unsupportedSecurityStrength strength Curve.p521.securityStrength (.curve .p521))
    | some c => .ok (.dualEc d c)

end Scheme

def Algorithm.scheme : Algorithm → Scheme
  | hash d => .hash d
  | hmac d => .hmac d
  | ctr size => .ctr size.bits
  | dualEc d _ => .dualEc d

namespace Plan

/-- Refuses a plan that cannot be carried out with sources of `entropyBits` bits. -/
def validate (p : Plan) (entropyBits : Nat) : Except Refusal Unit := do
  let requested := p.parameters.securityStrength
  require (requested ≠ 0) .zeroSecurityStrength
  require (entropyBits ≠ 0) .zeroEntropyBits
  let (supported, primitive) ← p.scheme.supportedStrength requested
  require (requested ≤ supported) (.unsupportedSecurityStrength requested supported primitive)
  require (requested ≤ entropyBits) (.insufficientEntropyBits entropyBits requested)
  if let some interval := p.parameters.reseedInterval then
    let max := p.scheme.maxReseedInterval
    require (interval ≠ 0 ∧ interval ≤ max) (.reseedIntervalOutOfRange interval max)
  require ((p.parameters.personalization.getD []).length ≤ maxInputLength)
    .personalizationStringTooLong

def instantiate {σ ω : Type} [SeedSource σ ω] (p : Plan) (source : σ) (w : ω) :
    Except Failure (Seeded σ) × ω :=
  match p.scheme.algorithm p.parameters.securityStrength with
  | .error refusal => (.error (.refused refusal), w)
  | .ok a => Seeded.instantiate a p.parameters source w

/-- Carries out a plan on a new seed source of `entropyBits` bits. -/
def carryOut {σ ω : Type} [SeedProvider ω σ] (p : Plan) (entropyBits : Nat) (w : ω) :
    Except Failure (Seeded σ) × ω :=
  match SeedProvider.get w entropyBits with
  | (.error cause, w) => (.error (.entropyUnavailable cause), w)
  | (.ok source, w) => p.instantiate source w

end Plan

end RandomBits
