import RandomBits.Bytes.Basic

/-! # The prime curves and their point pairs

The three curves that Dual_EC_DRBG runs on, each with its generator `P` and the second point `Q`
that the mechanism is published with. All curves have the form `y ^ 2 = x ^ 3 - 3 x + b`.
-/

namespace RandomBits

structure Coordinates where
  x : Nat
  y : Nat
deriving DecidableEq

/-- A prime curve. -/
inductive Curve
  | p256
  | p384
  | p521
deriving DecidableEq

namespace Curve

def name : Curve → String
  | p256 => "P-256"
  | p384 => "P-384"
  | p521 => "P-521"

def securityStrength : Curve → Nat
  | p256 => 128
  | p384 => 192
  | p521 => 256

/-- The smallest curve that meets a security strength. -/
def forStrength? (strength : Nat) : Option Curve :=
  [p256, p384, p521].find? fun c => strength ≤ c.securityStrength

/-- The length of the seed, and of the prime, in bits. -/
def seedBits : Curve → Nat
  | p256 => 256
  | p384 => 384
  | p521 => 521

/-- The number of bytes that are put out for one block. -/
def outputLength : Curve → Nat
  | p256 => 30
  | p384 => 46
  | p521 => 63

/-- The length in bytes of a written coordinate. -/
def fieldLength (c : Curve) : Nat := blocksFor c.seedBits 8

def prime : Curve → Nat
  | p256 => 1 <<< 256 - 1 <<< 224 + 1 <<< 192 + 1 <<< 96 - 1
  | p384 => 1 <<< 384 - 1 <<< 128 - 1 <<< 96 + 1 <<< 32 - 1
  | p521 => 1 <<< 521 - 1

/-- The constant term of the curve equation. -/
def coefficient : Curve → Nat
  | p256 => 0x5ac635d8aa3a93e7b3ebbd55769886bc651d06b0cc53b0f63bce3c3e27d2604b
  | p384 =>
    0xb3312fa7e23ee7e4988e056be3f82d19181d9c6efe8141120314088f5013875ac656398d8a2ed19d2a85c8edd3ec2aef
  | p521 =>
    0x51953eb9618e1c9a1f929a21a0b68540eea2da725b99b315f3b8b489918ef109e1 <<< 256
      + 0x56193951ec7e937b1652c0bd3bb1bf073573df883d2c34f1ef451fd46b503f00

/-- The number of points, which is prime. -/
def order : Curve → Nat
  | p256 => 0xffffffff00000000ffffffffffffffffbce6faada7179e84f3b9cac2fc632551
  | p384 => 1 <<< 384 - 0x389cb27e0bc8d220a7e5f24db74f58851313e695333ad68d
  | p521 => 1 <<< 521 - 0x5ae79787c40d069948033feb708f65a2fc44a36477663b851449048e16ec79bf7

/-- The generator of the group of points. -/
def pointP : Curve → Coordinates
  | p256 =>
    { x := 0x6b17d1f2e12c4247f8bce6e563a440f277037d812deb33a0f4a13945d898c296
      y := 0x4fe342e2fe1a7f9b8ee7eb4a7c0f9e162bce33576b315ececbb6406837bf51f5 }
  | p384 =>
    { x :=
        0xaa87ca22be8b05378eb1c71ef320ad746e1d3b628ba79b9859f741e082542a385502f25dbf55296c3a545e3872760ab7
      y :=
        0x3617de4a96262c6f5d9e98bf9292dc29f8f41dbd289a147ce9da3113b5f0b8c00a60b1ce1d7e819d7a431d7c90ea0e5f }
  | p521 =>
    { x :=
        0xc6858e06b70404e9cd9e3ecb662395b4429c648139053fb521f828af606b4d3dba <<< 256
          + 0xa14b5e77efe75928fe1dc127a2ffa8de3348b3c1856a429bf97e7e31c2e5bd66
      y :=
        0x11839296a789a3bc0045c8a5fb42c7d1bd998f54449579b446817afbd17273e662c <<< 256
          + 0x97ee72995ef42640c550b9013fad0761353c7086a272c24088be94769fd16650 }

def pointQ : Curve → Coordinates
  | p256 =>
    { x := 0xc97445f45cdef9f0d3e05e1e585fc297235b82b5be8ff3efca67c59852018192
      y := 0xb28ef557ba31dfcbdd21ac46e2a91e3c304f44cb87058ada2cb815151e610046 }
  | p384 =>
    { x :=
        0x8e722de3125bddb05580164bfe20b8b432216a62926c57502ceede31c47816edd1e89769124179d0b695106428815065
      y :=
        0x23b1660dd701d0839fd45eec36f9ee7b32e13b315dc02610aa1b636e346df671f790f84c5e09b05674dbb7e45c803dd }
  | p521 =>
    { x :=
        0x1b9fa3e518d683c6b65763694ac8efbaec6fab44f2276171a42726507dd08add4c3 <<< 256
          + 0xb3f4c1ebc5b1222ddba077f722943b24c3edfa0f85fe24d0c8c01591f0be6f63
      y :=
        0x1f3bdba585295d9a1110d1df1f9430ef8442c5018976ff3437ef91b81dc0b8132c8 <<< 256
          + 0xd5c39c32d0e004a3092b7d327c0e7a4d26d2c7b69b58f9066652911e457779de }

end Curve

end RandomBits
