import RandomBits.Core.CtrDrbg
import RandomBits.Core.DualEcDrbg
import RandomBits.Core.HashDrbg
import RandomBits.Core.HmacDrbg

/-! # The four cores

A core is the working state of one of the four mechanisms. It holds no entropy and counts nothing:
it says what a request costs and how large it may be, and leaves the counting to its owner.
-/

namespace RandomBits

/-- A mechanism together with its primitives. -/
inductive Algorithm
  | hash (d : Digest)
  | hmac (d : Digest)
  | ctr (size : Aes.KeySize)
  | dualEc (d : Digest) (c : Curve)
deriving DecidableEq

/-- The working state of a mechanism. -/
inductive Core
  | hash (s : HashDrbg)
  | hmac (s : HmacDrbg)
  | ctr (s : CtrDrbg)
  | dualEc (s : DualEcDrbg)
deriving DecidableEq

/-- The most bytes that any mechanism puts out in one request. -/
def maxRequestBytes : Nat := 65536

/-- The most requests between two seeds of a mechanism that counts requests. -/
def maxRequestCount : Nat := 0x1000000000000

/-- The most blocks between two seeds of a mechanism that counts blocks. -/
def maxBlockCount : Nat := 0x100000000

namespace Core

def instantiate (a : Algorithm) (entropy nonce personalization : Bytes) : Core :=
  match a with
  | .hash d => .hash (.instantiate d entropy nonce personalization)
  | .hmac d => .hmac (.instantiate d entropy nonce personalization)
  | .ctr size => .ctr (.instantiate size entropy nonce personalization)
  | .dualEc d c => .dualEc (.instantiate d c entropy nonce personalization)

def algorithm : Core → Algorithm
  | hash s => .hash s.digest
  | hmac s => .hmac s.digest
  | ctr s => .ctr s.size
  | dualEc s => .dualEc s.digest s.curve

def reseed (entropy additional : Bytes) : Core → Core
  | hash s => .hash (s.reseed entropy additional)
  | hmac s => .hmac (s.reseed entropy additional)
  | ctr s => .ctr (s.reseed entropy additional)
  | dualEc s => .dualEc (s.reseed entropy additional)

/-- Puts out up to `length` bytes, all of them unless there is a fault, and moves the state on, which is
given back in either case. `counter` is the number of this request since the last seed. -/
def generate (length : Nat) (additional : Bytes) (counter : Nat) :
    Core → Bytes × Except Fault Unit × Core
  | hash s =>
    let (output, next) := s.generate length additional counter
    (output, .ok (), .hash next)
  | hmac s =>
    let (output, next) := s.generate length additional
    (output, .ok (), .hmac next)
  | ctr s =>
    let (output, next) := s.generate length additional
    (output, .ok (), .ctr next)
  | dualEc s =>
    let (output, result, next) := s.generate length additional
    (output, result, .dualEc next)

end Core

namespace Algorithm

/-- The length of an output block in bytes. -/
def blockLength : Algorithm → Nat
  | hash d | hmac d => d.outputLength
  | ctr _ => Aes.blockLength
  | dualEc _ c => c.outputLength

/-- The length of an output block in bits. -/
def blockBits (a : Algorithm) : Nat := 8 * a.blockLength

/-- What a request for `length` bytes adds to the reseed counter: one, or its number of blocks
where blocks are counted. -/
def requestCost (length : Nat) : Algorithm → Nat
  | dualEc _ c => blocksFor length c.outputLength
  | _ => 1

def maxReseedInterval : Algorithm → Nat
  | dualEc _ _ => maxBlockCount
  | _ => maxRequestCount

/-- The most bytes that one request may ask for under a reseed interval. -/
def maxRequest (interval : Nat) : Algorithm → Nat
  | dualEc _ c => min (maxRequestBytes / c.outputLength) interval * c.outputLength
  | _ => maxRequestBytes

end Algorithm

end RandomBits
