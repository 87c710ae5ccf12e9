import RandomBits.Bytes.Stream
import RandomBits.Digest.Mac

/-! # The HMAC_DRBG core

The working state is a key and a value of the length of a digest. Output is the chain of
authentication codes of the value under the key.
-/

namespace RandomBits

structure HmacDrbg where
  digest : Digest
  key : Bytes
  v : Bytes
deriving DecidableEq

namespace HmacDrbg

/-- One round of an update: a new key from the value, a separator and the data, and a new value
under it. -/
def round (s : HmacDrbg) (separator : UInt8) (data : List Bytes) : HmacDrbg :=
  let key := s.digest.hmac s.key (s.v :: [separator] :: data)
  { s with key, v := s.digest.hmac key [s.v] }

/-- Mixes data, given in parts, into the state. The second round is left out if there is none. -/
def update (s : HmacDrbg) (data : List Bytes) : HmacDrbg :=
  let first := s.round 0x00 data
  if data.any (!·.isEmpty) then first.round 0x01 data else first

def instantiate (d : Digest) (entropy nonce personalization : Bytes) : HmacDrbg :=
  let blank : HmacDrbg :=
    { digest := d
      key := Bytes.zeros d.outputLength
      v := List.replicate d.outputLength 0x01 }
  blank.update [entropy, nonce, personalization]

def reseed (s : HmacDrbg) (entropy additional : Bytes) : HmacDrbg := s.update [entropy, additional]

/-- One block of output, which is the next value. -/
def outputStep (s : HmacDrbg) : Bytes × HmacDrbg :=
  let v := s.digest.hmac s.key [s.v]
  (v, { s with v })

def generate (s : HmacDrbg) (length : Nat) (additional : Bytes) : Bytes × HmacDrbg :=
  let start := if additional.isEmpty then s else s.update [additional]
  let (output, last) := emitBytes outputStep s.digest.outputLength length start
  (output, last.update [additional])

end HmacDrbg

end RandomBits
