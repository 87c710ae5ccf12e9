import RandomBits.Aes.Derivation
import RandomBits.Bytes.Arithmetic

/-! # The CTR_DRBG core

The working state is a key and a counter block. Output is the encryption of successive increments
of the counter. All data is passed through the derivation function before it is mixed in.
-/

namespace RandomBits

structure CtrDrbg where
  size : Aes.KeySize
  key : Bytes
  v : Bytes
deriving DecidableEq

namespace CtrDrbg

/-- One block of key stream: the counter is incremented first and then encrypted. -/
def outputStep (keys : Aes.RoundKeys) (v : Bytes) : Bytes × Bytes :=
  let next := v.increment
  (keys.encrypt next, next)

/-- The next `length` bytes of key stream, and the last counter that was used. -/
def keyStream (s : CtrDrbg) (length : Nat) : Bytes × Bytes :=
  emitBytes (outputStep (.ofKey s.size s.key)) Aes.blockLength length s.v

/-- Mixes data of the seed length into key stream, which becomes the new key and counter. -/
def update (s : CtrDrbg) (data : Bytes) : CtrDrbg :=
  let mixed := (s.keyStream s.size.seedLength).1.xor data
  { s with key := mixed.take s.size.keyLength, v := mixed.drop s.size.keyLength }

def instantiate (size : Aes.KeySize) (entropy nonce personalization : Bytes) : CtrDrbg :=
  let blank : CtrDrbg :=
    { size, key := Bytes.zeros size.keyLength, v := Bytes.zeros Aes.blockLength }
  blank.update (Aes.blockCipherDf size [entropy, nonce, personalization])

def reseed (s : CtrDrbg) (entropy additional : Bytes) : CtrDrbg :=
  s.update (Aes.blockCipherDf s.size [entropy, additional])

/-- What additional input adds to updates: its derivation, or zero bytes if it is empty. -/
def derivedInput (s : CtrDrbg) (additional : Bytes) : Bytes :=
  if additional.isEmpty then Bytes.zeros s.size.seedLength
  else Aes.blockCipherDf s.size [additional]

def generate (s : CtrDrbg) (length : Nat) (additional : Bytes) : Bytes × CtrDrbg :=
  let data := s.derivedInput additional
  let start := if additional.isEmpty then s else s.update data
  let (output, v) := start.keyStream length
  (output, { start with v }.update data)

end CtrDrbg

end RandomBits
