import RandomBits.Digest.Basic

/-! # Keyed message authentication

The keyed-hash message authentication code over the approved digests: a digest of the keyed message
under one mask of the key, and a digest of that under another.
-/

namespace RandomBits.Digest

/-- A key brought to the block length: a longer one is hashed first, and zero bytes fill up. -/
def blockKey (d : Digest) (key : Bytes) : Bytes :=
  let short := if key.length ≤ d.blockLength then key else d.hash [key]
  short ++ Bytes.zeros (d.blockLength - short.length)

/-- The authentication code of the concatenation of `parts` under `key`. -/
def hmac (d : Digest) (key : Bytes) (parts : List Bytes) : Bytes :=
  let block := d.blockKey key
  let inner := d.hash (block.map (· ^^^ 0x36) :: parts)
  d.hash [block.map (· ^^^ 0x5c), inner]

@[simp] theorem length_hmac (d : Digest) (key : Bytes) (parts : List Bytes) :
    (d.hmac key parts).length = d.outputLength := by
  simp [hmac]

end RandomBits.Digest
