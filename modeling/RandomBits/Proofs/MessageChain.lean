import Mathlib
import RandomBits.Proofs.Derivation

/-! # HMAC_DRBG on messages

The standard describes HMAC_DRBG by authentication codes of single messages (`HmacDrbg.mac`), where data in
parts is one string (`HmacDrbg.absorb`), and its output by a chain of codes (`HmacDrbg.chained`). Main
statement: every state is seeded, updated and asked for output as the standard has it, with the codes of the
standard, and empty parts do not count (`HmacDrbg.chains_messages`).
-/

namespace RandomBits.HmacDrbg

/-- A key that is longer than a message block is replaced by its digest. -/
def shortKey (d : Digest) (key : Bytes) : Bytes :=
  if d.blockLength < key.length then d.hash [key] else key

/-- A message block of equal bytes into which a key is mixed, with zeros behind its end. -/
def keyed (d : Digest) (key : Bytes) (pad : UInt8) : Bytes :=
  List.ofFn fun i : Fin d.blockLength => (shortKey d key).getD i 0 ^^^ pad

/-- The authentication code of one message: the digest of a keyed block and of the digest of another keyed
block and the message. -/
def mac (d : Digest) (key message : Bytes) : Bytes :=
  d.hash [keyed d key 0x5c ++ d.hash [keyed d key 0x36 ++ message]]

private theorem length_shortKey_le (d : Digest) (key : Bytes) :
    (shortKey d key).length ≤ d.blockLength := by
  unfold shortKey
  split
  · exact (d.length_hash _).trans_le d.outputLength_le_blockLength
  · omega

/-- Keys are filled up with zeros and mixed in as whole blocks. -/
theorem map_blockKey (d : Digest) (key : Bytes) (pad : UInt8) :
    (d.blockKey key).map (· ^^^ pad) = keyed d key pad := by
  have short := length_shortKey_le d key
  have block : d.blockKey key =
      shortKey d key ++ Bytes.zeros (d.blockLength - (shortKey d key).length) := by
    simp only [Digest.blockKey, shortKey, ← not_lt, ite_not]
  refine List.ext_getElem ?_ fun i inside _ => ?_
  · simp [block, keyed, short]
  · simp only [List.getElem_map, block, keyed, List.getElem_ofFn, List.getElem_append]
    split
    next before => rw [List.getD_eq_getElem _ _ before]
    next behind =>
      rw [List.getD_eq_default _ _ (not_lt.mp behind)]
      simp only [Bytes.zeros, List.getElem_replicate]

/-- A code of a message in parts is that of the whole message. -/
theorem hmac_eq_mac (d : Digest) (key : Bytes) (parts : List Bytes) :
    d.hmac key parts = mac d key parts.flatten := by
  have inner : d.hash (keyed d key 0x36 :: parts) = d.hash [keyed d key 0x36 ++ parts.flatten] :=
    d.hash_congr (by simp)
  simp only [Digest.hmac, map_blockKey, inner, mac]
  exact d.hash_congr (by simp)

/-- A new key from the value, a separator and the data, and a new value under it. -/
def pass (s : HmacDrbg) (separator : UInt8) (data : Bytes) : HmacDrbg :=
  let key := mac s.digest s.key (s.v ++ [separator] ++ data)
  { s with key, v := mac s.digest key s.v }

/-- The update of the standard: a second pass is made exactly if there is data. -/
def absorb (s : HmacDrbg) (data : Bytes) : HmacDrbg :=
  let first := s.pass 0x00 data
  if data = [] then first else first.pass 0x01 data

/-- The state that seed material is mixed into: a key of zeros, and a value of ones. -/
def blank (d : Digest) : HmacDrbg :=
  { digest := d, key := Bytes.zeros d.outputLength, v := List.replicate d.outputLength 0x01 }

/-- The value after a number of authentication codes under the key of a state. -/
def chained (s : HmacDrbg) (i : ℕ) : Bytes := (mac s.digest s.key)^[i] s.v

/-- The state that output starts from: additional input, unless empty, is mixed in. -/
def prepared (s : HmacDrbg) (additional : Bytes) : HmacDrbg :=
  if additional = [] then s else s.absorb additional

theorem round_eq_pass (s : HmacDrbg) (separator : UInt8) (data : List Bytes) :
    s.round separator data = s.pass separator data.flatten := by
  simp only [round, pass, hmac_eq_mac, List.flatten_cons, List.flatten_nil, List.append_assoc,
    List.append_nil]

/-- Parts are empty exactly if their concatenation is. -/
private theorem any_not_isEmpty_iff (data : List Bytes) :
    (data.any fun part => !part.isEmpty) = true ↔ data.flatten ≠ [] := by
  simp [List.flatten_eq_nil_iff]

theorem update_eq_absorb (s : HmacDrbg) (data : List Bytes) : s.update data = s.absorb data.flatten := by
  simp only [update, absorb, any_not_isEmpty_iff, round_eq_pass, ite_not]

/-- Output goes along the chain of values. -/
theorem emitBytes_outputStep (s : HmacDrbg) (length : ℕ) :
    emitBytes outputStep s.digest.outputLength length s =
      (leading s.digest.outputLength length fun i => s.chained (i + 1),
        { s with v := s.chained (blocksFor length s.digest.outputLength) }) := by
  have moves (v : Bytes) : outputStep { s with v } =
      (mac s.digest s.key v, { s with v := mac s.digest s.key v }) := by
    simp only [outputStep, hmac_eq_mac, List.flatten_singleton]
  exact emitBytes_of_iterates moves s.digest.outputLength length s.v

/-- Updates, reseeds and output of a state as the standard has them. -/
structure ChainsMessages (s : HmacDrbg) : Prop where
  update (data : List Bytes) : s.update data = s.absorb data.flatten
  /-- Empty parts do not count, however many there are and wherever they stand. -/
  withoutEmpty (data : List Bytes) :
    s.update (data.filter fun part => !part.isEmpty) = s.update data
  reseed (entropy additional : Bytes) : s.reseed entropy additional = s.absorb (entropy ++ additional)
  output (length : ℕ) (additional : Bytes) :
    (s.generate length additional).1 =
      leading s.digest.outputLength length fun i => (s.prepared additional).chained (i + 1)
  /-- The closing update goes on from the last value that was put out. -/
  next (length : ℕ) (additional : Bytes) :
    (s.generate length additional).2 =
      absorb { s.prepared additional with
        v := (s.prepared additional).chained (blocksFor length s.digest.outputLength) } additional

theorem generate_eq (s : HmacDrbg) (length : ℕ) (additional : Bytes) :
    s.generate length additional =
      (leading s.digest.outputLength length fun i => (s.prepared additional).chained (i + 1),
        absorb { s.prepared additional with
          v := (s.prepared additional).chained (blocksFor length s.digest.outputLength) }
          additional) := by
  have prepared : (if additional.isEmpty then s else s.update [additional]) = s.prepared additional := by
    simp only [HmacDrbg.prepared, update_eq_absorb, List.flatten_singleton, List.isEmpty_iff]
  have digest : (s.prepared additional).digest = s.digest := by
    rw [← prepared, digest_start]
  rw [← digest]
  simp only [generate]
  rw [prepared, ← digest, emitBytes_outputStep, update_eq_absorb, List.flatten_singleton]

/-- HMAC_DRBG is seeded, updated and asked for output as the standard has it on messages. -/
theorem chains_messages :
    (∀ (d : Digest) (entropy nonce personalization : Bytes),
      instantiate d entropy nonce personalization =
        (blank d).absorb (entropy ++ nonce ++ personalization)) ∧
    ∀ s : HmacDrbg, s.ChainsMessages := by
  constructor
  · intro d entropy nonce personalization
    rw [instantiate, update_eq_absorb]
    simp [blank]
  · intro s
    exact
      { update := s.update_eq_absorb
        withoutEmpty := fun data => by
          rw [update_eq_absorb, update_eq_absorb, List.flatten_filter_not_isEmpty]
        reseed := fun entropy additional => by
          rw [HmacDrbg.reseed, update_eq_absorb]
          simp
        output := fun length additional => by rw [generate_eq]
        next := fun length additional => by rw [generate_eq] }

end RandomBits.HmacDrbg
