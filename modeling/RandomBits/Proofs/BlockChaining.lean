import Mathlib
import RandomBits.Proofs.Derivation

/-! # Block_Cipher_df block by block

The standard describes Block_Cipher_df for any block cipher: chains over the blocks of a padded
message give a key and a block (`Chaining.material`), and the seed is what that block is encrypted to
again and again (`Chaining.derived`). Main statement: with each key size of AES, exactly this is
derived from the concatenation of parts (`Aes.derives_by_chains`).
-/

namespace RandomBits

namespace Chaining

def blockAt (data : Bytes) (i : ℕ) : Bytes := (data.drop (16 * i)).take 16

/-- What is chained: the length of a message and that of the seed in four bytes each, the message, the
byte 0x80, and as few zero bytes as complete a block. -/
def padded (seedLength : ℕ) (message : Bytes) : Bytes :=
  Bytes.ofNat 4 message.length ++ Bytes.ofNat 4 seedLength ++ message ++ [0x80] ++
    Bytes.zeros ((16 - (message.length + 9) % 16) % 16)

/-- The fixed key of the chains: the front of the bytes 00 01 02 to 1f. -/
def fixedKey (keyLength : ℕ) : Bytes := ((List.range 32).map UInt8.ofNat).take keyLength

variable (encrypt : (key block : Bytes) → Bytes)

/-- The link of a chain behind a number of blocks: zeros at first, and then the encryption of the sum
of the link before and the block. -/
def link (key data : Bytes) : ℕ → Bytes
  | 0 => Bytes.zeros 16
  | i + 1 => encrypt key ((link key data i).xor (blockAt data i))

/-- The last link of the chain over all blocks. -/
def bcc (key data : Bytes) : Bytes := link encrypt key data (data.length / 16)

/-- The chain with a number. Its first block holds the number in four bytes and twelve zero bytes. -/
def chained (keyLength : ℕ) (message : Bytes) (number : ℕ) : Bytes :=
  bcc encrypt (fixedKey keyLength)
    (Bytes.ofNat 4 number ++ Bytes.zeros 12 ++ padded (keyLength + 16) message)

/-- The chains that a key and a block are taken from. -/
def material (keyLength : ℕ) (message : Bytes) : Bytes :=
  chained encrypt keyLength message 0 ++ chained encrypt keyLength message 1 ++
    chained encrypt keyLength message 2

/-- The seed of a message: the front of the repeated encryptions of the block under the key. -/
def derived (keyLength : ℕ) (message : Bytes) : Bytes :=
  let key := (material encrypt keyLength message).take keyLength
  let block := ((material encrypt keyLength message).take (keyLength + 16)).drop keyLength
  leading 16 (keyLength + 16) fun i => (encrypt key)^[i + 1] block

/-- Padding completes a block, and adds no block without need. -/
theorem isLeast_length_padded (seedLength : ℕ) (message : Bytes) :
    IsLeast {length | 16 ∣ length ∧ message.length + 9 ≤ length}
      (padded seedLength message).length := by
  have length : (padded seedLength message).length =
      message.length + 9 + (16 - (message.length + 9) % 16) % 16 := by
    simp only [padded, List.length_append, Bytes.length_ofNat, List.length_singleton,
      Bytes.length_zeros]
    omega
  rw [length]
  constructor
  · constructor
    · omega
    · exact Nat.le_add_right ..
  · rintro other ⟨whole, covers⟩
    omega

end Chaining

namespace Aes

def cipher (size : KeySize) (key block : Bytes) : Bytes := (RoundKeys.ofKey size key).encrypt block

@[simp] private theorem length_cipher (size : KeySize) (key block : Bytes) :
    (cipher size key block).length = 16 :=
  RoundKeys.length_encrypt ..

variable (size : KeySize)

private theorem derivationKey_eq : derivationKey size = Chaining.fixedKey size.keyLength := by
  cases size <;> rfl

theorem framedMessage_eq (parts : List Bytes) :
    framedMessage size parts = Chaining.padded size.seedLength parts.flatten := by
  simp only [framedMessage, Chaining.padded, List.length_append, Bytes.length_ofNat,
    List.length_singleton, blocksFor, blockLength]
  congr 2
  omega

/-- A chain goes over the blocks by their position. -/
private theorem foldl_blocks (key data : Bytes) (count : ℕ) :
    ((List.range count).map (Chaining.blockAt data)).foldl
        (fun link block => (RoundKeys.ofKey size key).encrypt (link.xor block)) (Bytes.zeros 16) =
      Chaining.link (cipher size) key data count := by
  induction count with
  | zero => rfl
  | succ count ih =>
    rw [List.range_succ, List.map_append, List.foldl_append, ih]
    rfl

theorem chain_eq_bcc (key : Bytes) {data : Bytes} (whole : 16 ∣ data.length) :
    chain (RoundKeys.ofKey size key) data = Chaining.bcc (cipher size) key data := by
  have count : blocksFor data.length blockLength = data.length / 16 := by
    rw [blocksFor, blockLength]
    omega
  rw [chain, Bytes.chunks, Bytes.pieces_eq_map_range, count, Chaining.bcc, ← foldl_blocks]
  rfl

/-- Every chain goes over its own first block at least, so a block is what it ends with. -/
private theorem length_chained (message : Bytes) (number : ℕ) :
    (Chaining.chained (cipher size) size.keyLength message number).length = 16 := by
  have covered : ∃ blocks, (Bytes.ofNat 4 number ++ Bytes.zeros 12 ++
      Chaining.padded (size.keyLength + 16) message).length / 16 = blocks + 1 := by
    refine ⟨(Chaining.padded (size.keyLength + 16) message).length / 16, ?_⟩
    simp only [List.length_append, Bytes.length_ofNat, Bytes.length_zeros]
    omega
  obtain ⟨blocks, covered⟩ := covered
  rw [Chaining.chained, Chaining.bcc, covered, Chaining.link, length_cipher]

/-- The chains in order are the leading bytes of the material. -/
private theorem emitBytes_chainStep (parts : List Bytes) :
    (emitBytes (chainStep (RoundKeys.ofKey size (derivationKey size)) (framedMessage size parts))
        blockLength size.seedLength 0).1 =
      (Chaining.material (cipher size) size.keyLength parts.flatten).take size.seedLength := by
  let keys := RoundKeys.ofKey size (derivationKey size)
  have block (number : ℕ) : (chainStep keys (framedMessage size parts) number).1 =
      Chaining.chained (cipher size) size.keyLength parts.flatten number := by
    have whole :
        16 ∣ (Bytes.ofNat 4 number ++ Bytes.zeros 12 ++ framedMessage size parts).length := by
      have framed := blockLength_dvd_length_framedMessage size parts
      simp only [List.length_append, Bytes.length_ofNat, Bytes.length_zeros]
      exact Nat.dvd_add dvd_rfl framed
    rw [chainStep, chain_eq_bcc size _ whole, Chaining.chained, framedMessage_eq, derivationKey_eq]
    rfl
  have moves (number : ℕ) :
      (chainStep keys (framedMessage size parts) (id number)).2 = id (number + 1) := rfl
  have enough : size.seedLength ≤ 3 * blockLength := by cases size <;> decide
  have emitted := emitBytes_of_states moves blockLength size.seedLength
  simp only [id_eq, block] at emitted
  -- With a short key two chains would do, but a third one does not change the front.
  have three : (List.range 3).flatMap (Chaining.chained (cipher size) size.keyLength parts.flatten) =
      Chaining.material (cipher size) size.keyLength parts.flatten := by
    simp [Chaining.material, List.range_succ]
  rw [emitted, ← three]
  exact leading_eq_take (by decide) (length_chained size parts.flatten) enough

/-- The seed goes along the encryptions of a block. -/
private theorem emitBytes_seedStep (key block : Bytes) :
    (emitBytes (seedStep (RoundKeys.ofKey size key)) blockLength size.seedLength block).1 =
      leading 16 size.seedLength fun i => (cipher size key)^[i + 1] block := by
  have moves (v : Bytes) : seedStep (RoundKeys.ofKey size key) (id v) =
      (cipher size key v, id (cipher size key v)) := rfl
  exact congrArg Prod.fst (emitBytes_of_iterates moves blockLength size.seedLength block)

theorem blockCipherDf_eq_derived (parts : List Bytes) :
    blockCipherDf size parts = Chaining.derived (cipher size) size.keyLength parts.flatten := by
  have front : min size.keyLength size.seedLength = size.keyLength :=
    min_eq_left (Nat.le_add_right ..)
  rw [blockCipherDf, emitBytes_chainStep, emitBytes_seedStep, List.take_take, front]
  rfl

/-- What the standard has for the seed of a message under a key size. -/
structure DerivesByChains (message seed : Bytes) : Prop where
  derived : seed = Chaining.derived (cipher size) size.keyLength message
  length : seed.length = size.keyLength + 16
  /-- The message is padded to the least whole number of blocks. -/
  padding : IsLeast {length | 16 ∣ length ∧ message.length + 9 ≤ length}
    (Chaining.padded (size.keyLength + 16) message).length
  /-- Both lengths fit their four bytes. -/
  written : (Bytes.ofNat 4 message.length).toNat = message.length ∧
    (Bytes.ofNat 4 (size.keyLength + 16)).toNat = size.keyLength + 16

/-- Block_Cipher_df chains a message as the standard has it, however it is cut into parts. -/
theorem derives_by_chains {parts : List Bytes} (short : parts.flatten.length < 2 ^ 32) :
    DerivesByChains size parts.flatten (blockCipherDf size parts) ∧
      ∀ others : List Bytes, others.flatten = parts.flatten →
        blockCipherDf size others = blockCipherDf size parts := by
  constructor
  · exact
      { derived := blockCipherDf_eq_derived size parts
        length := length_blockCipherDf size parts
        padding := Chaining.isLeast_length_padded ..
        written := by
          constructor
          · rw [Bytes.toNat_ofNat]
            exact Nat.mod_eq_of_lt short
          · cases size <;> rfl }
  · intro others same
    rw [← blockCipherDf_flatten size others, same, blockCipherDf_flatten]

/-- A message of 23 bytes fills its blocks with no zero byte. AES-192 takes a part of the last chain. -/
theorem derives_by_chains_full_block :
    let parts : List Bytes := [List.replicate 16 1, [], List.replicate 7 2]
    parts.flatten.length < 2 ^ 32 ∧
      DerivesByChains .aes192 parts.flatten (blockCipherDf .aes192 parts) ∧
      (Chaining.padded 40 parts.flatten).length = parts.flatten.length + 9 := by
  intro parts
  have short : parts.flatten.length < 2 ^ 32 := by decide
  exact ⟨short, (derives_by_chains .aes192 short).1, by decide⟩

end Aes

end RandomBits
