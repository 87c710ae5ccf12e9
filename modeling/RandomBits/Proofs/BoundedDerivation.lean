import Mathlib
import RandomBits.Proofs.Bounds
import RandomBits.Proofs.Derivation
import RandomBits.Proofs.Framing

/-! # Derivation within bounds

The primitives with checked lengths: a key for an authentication code must fit into a message block, and
the block cipher takes keys and blocks of its own lengths only. Main statements: both derivation
functions, written with checked accesses, stay within bounds on all inputs (`Digest.hashDf?_eq`,
`Aes.blockCipherDf?_eq`).
-/

namespace RandomBits

/-- The exclusive or of `mask` into the front of `target`, in its place. -/
def Bytes.mixIn (target mask : Bytes) : Bytes := target.xor mask ++ target.drop mask.length

/-- Nothing of the target is left unmixed where the mask is as long. -/
private theorem Bytes.mixIn_eq_xor {target mask : Bytes} (length : mask.length = target.length) :
    target.mixIn mask = target.xor mask := by
  rw [mixIn, length, List.drop_length, List.append_nil]

namespace Digest

variable (d : Digest)

/-- The authentication code of parts under a key that is copied into a block of zero bytes. -/
def hmac? (key : Bytes) (parts : List Bytes) : Option Bytes := do
  let block ← (Bytes.zeros d.blockLength).copyFront? key.length key
  return d.hash [block.map (· ^^^ 0x5c), d.hash (block.map (· ^^^ 0x36) :: parts)]

/-- The seed that is derived from parts, shifted to the right byte by byte. -/
def hashDf? (parts : List Bytes) (bits : ℕ) : Option Bytes :=
  let leftmost := (emitBytes (d.derivationStep bits parts) d.outputLength (blocksFor bits 8) 1).1
  leftmost.shiftRight? ((8 - bits % 8) % 8)

variable {d}

theorem hmac?_eq {key : Bytes} (fits : key.length ≤ d.blockLength) (parts : List Bytes) :
    d.hmac? key parts = some (d.hmac key parts) := by
  have room : key.length ≤ (Bytes.zeros d.blockLength).length := by
    rwa [Bytes.length_zeros]
  have block : key ++ (Bytes.zeros d.blockLength).drop key.length = d.blockKey key := by
    rw [blockKey, if_pos fits, Bytes.zeros, List.drop_replicate]
    rfl
  simp only [hmac?, Bytes.copyFront?_eq room, Option.bind_eq_bind, Option.bind_some, block, hmac]
  rfl

/-- Hash_df stays within bounds. -/
theorem hashDf?_eq (parts : List Bytes) (bits : ℕ) :
    d.hashDf? parts bits = some (d.hashDf parts bits) := by
  have shift : 8 * blocksFor bits 8 - bits = (8 - bits % 8) % 8 := by
    rw [blocksFor]
    omega
  rw [hashDf?, Bytes.shiftRight?_eq (Nat.mod_lt _ (by decide)), hashDf, shift]

end Digest

namespace Aes

/-- The round keys of a key, which must have the length of its size. -/
def keys? (size : KeySize) (key : Bytes) : Option RoundKeys :=
  if key.length = size.keyLength then some (.ofKey size key) else none

/-- The encryption of what must be a block. -/
def RoundKeys.encrypt? (keys : RoundKeys) (block : Bytes) : Option Bytes :=
  if block.length = blockLength then some (keys.encrypt block) else none

/-- Adds the bytes of a block to a link one by one, and encrypts the link. -/
def link? (keys : RoundKeys) (link block : Bytes) : Option Bytes :=
  if block.length ≤ link.length then keys.encrypt? (link.mixIn block) else none

/-- The chain over the blocks of all parts under a key. -/
def chain? (size : KeySize) (key : Bytes) (parts : List Bytes) : Option Bytes := do
  let keys ← keys? size key
  (parts.flatMap (Bytes.chunks blockLength)).foldlM (link? keys) (Bytes.zeros blockLength)

/-- One chain, over a block that the number is copied into and the framed message. -/
def chainStep? (size : KeySize) (key framed : Bytes) (number : ℕ) : Option (Bytes × ℕ) := do
  let front ← (Bytes.zeros blockLength).copyFront? 4 (Bytes.ofNat 4 number)
  let link ← chain? size key [front, framed]
  return (link, number + 1)

def seedStep? (keys : RoundKeys) (block : Bytes) : Option (Bytes × Bytes) := do
  let next ← keys.encrypt? block
  return (next, next)

/-- The seed from what the chains yield. The key and the block are slices of it. -/
def seedOf? (size : KeySize) (material : Bytes) : Option Bytes := do
  let keys ← keys? size (← material.slice? 0 size.keyLength)
  let block ← material.slice? size.keyLength size.seedLength
  let (seed, _) ← emit? (seedStep? keys) (blocksFor size.seedLength blockLength) block
  return seed.take size.seedLength

/-- The seed that is derived from parts. The fixed key is a slice, too. -/
def blockCipherDf? (size : KeySize) (parts : List Bytes) : Option Bytes := do
  let fixed ← Bytes.slice? ((List.range 32).map UInt8.ofNat) 0 size.keyLength
  let (material, _) ← emit? (chainStep? size fixed (framedMessage size parts))
    (blocksFor size.seedLength blockLength) 0
  seedOf? size material

variable {size : KeySize} {keys : RoundKeys}

theorem keys?_eq {key : Bytes} (length : key.length = size.keyLength) :
    keys? size key = some (.ofKey size key) :=
  if_pos length

theorem encrypt?_eq {block : Bytes} (length : block.length = blockLength) :
    keys.encrypt? block = some (keys.encrypt block) :=
  if_pos length

/-- A chain over whole blocks stays within its link, which is a block again each time. -/
private theorem foldlM_link? {blocks : List Bytes} (whole : ∀ block ∈ blocks, block.length = blockLength)
    {link : Bytes} (start : link.length = blockLength) :
    blocks.foldlM (link? keys) link =
        some (blocks.foldl (fun link block => keys.encrypt (link.xor block)) link) ∧
      (blocks.foldl (fun link block => keys.encrypt (link.xor block)) link).length = blockLength := by
  induction blocks generalizing link with
  | nil => exact ⟨rfl, start⟩
  | cons block blocks ih =>
    obtain ⟨first, rest⟩ := List.forall_mem_cons.mp whole
    have same : block.length = link.length := first.trans start.symm
    have mixed : (link.xor block).length = blockLength := by
      rw [Bytes.length_xor, same, min_self, start]
    have linked : link? keys link block = some (keys.encrypt (link.xor block)) := by
      rw [link?, if_pos same.le, Bytes.mixIn_eq_xor same, encrypt?_eq mixed]
    rw [List.foldlM_cons, linked, Option.bind_eq_bind, Option.bind_some, List.foldl_cons]
    exact ih rest (RoundKeys.length_encrypt ..)

private theorem length_chainStep (parts : List Bytes) (number : ℕ) :
    (chainStep keys (framedMessage size parts) number).1.length = blockLength := by
  have chains := chainsWholeBlocks size number parts
  rw [chains.linked]
  exact (foldlM_link? chains.whole (Bytes.length_zeros _)).2

theorem chainStep?_eq {key : Bytes} (length : key.length = size.keyLength) (parts : List Bytes)
    (number : ℕ) : chainStep? size key (framedMessage size parts) number =
      some (chainStep (.ofKey size key) (framedMessage size parts) number) := by
  have chains := chainsWholeBlocks size number parts
  have front : (Bytes.zeros blockLength).copyFront? 4 (Bytes.ofNat 4 number) =
      some (numberBlock number) :=
    if_pos ⟨by decide, Bytes.length_ofNat ..⟩
  have blocks : [numberBlock number, framedMessage size parts].flatMap (Bytes.chunks blockLength) =
      chainBlocks size number parts := by
    rw [List.flatMap_cons, List.flatMap_singleton, chunks_numberBlock]
    rfl
  simp only [chainStep?, front, chain?, keys?_eq length, Option.bind_eq_bind, Option.bind_some, blocks,
    (foldlM_link? chains.whole (Bytes.length_zeros _)).1]
  rw [← chains.linked]
  rfl

private theorem chainBlocksEmitted (keys : RoundKeys) (parts : List Bytes) :
    Blocks (chainStep keys (framedMessage size parts)) blockLength fun _ => True where
  positive := by decide
  length _ := length_chainStep parts _
  next _ := trivial

theorem seedStep?_eq {block : Bytes} (length : block.length = blockLength) :
    seedStep? keys block = some (seedStep keys block) := by
  simp only [seedStep?, encrypt?_eq length, Option.bind_eq_bind, Option.bind_some]
  rfl

/-- What holds a key and a block is made into the seed that they give, whatever stands behind them. -/
theorem seedOf?_eq {material : Bytes} (enough : size.seedLength ≤ material.length) :
    seedOf? size material = some (emitBytes
      (seedStep (.ofKey size ((material.take size.seedLength).take size.keyLength))) blockLength
      size.seedLength ((material.take size.seedLength).drop size.keyLength)).1 := by
  have short : size.keyLength ≤ size.seedLength := Nat.le_add_right ..
  have front : (material.take size.seedLength).take size.keyLength = material.take size.keyLength := by
    rw [List.take_take, min_eq_left short]
  have whole : (material.take size.keyLength).length = size.keyLength :=
    List.length_take_of_le (short.trans enough)
  have single : ((material.take size.seedLength).drop size.keyLength).length = blockLength := by
    rw [List.length_drop, List.length_take_of_le enough, KeySize.seedLength, Nat.add_sub_cancel_left]
  have seeded (keys : RoundKeys) := emit?_eq (fun block : Bytes => block.length = blockLength)
    (fun _ => @seedStep?_eq keys _) (fun _ _ => RoundKeys.length_encrypt ..)
    (blocksFor size.seedLength blockLength) _ single
  simp only [seedOf?, Bytes.slice?_front (short.trans enough), keys?_eq whole,
    Bytes.slice?_eq short enough, seeded, Option.bind_eq_bind, Option.bind_some, front]
  rfl

/-- The fixed key is as long as its size asks for. -/
private theorem slice?_fixed (size : KeySize) :
    Bytes.slice? ((List.range 32).map UInt8.ofNat) 0 size.keyLength = some (derivationKey size) := by
  cases size <;> rfl

/-- Block_Cipher_df stays within bounds. -/
theorem blockCipherDf?_eq (size : KeySize) (parts : List Bytes) :
    blockCipherDf? size parts = some (blockCipherDf size parts) := by
  let keys := RoundKeys.ofKey size (derivationKey size)
  have length : (derivationKey size).length = size.keyLength := by simp [derivationKey]
  have chained := emit?_eq (fun _ => True) (fun number _ => chainStep?_eq length parts number)
    (fun _ _ => trivial) (blocksFor size.seedLength blockLength) 0 trivial
  have enough : size.seedLength ≤ (emit (chainStep keys (framedMessage size parts))
      (blocksFor size.seedLength blockLength) 0).1.length := by
    rw [(chainBlocksEmitted keys parts).length_emit trivial]
    exact (blocksFor_le_iff (by decide)).mp le_rfl
  simp only [blockCipherDf?, slice?_fixed, chained, Option.bind_eq_bind, Option.bind_some]
  exact seedOf?_eq enough

end Aes

end RandomBits
