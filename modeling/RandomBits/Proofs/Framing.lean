import Mathlib
import RandomBits.Proofs.BlockChaining

/-! # Framed messages are told apart

Block_Cipher_df frames a message with its length in front and a marker behind, and fills up the last
block with zero bytes. The length is cut to four bytes, but the marker alone shows where the message
ends (`Aes.unframe_framedMessage`). Main statement: framing takes the fewest whole blocks that there is
room in, and what is chained for different messages is different (`Aes.framing_injective`).
-/

namespace RandomBits

namespace Bytes

/-- A byte string without the zero bytes at its end and the marker in front of them. -/
def unmark (b : Bytes) : Bytes := (b.rdropWhile (· == 0)).dropLast

/-- Zero bytes behind a marker are taken off, whatever stands in front of it. -/
private theorem unmark_append_zeros (b : Bytes) {marker : UInt8} (nonzero : marker ≠ 0) (count : ℕ) :
    unmark (b ++ [marker] ++ zeros count) = b := by
  induction count with
  | zero =>
    have kept : ¬ (marker == 0) = true := by simpa using nonzero
    rw [unmark, zeros, List.replicate_zero, List.append_nil,
      List.rdropWhile_concat_neg (· == 0) b marker kept, List.dropLast_concat]
  | succ count ih =>
    rw [unmark, zeros, List.replicate_succ', ← List.append_assoc,
      List.rdropWhile_concat_pos (· == 0) _ _ rfl]
    exact ih

end Bytes

namespace Aes

variable (size : KeySize)

/-- The message that a framed message holds, read without its length. -/
def unframe (framed : Bytes) : Bytes := Bytes.unmark (framed.drop 8)

/-- The block in front of a framed message that tells one chain from another. -/
def numberBlock (number : ℕ) : Bytes := Bytes.ofNat 4 number ++ Bytes.zeros 12

def chainData (number : ℕ) (parts : List Bytes) : Bytes := numberBlock number ++ framedMessage size parts

/-- The blocks of a chain: its number, and those of the framed message. -/
def chainBlocks (number : ℕ) (parts : List Bytes) : List Bytes :=
  numberBlock number :: Bytes.chunks blockLength (framedMessage size parts)

/-- The chain with a number goes over whole blocks, and over nothing else. -/
structure ChainsWholeBlocks (number : ℕ) (parts : List Bytes) : Prop where
  linked (keys : RoundKeys) : (chainStep keys (framedMessage size parts) number).1 =
    (chainBlocks size number parts).foldl (fun link block => keys.encrypt (link.xor block))
      (Bytes.zeros blockLength)
  whole : ∀ block ∈ chainBlocks size number parts, block.length = blockLength
  complete : (chainBlocks size number parts).flatten = chainData size number parts
  aligned : blockLength ∣ (chainData size number parts).length

/-- A message can be read from its frame. It does not matter if its length was cut. -/
@[simp] theorem unframe_framedMessage (parts : List Bytes) :
    unframe (framedMessage size parts) = parts.flatten := by
  have header : (Bytes.ofNat 4 parts.flatten.length ++ Bytes.ofNat 4 size.seedLength).length = 8 := by
    simp
  rw [framedMessage_eq, Chaining.padded, unframe, List.append_assoc _ parts.flatten,
    List.append_assoc _ (parts.flatten ++ [0x80]), List.drop_left' header]
  exact Bytes.unmark_append_zeros parts.flatten (by decide) _

theorem framedMessage_inj {parts others : List Bytes} :
    framedMessage size others = framedMessage size parts ↔ others.flatten = parts.flatten := by
  constructor
  · intro same
    rw [← unframe_framedMessage size others, same, unframe_framedMessage]
  · intro same
    rw [framedMessage_eq, framedMessage_eq, same]

private theorem length_numberBlock (number : ℕ) : (numberBlock number).length = blockLength := by
  simp [numberBlock, blockLength]

/-- The number of a chain fills a block. -/
theorem chunks_numberBlock (number : ℕ) :
    Bytes.chunks blockLength (numberBlock number) = [numberBlock number] := by
  have nonempty : numberBlock number ≠ [] := by
    rw [← List.length_pos_iff, length_numberBlock]
    decide
  exact Bytes.chunks_eq_singleton (by decide) nonempty (length_numberBlock number).le

/-- The numbers of chains are told apart as far as their four bytes go. -/
private theorem numberBlock_inj {m n : ℕ} : numberBlock m = numberBlock n ↔ m % 2 ^ 32 = n % 2 ^ 32 := by
  rw [numberBlock, numberBlock, List.append_cancel_right_eq]
  constructor
  · intro same
    have numbers := congrArg Bytes.toNat same
    rwa [Bytes.toNat_ofNat, Bytes.toNat_ofNat] at numbers
  · intro same
    rw [← Bytes.ofNat_mod 4 m, ← Bytes.ofNat_mod 4 n]
    exact congrArg (Bytes.ofNat 4) same

theorem chainData_inj {m n : ℕ} {parts others : List Bytes} :
    chainData size m others = chainData size n parts ↔
      m % 2 ^ 32 = n % 2 ^ 32 ∧ others.flatten = parts.flatten := by
  have front : (numberBlock m).length = (numberBlock n).length := by
    rw [length_numberBlock, length_numberBlock]
  rw [chainData, chainData, ← numberBlock_inj, ← framedMessage_inj size]
  exact ⟨fun same => List.append_inj same front, fun ⟨number, message⟩ => by rw [number, message]⟩

theorem blockLength_dvd_length_chainData (number : ℕ) (parts : List Bytes) :
    blockLength ∣ (chainData size number parts).length := by
  rw [chainData, List.length_append, length_numberBlock]
  exact Nat.dvd_add dvd_rfl (blockLength_dvd_length_framedMessage size parts)

/-- The number is a block of its own, so it makes no difference to the blocks of the message. -/
theorem chunks_chainData (number : ℕ) (parts : List Bytes) :
    Bytes.chunks blockLength (chainData size number parts) = chainBlocks size number parts := by
  rw [chainData, Bytes.chunks_append (by decide) _ _ (length_numberBlock number).symm.dvd,
    chunks_numberBlock, List.singleton_append, chainBlocks]

theorem chainsWholeBlocks (number : ℕ) (parts : List Bytes) : ChainsWholeBlocks size number parts where
  linked keys := by
    rw [← chunks_chainData]
    rfl
  whole := by
    rw [← chunks_chainData]
    exact fun block => Bytes.length_of_mem_chunks (by decide)
      (blockLength_dvd_length_chainData size number parts)
  complete := by rw [← chunks_chainData, Bytes.flatten_chunks (by decide)]
  aligned := blockLength_dvd_length_chainData size number parts

/-- Framing is an injective encoding into whole blocks. A framed message takes the fewest blocks that
hold the message and nine more bytes, and messages of any length with one frame are one message, even
if their length does not fit its four bytes. So every chain goes over whole blocks, and chains over the
same data have the same message, and numbers that agree as far as their four bytes go. -/
theorem framing_injective (parts : List Bytes) :
    IsLeast {length | blockLength ∣ length ∧ parts.flatten.length + 9 ≤ length}
        (framedMessage size parts).length ∧
      (∀ others, framedMessage size others = framedMessage size parts ↔
        others.flatten = parts.flatten) ∧
      ∀ number, ChainsWholeBlocks size number parts ∧
        ∀ other others, chainData size other others = chainData size number parts ↔
          other % 2 ^ 32 = number % 2 ^ 32 ∧ others.flatten = parts.flatten := by
  refine ⟨?_, fun others => framedMessage_inj size, fun number => ⟨?_, fun other others => ?_⟩⟩
  · rw [framedMessage_eq]
    exact Chaining.isLeast_length_padded ..
  · exact chainsWholeBlocks size number parts
  · exact chainData_inj size

/-- A message that ends like the end of a frame fills the same block in another way. -/
example : framedMessage .aes128 [[7], [0x80, 0]] ≠ framedMessage .aes128 [[7]] := by decide

end Aes

end RandomBits
