import Mathlib
import RandomBits.Proofs.Cores

/-! # Output as the front of a stream

Where all blocks of a stream have one size (`Blocks`), a request gets as many bytes as it asks for,
and to ask for more from the same state only adds bytes at the end (`Blocks.emitBytes_take`). So it
is for every core whose mechanism counts requests. Such a core never faults (`Core.generate_ok`), and
the output of a shorter request is the front of that of a longer one (`Core.generate_take`).
-/

namespace RandomBits

/-- From a valid state on, all steps emit blocks of one size. -/
structure Blocks {σ : Type} (step : σ → Bytes × σ) (size : ℕ) (valid : σ → Prop) : Prop where
  positive : 0 < size
  length {s : σ} (start : valid s) : (step s).1.length = size
  next {s : σ} (start : valid s) : valid (step s).2

namespace Blocks

variable {σ : Type} {step : σ → Bytes × σ} {size : ℕ} {valid : σ → Prop} {s : σ}

theorem length_emit (blocks : Blocks step size valid) (start : valid s) (count : ℕ) :
    (emit step count s).1.length = count * size := by
  induction count generalizing s with
  | zero => simp [emit]
  | succ count ih =>
    simp only [emit, List.length_append, blocks.length start, ih (blocks.next start), Nat.succ_mul]
    omega

/-- A stream does not fall short of what is asked for. -/
theorem length_emitBytes (blocks : Blocks step size valid) (start : valid s) (length : ℕ) :
    (emitBytes step size length s).1.length = length := by
  have covered : length ≤ blocksFor length size * size :=
    (blocksFor_le_iff blocks.positive).mp le_rfl
  simp only [emitBytes, List.length_take, blocks.length_emit start]
  omega

/-- Fewer bytes are the front of more bytes, also where they end within a block. -/
theorem emitBytes_take (blocks : Blocks step size valid) (start : valid s) {m n : ℕ}
    (shorter : m ≤ n) : (emitBytes step size m s).1 = (emitBytes step size n s).1.take m := by
  obtain ⟨more, split⟩ := Nat.exists_eq_add_of_le (blocksFor_mono blocks.positive shorter)
  have front : m ≤ (emit step (blocksFor m size) s).1.length := by
    rw [blocks.length_emit start]
    exact (blocksFor_le_iff blocks.positive).mp le_rfl
  simp only [emitBytes]
  rw [split, emit_add, List.take_take, min_eq_left shorter, List.take_append_of_le_length front]

end Blocks

theorem HashDrbg.blocks (d : Digest) :
    Blocks (HashDrbg.outputStep d) d.outputLength fun _ => True where
  positive := d.outputLength_pos
  length _ := Digest.length_hash ..
  next _ := trivial

theorem HmacDrbg.blocks (d : Digest) :
    Blocks HmacDrbg.outputStep d.outputLength fun s => s.digest = d where
  positive := d.outputLength_pos
  length same := (Digest.length_hmac ..).trans (congrArg Digest.outputLength same)
  next same := same

theorem CtrDrbg.blocks (keys : Aes.RoundKeys) :
    Blocks (CtrDrbg.outputStep keys) Aes.blockLength fun _ => True where
  positive := by decide
  length _ := Aes.RoundKeys.length_encrypt ..
  next _ := trivial

/-- Additional input is mixed in within the digest. -/
theorem HmacDrbg.digest_start (s : HmacDrbg) (additional : Bytes) :
    (if additional.isEmpty then s else s.update [additional]).digest = s.digest := by
  split <;> simp

namespace Algorithm

/-- A mechanism counts requests between two seeds, and not blocks as Dual_EC_DRBG does. -/
def CountsRequests : Algorithm → Prop
  | dualEc _ _ => False
  | _ => True

variable {a : Algorithm}

theorem CountsRequests.requestCost (counts : a.CountsRequests) (length : ℕ) :
    a.requestCost length = 1 := by
  cases a with
  | dualEc _ _ => exact counts.elim
  | hash _ | hmac _ | ctr _ => rfl

theorem CountsRequests.maxRequest (counts : a.CountsRequests) (interval : ℕ) :
    a.maxRequest interval = maxRequestBytes := by
  cases a with
  | dualEc _ _ => exact counts.elim
  | hash _ | hmac _ | ctr _ => rfl

end Algorithm

namespace Core

variable {c : Core} (length : ℕ) (additional : Bytes) (counter : ℕ)

omit counter in
/-- Where requests are counted, there are no point operations. -/
theorem not_raises (counts : c.algorithm.CountsRequests) (fault : Fault) :
    ¬ c.Raises length additional fault := by
  intro raised
  obtain ⟨g, rfl⟩ := raised.exists_dualEc
  exact counts

/-- Where requests are counted, all bytes that are asked for are put out. -/
theorem length_generate (counts : c.algorithm.CountsRequests) :
    (c.generate length additional counter).1.length = length := by
  cases c with
  | hash s => exact (HashDrbg.blocks s.digest).length_emitBytes trivial length
  | hmac s => exact (HmacDrbg.blocks s.digest).length_emitBytes (s.digest_start additional) length
  | ctr s => exact (CtrDrbg.blocks _).length_emitBytes trivial length
  | dualEc s => exact counts.elim

/-- Where requests are counted, output does not fault. -/
theorem generate_ok (counts : c.algorithm.CountsRequests) :
    ∃ written next, c.generate length additional counter = (written, .ok (), next) ∧
      written.length = length := by
  have long := length_generate length additional counter counts
  rcases ran : c.generate length additional counter with ⟨written, fault | u, next⟩
  · exact absurd (raises_of_generate ran) (not_raises length additional counts fault)
  · rw [ran] at long
    exact ⟨written, next, rfl, long⟩

/-- Where requests are counted, a shorter request is given the front of the output. -/
theorem generate_take (counts : c.algorithm.CountsRequests) {m n : ℕ} (shorter : m ≤ n) :
    (c.generate m additional counter).1 = (c.generate n additional counter).1.take m := by
  cases c with
  | hash s => exact (HashDrbg.blocks s.digest).emitBytes_take trivial shorter
  | hmac s => exact (HmacDrbg.blocks s.digest).emitBytes_take (s.digest_start additional) shorter
  | ctr s => exact (CtrDrbg.blocks _).emitBytes_take trivial shorter
  | dualEc s => exact counts.elim

end Core

end RandomBits
