import Mathlib
import RandomBits.Bytes.Basic

/-! # Cutting byte strings into chunks

Main statements: the chunks of a byte string put it together again (`Bytes.flatten_chunks`), and
none is longer than the chunk size (`Bytes.length_le_of_mem_chunks`). The number of chunks is the
least number that is large enough (`blocksFor_le_iff`).
-/

namespace RandomBits

/-- A number of blocks covers a length exactly from `blocksFor` on. -/
theorem blocksFor_le_iff {length size count : ℕ} (positive : 0 < size) :
    blocksFor length size ≤ count ↔ length ≤ count * size := by
  rw [blocksFor, Nat.div_le_iff_le_mul_add_pred positive, Nat.mul_comm size]
  omega

/-- Fewer bytes do not need more blocks. -/
theorem blocksFor_mono {size m n : ℕ} (positive : 0 < size) (shorter : m ≤ n) :
    blocksFor m size ≤ blocksFor n size :=
  (blocksFor_le_iff positive).mpr (shorter.trans ((blocksFor_le_iff positive).mp le_rfl))

@[simp] theorem blocksFor_zero (size : ℕ) : blocksFor 0 size = 0 := by
  rw [blocksFor, Nat.div_eq_zero_iff]
  omega

/-- The first block leaves the rest of the length to the other ones. -/
theorem blocksFor_eq_succ {length size : ℕ} (positive : 0 < size) (nonempty : 0 < length) :
    blocksFor length size = blocksFor (length - size) size + 1 := by
  refine eq_of_forall_ge_iff fun count => ?_
  cases count with
  | zero =>
    rw [blocksFor_le_iff positive]
    omega
  | succ count =>
    rw [Nat.add_le_add_iff_right, blocksFor_le_iff positive, blocksFor_le_iff positive, Nat.succ_mul]
    omega

theorem blocksFor_eq_ceilDiv (length size : ℕ) : blocksFor length size = length ⌈/⌉ size :=
  (Nat.ceilDiv_eq_add_pred_div length size).symm

/-- Whole blocks in front need no block of what is behind them. -/
theorem blocksFor_mul_add {size : ℕ} (positive : 0 < size) (count length : ℕ) :
    blocksFor (size * count + length) size = count + blocksFor length size := by
  have total : size * count + length + size - 1 = size * count + (length + size - 1) := by omega
  rw [blocksFor, total, Nat.mul_add_div positive, blocksFor]

namespace Bytes

@[simp] theorem overwrite_nil (buffer : Bytes) : buffer.overwrite [] = buffer := by
  simp [overwrite]

/-- A buffer that is written in full holds what was written. -/
theorem overwrite_of_length_eq {buffer written : Bytes} (full : written.length = buffer.length) :
    overwrite buffer written = written := by
  rw [overwrite, full, List.drop_length, List.append_nil, ← full, List.take_length]

/-- What is kept behind a front of any length stays where it was. -/
theorem drop_eq_of_eq_append {a b front : Bytes} {count : ℕ} (kept : b = front ++ a.drop count)
    (length : b.length = a.length) : b.drop count = a.drop count := by
  have total := congrArg List.length kept
  rw [length, List.length_append, List.length_drop] at total
  rcases le_total count a.length with reached | beyond
  · have exactly : front.length = count := by omega
    rw [kept, List.drop_left' exactly]
  · rw [List.drop_of_length_le beyond, List.drop_of_length_le (length.trans_le beyond)]

@[simp] theorem chunks_nil (size : ℕ) : chunks size [] = [] := by
  simp [chunks, pieces]

/-- A nonempty byte string is its first chunk and the chunks of the rest. -/
theorem chunks_of_ne_nil {size : ℕ} (positive : 0 < size) {b : Bytes} (nonempty : b ≠ []) :
    chunks size b = b.take size :: chunks size (b.drop size) := by
  have length : 0 < b.length := List.length_pos_iff.mpr nonempty
  rw [chunks, blocksFor_eq_succ positive length, pieces, chunks, List.length_drop]

/-- Cutting proceeds from the front: what holds of no bytes, and of a byte string if it holds
after its first chunk, holds of all of them. -/
theorem chunk_induction {size : ℕ} (positive : 0 < size) {motive : Bytes → Prop}
    (nil : motive []) (step : ∀ b : Bytes, b ≠ [] → motive (b.drop size) → motive b) (b : Bytes) :
    motive b := by
  induction length : b.length using Nat.strong_induction_on generalizing b with
  | _ n ih =>
    by_cases nonempty : b = []
    · exact nonempty ▸ nil
    · have shorter : (b.drop size).length < n := by
        have := List.length_pos_iff.mpr nonempty
        rw [List.length_drop]
        omega
      exact step b nonempty (ih _ shorter _ rfl)

/-- The chunks of a byte string put it together again. -/
@[simp] theorem flatten_chunks {size : ℕ} (positive : 0 < size) (b : Bytes) :
    (chunks size b).flatten = b := by
  induction b using chunk_induction positive with
  | nil => simp
  | step b nonempty ih =>
    rw [chunks_of_ne_nil positive nonempty, List.flatten_cons, ih, List.take_append_drop]

@[simp] theorem length_chunks (size : ℕ) (b : Bytes) :
    (chunks size b).length = blocksFor b.length size :=
  length_pieces ..

/-- Bytes that fit are cut into a single chunk. -/
theorem chunks_eq_singleton {size : ℕ} (positive : 0 < size) {b : Bytes} (nonempty : b ≠ [])
    (fits : b.length ≤ size) : chunks size b = [b] := by
  rw [chunks_of_ne_nil positive nonempty, List.take_of_length_le fits, List.drop_of_length_le fits,
    chunks_nil]

/-- What is left of the chunks behind some of them are the chunks of what is left. -/
theorem drop_chunks {size : ℕ} (positive : 0 < size) (count : ℕ) (b : Bytes) :
    (chunks size b).drop count = chunks size (b.drop (count * size)) := by
  induction count generalizing b with
  | zero => simp
  | succ count ih =>
    by_cases nonempty : b = []
    · simp [nonempty]
    · rw [chunks_of_ne_nil positive nonempty, List.drop_succ_cons, ih, List.drop_drop, Nat.succ_mul,
        Nat.add_comm size]

/-- Some of the first chunks are the chunks of the front that they cover. -/
theorem take_chunks {size : ℕ} (positive : 0 < size) (count : ℕ) (b : Bytes) :
    (chunks size b).take count = chunks size (b.take (count * size)) := by
  induction count generalizing b with
  | zero => simp
  | succ count ih =>
    by_cases nonempty : b = []
    · simp [nonempty]
    · have front : b.take ((count + 1) * size) ≠ [] := by
        rw [Ne, List.take_eq_nil_iff, not_or]
        exact ⟨by positivity, nonempty⟩
      have reached : min size ((count + 1) * size) = size := by
        rw [Nat.succ_mul]
        omega
      have behind : (count + 1) * size - size = count * size := by rw [Nat.succ_mul, Nat.add_sub_cancel]
      rw [chunks_of_ne_nil positive nonempty, chunks_of_ne_nil positive front, List.take_succ_cons, ih,
        List.take_take, reached, List.drop_take, behind]

/-- A chunk stands at a multiple of the chunk size. -/
theorem eq_take_drop_of_getElem?_chunks {size i : ℕ} (positive : 0 < size) {b chunk : Bytes}
    (found : (chunks size b)[i]? = some chunk) : chunk = (b.drop (i * size)).take size := by
  rw [← List.head?_drop, drop_chunks positive] at found
  by_cases nonempty : b.drop (i * size) = []
  · simp [nonempty] at found
  · rw [chunks_of_ne_nil positive nonempty, List.head?_cons, Option.some.injEq] at found
    exact found.symm

/-- Whole chunks in front are cut off without regard to what follows them. -/
theorem chunks_append {size : ℕ} (positive : 0 < size) (a b : Bytes) (whole : size ∣ a.length) :
    chunks size (a ++ b) = chunks size a ++ chunks size b := by
  induction a using chunk_induction positive with
  | nil => simp
  | step a nonempty ih =>
    have reaches : size ≤ a.length := Nat.le_of_dvd (List.length_pos_iff.mpr nonempty) whole
    have remains : size ∣ (a.drop size).length := by
      rw [List.length_drop]
      exact Nat.dvd_sub whole dvd_rfl
    have joined : a ++ b ≠ [] := by simp [nonempty]
    rw [chunks_of_ne_nil positive joined, chunks_of_ne_nil positive nonempty,
      List.take_append_of_le_length reaches, List.drop_append_of_le_length reaches, ih remains,
      List.cons_append]

/-- Pieces stand at the multiples of their size. -/
theorem pieces_eq_map_range (size count : ℕ) (b : Bytes) :
    pieces size count b = (List.range count).map fun i => (b.drop (size * i)).take size := by
  induction count generalizing b with
  | zero => rfl
  | succ count ih =>
    rw [pieces, ih, List.range_succ_eq_map, List.map_cons, List.map_map]
    simp [Function.comp_def, Nat.mul_succ, Nat.add_comm]

private theorem length_le_of_mem_pieces {size count : ℕ} {b chunk : Bytes}
    (member : chunk ∈ pieces size count b) : chunk.length ≤ size := by
  induction count generalizing b with
  | zero => cases member
  | succ count ih =>
    rcases List.mem_cons.mp member with rfl | rest
    · exact List.length_take_le ..
    · exact ih rest

/-- No chunk is longer than the chunk size. -/
theorem length_le_of_mem_chunks {size : ℕ} {b chunk : Bytes} (member : chunk ∈ chunks size b) :
    chunk.length ≤ size :=
  length_le_of_mem_pieces member

/-- Whole blocks are cut into whole blocks. -/
theorem length_of_mem_chunks {size : ℕ} (positive : 0 < size) {b block : Bytes}
    (whole : size ∣ b.length) (member : block ∈ chunks size b) : block.length = size := by
  induction b using chunk_induction positive with
  | nil => simp at member
  | step b nonempty ih =>
    have reaches : size ≤ b.length := Nat.le_of_dvd (List.length_pos_iff.mpr nonempty) whole
    have remains : size ∣ (b.drop size).length := by
      rw [List.length_drop]
      exact Nat.dvd_sub whole dvd_rfl
    rw [chunks_of_ne_nil positive nonempty] at member
    rcases List.mem_cons.mp member with rfl | rest
    · exact List.length_take_of_le reaches
    · exact ih remains rest

/-- No chunk is empty. -/
theorem ne_nil_of_mem_chunks {size : ℕ} (positive : 0 < size) {b chunk : Bytes}
    (member : chunk ∈ chunks size b) : chunk ≠ [] := by
  induction b using chunk_induction positive with
  | nil => simp at member
  | step b nonempty ih =>
    rw [chunks_of_ne_nil positive nonempty] at member
    rcases List.mem_cons.mp member with rfl | rest
    · rw [Ne, List.take_eq_nil_iff, not_or]
      exact ⟨positive.ne', nonempty⟩
    · exact ih rest

end Bytes

end RandomBits
