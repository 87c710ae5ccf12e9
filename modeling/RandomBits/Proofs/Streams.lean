import Mathlib
import RandomBits.Proofs.Output

/-! # Streams by position

A stream whose states are known by their position is known block by block. Main statement: a request
is given the leading bytes of these blocks, and leaves the state that follows the last block it has
begun (`emitBytes_of_states`).
-/

namespace RandomBits

/-- The leftmost `length` bytes of the concatenation of blocks of `size` bytes. -/
def leading (size length : ℕ) (block : ℕ → Bytes) : Bytes :=
  ((List.range (blocksFor length size)).flatMap block).take length

/-- More blocks begin with fewer. -/
theorem flatMap_range_prefix (block : ℕ → Bytes) {fewer more : ℕ} (le : fewer ≤ more) :
    (List.range fewer).flatMap block <+: (List.range more).flatMap block := by
  have shorter : List.range fewer <+: List.range more := by
    rw [← min_eq_left le, ← List.take_range]
    exact List.take_prefix ..
  exact shorter.flatMap _

/-- The leading bytes can be taken from any number of blocks that is large enough. -/
theorem leading_eq_take {size length count : ℕ} {block : ℕ → Bytes} (positive : 0 < size)
    (whole : ∀ i, (block i).length = size) (enough : length ≤ count * size) :
    leading size length block = ((List.range count).flatMap block).take length := by
  have covered : length ≤ blocksFor length size * size := (blocksFor_le_iff positive).mp le_rfl
  obtain ⟨rest, more⟩ := flatMap_range_prefix block ((blocksFor_le_iff positive).mpr enough)
  rw [leading, ← more, List.take_append_of_le_length]
  simpa [List.length_flatMap, whole] using covered

variable {σ : Type} {step : σ → Bytes × σ} {state : ℕ → σ}

/-- Steps from the first state emit the blocks of the states that they pass. -/
private theorem emit_of_states (moves : ∀ i, (step (state i)).2 = state (i + 1)) (count : ℕ) :
    emit step count (state 0) =
      ((List.range count).flatMap fun i => (step (state i)).1, state count) := by
  induction count with
  | zero => rfl
  | succ count ih =>
    rw [emit_add, ih, List.range_succ, List.flatMap_append]
    simp [emit, moves]

/-- A request gets the leading bytes of the blocks and ends at the state behind the last of them. -/
theorem emitBytes_of_states (moves : ∀ i, (step (state i)).2 = state (i + 1)) (size length : ℕ) :
    emitBytes step size length (state 0) =
      (leading size length fun i => (step (state i)).1, state (blocksFor length size)) := by
  rw [emitBytes, emit_of_states moves]
  rfl

/-- Steps that put out the value they move to, wrapped up in a state, go along its iterates. -/
theorem emitBytes_of_iterates {f : Bytes → Bytes} {wrap : Bytes → σ}
    (moves : ∀ v, step (wrap v) = (f v, wrap (f v))) (size length : ℕ) (v : Bytes) :
    emitBytes step size length (wrap v) =
      (leading size length fun i => f^[i + 1] v, wrap (f^[blocksFor length size] v)) := by
  have next (i : ℕ) : step (wrap (f^[i] v)) = (f^[i + 1] v, wrap (f^[i + 1] v)) := by
    rw [moves, Function.iterate_succ_apply']
  have emitted := emitBytes_of_states (fun i => congrArg Prod.snd (next i)) size length
  simp only [next] at emitted
  exact emitted

end RandomBits
