import RandomBits.Bytes.Basic

/-! # Output blocks of a stepping state

A state that emits one block per step yields a stream. A request takes as many whole steps as it
needs and cuts the last block. The main statement is that more steps extend the output of fewer.
-/

namespace RandomBits

variable {σ : Type}

/-- The concatenated blocks of `count` successive steps, and the state they lead to. -/
def emit (step : σ → Bytes × σ) : (count : Nat) → σ → Bytes × σ
  | 0, s => ([], s)
  | count + 1, s =>
    let (block, next) := step s
    let (rest, last) := emit step count next
    (block ++ rest, last)

/-- The first `length` bytes of a stream of blocks of `size` bytes, and the state after the last
block that was begun. -/
def emitBytes (step : σ → Bytes × σ) (size length : Nat) (s : σ) : Bytes × σ :=
  let (output, last) := emit step (blocksFor length size) s
  (output.take length, last)

/-- More steps extend the output of fewer, and go on from the state those lead to. -/
theorem emit_add (step : σ → Bytes × σ) (m n : Nat) (s : σ) :
    emit step (m + n) s =
      ((emit step m s).1 ++ (emit step n (emit step m s).2).1, (emit step n (emit step m s).2).2) := by
  induction m generalizing s with
  | zero => simp [emit]
  | succ m ih => simp [Nat.succ_add, emit, ih]

end RandomBits
