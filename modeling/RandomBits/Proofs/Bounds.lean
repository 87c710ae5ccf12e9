import Mathlib
import RandomBits.Bytes.Stream
import RandomBits.Fault
import RandomBits.Proofs.Arithmetic
import RandomBits.Proofs.Chunks

/-! # Accesses within bounds

Operations on byte strings that have no result where they would reach out of bounds: slices, copies into
a slice, bytes by their position, and shifts of a byte beyond its width. Main statements: shifts that are
made byte by byte stay within bounds (`Bytes.shiftRight?_eq`, `Bytes.shiftLeft?_eq`), and a loop does what
it does without checks if each of its steps does (`emit?_eq`, `Cuts.fill?_eq`).
-/

namespace RandomBits

/-! ## Byte strings -/

namespace Bytes

/-- The bytes from the position `start` up to `stop`. -/
def slice? (b : Bytes) (start stop : ℕ) : Option Bytes :=
  if start ≤ stop ∧ stop ≤ b.length then some ((b.take stop).drop start) else none

/-- `target` after `source` was copied into the slice of its first `count` bytes, which must be as many as
those of `source`. -/
def copyFront? (target : Bytes) (count : ℕ) (source : Bytes) : Option Bytes :=
  if count ≤ target.length ∧ source.length = count then some (source ++ target.drop count) else none

/-- A byte shifted by less than its width to the left. -/
def shiftByteLeft? (x : UInt8) (shift : ℕ) : Option UInt8 :=
  if shift < 8 then some (x <<< UInt8.ofNat shift) else none

/-- A byte shifted by less than its width to the right. -/
def shiftByteRight? (x : UInt8) (shift : ℕ) : Option UInt8 :=
  if shift < 8 then some (x >>> UInt8.ofNat shift) else none

/-- The bits that the byte at position `i` takes in from the byte before it, if there is one. -/
def carryAt? (shift : ℕ) (b : Bytes) (i : ℕ) : Option UInt8 :=
  if 0 < i then do shiftByteLeft? (← b[i - 1]?) (8 - shift) else some 0

def alignAt? (shift : ℕ) (b : Bytes) (i : ℕ) : Option Bytes := do
  let carry ← carryAt? shift b i
  let low ← shiftByteRight? (← b[i]?) shift
  return b.set i (low ||| carry)

/-- `b` shifted to the right in its place, from the last byte to the first. -/
def shiftRight? (shift : ℕ) (b : Bytes) : Option Bytes :=
  if shift = 0 then some b else (List.range b.length).reverse.foldlM (alignAt? shift) b

/-- Shifts little-endian bytes to the left. Each byte leaves its high bits to the next one. -/
def shiftLeftCarry? (shift : ℕ) : (carry : UInt8) → Bytes → Option Bytes
  | _, [] => some []
  | carry, x :: b => do
    let high ← shiftByteLeft? x shift
    let rest ← shiftLeftCarry? shift (← shiftByteRight? x (8 - shift)) b
    return (high ||| carry) :: rest

/-- `b` shifted to the left, from the last byte to the first. -/
def shiftLeft? (shift : ℕ) (b : Bytes) : Option Bytes :=
  if shift = 0 then some b else (shiftLeftCarry? shift 0 b.reverse).map List.reverse

variable {b : Bytes} {start stop shift : ℕ}

theorem slice?_eq (ordered : start ≤ stop) (within : stop ≤ b.length) :
    b.slice? start stop = some ((b.take stop).drop start) :=
  if_pos ⟨ordered, within⟩

theorem slice?_front (within : stop ≤ b.length) : b.slice? 0 stop = some (b.take stop) :=
  slice?_eq (Nat.zero_le stop) within

theorem copyFront?_eq {target source : Bytes} (within : source.length ≤ target.length) :
    target.copyFront? source.length source = some (source ++ target.drop source.length) :=
  if_pos ⟨within, rfl⟩

/-- The high bits of a byte do not fit beside a shift to the left, and are what the opposite shift keeps. -/
private theorem or_digits {low width : ℕ} (high : ℕ) (small : width ≤ 8) (below : low < 2 ^ width) :
    2 ^ width * high % 256 ||| low = (2 ^ width * high + low) % 256 := by
  have split : 256 = 2 ^ width * 2 ^ (8 - width) := by
    rw [← Nat.pow_add, Nat.add_sub_cancel' small]
  rw [split, Nat.mul_mod_mul_left, ← Nat.two_pow_add_eq_or_of_lt below, Nat.mod_mul,
    Nat.mul_add_mod, Nat.mul_add_div (by positivity), Nat.div_eq_of_lt below, Nat.mod_eq_of_lt below,
    Nat.add_zero, Nat.add_comm]

private theorem toNat_ofNat_of_lt_eight (within : shift < 8) : (UInt8.ofNat shift).toNat = shift := by
  rw [UInt8.toNat_ofNat']
  omega

private theorem toNat_shiftByteLeft (x : UInt8) (within : shift < 8) :
    (x <<< UInt8.ofNat shift).toNat = 2 ^ shift * x.toNat % 256 := by
  rw [UInt8.toNat_shiftLeft, toNat_ofNat_of_lt_eight within, Nat.mod_eq_of_lt within,
    Nat.shiftLeft_eq, Nat.mul_comm]

private theorem toNat_shiftByteRight (x : UInt8) (within : shift < 8) :
    (x >>> UInt8.ofNat shift).toNat = x.toNat / 2 ^ shift := by
  rw [UInt8.toNat_shiftRight, toNat_ofNat_of_lt_eight within, Nat.mod_eq_of_lt within,
    Nat.shiftRight_eq_div_pow]

/-- What is left of a byte after a shift to the right leaves room for bits of the byte before. -/
private theorem div_lt_complement (x : UInt8) (small : shift ≤ 8) :
    x.toNat / 2 ^ shift < 2 ^ (8 - shift) := by
  rw [Nat.div_lt_iff_lt_mul (by positivity), ← Nat.pow_add, Nat.sub_add_cancel small]
  exact x.toNat_lt

/-- A byte takes in the low bits of the byte before it. -/
private theorem shiftRight_or_shiftLeft (above x : UInt8) (positive : 0 < shift) (within : shift < 8) :
    x >>> UInt8.ofNat shift ||| above <<< UInt8.ofNat (8 - shift) =
      UInt8.ofNat ((256 * above.toNat + x.toNat) >>> shift) := by
  have split : 256 * above.toNat = 2 ^ shift * (2 ^ (8 - shift) * above.toNat) := by
    rw [← Nat.mul_assoc, ← Nat.pow_add, Nat.add_sub_cancel' within.le]
  apply UInt8.toNat_inj.mp
  rw [UInt8.toNat_or, toNat_shiftByteRight x within, toNat_shiftByteLeft above (by omega), Nat.or_comm,
    or_digits _ (by omega) (div_lt_complement x within.le), UInt8.toNat_ofNat',
    Nat.shiftRight_eq_div_pow, split, Nat.mul_add_div (by positivity)]

/-- A byte takes in the carry from the byte behind it. -/
private theorem shiftLeft_or {carry : UInt8} (x : UInt8) (within : shift < 8)
    (below : carry.toNat < 2 ^ shift) :
    x <<< UInt8.ofNat shift ||| carry = UInt8.ofNat (x.toNat <<< shift + carry.toNat) := by
  apply UInt8.toNat_inj.mp
  rw [UInt8.toNat_or, toNat_shiftByteLeft x within, or_digits _ within.le below, UInt8.toNat_ofNat',
    Nat.shiftLeft_eq, Nat.mul_comm]

/-- The carry of a shift to the left is what the opposite shift leaves. -/
private theorem carry_eq {carry : UInt8} (x : UInt8) (positive : 0 < shift) (within : shift < 8)
    (below : carry.toNat < 2 ^ shift) :
    (x.toNat <<< shift + carry.toNat) / 256 = (x >>> UInt8.ofNat (8 - shift)).toNat := by
  have split : 256 = 2 ^ shift * 2 ^ (8 - shift) := by
    rw [← Nat.pow_add, Nat.add_sub_cancel' within.le]
  rw [toNat_shiftByteRight x (by omega), Nat.shiftLeft_eq, Nat.mul_comm, split, ← Nat.div_div_eq_div_mul,
    Nat.mul_add_div (by positivity), Nat.div_eq_of_lt below, Nat.add_zero]

theorem shiftLeftCarry?_eq {carry : UInt8} (positive : 0 < shift) (within : shift < 8)
    (below : carry.toNat < 2 ^ shift) (b : Bytes) :
    shiftLeftCarry? shift carry b = some (shiftLeftCarry shift carry.toNat b) := by
  induction b generalizing carry with
  | nil => rfl
  | cons x b ih =>
    have next : (x >>> UInt8.ofNat (8 - shift)).toNat < 2 ^ shift := by
      have room : x.toNat / 2 ^ (8 - shift) < 2 ^ (8 - (8 - shift)) := div_lt_complement x (by omega)
      rwa [Nat.sub_sub_self within.le, ← toNat_shiftByteRight x (by omega)] at room
    have opposite : 8 - shift < 8 := by omega
    simp only [shiftLeftCarry?, shiftByteLeft?, shiftByteRight?, if_pos within, if_pos opposite,
      Option.bind_eq_bind, Option.bind_some, ih next, shiftLeft_or x within below, shiftLeftCarry,
      carry_eq x positive within below]
    rfl

/-- A shift to the left within a byte can be done byte by byte. -/
theorem shiftLeft?_eq (within : shift < 8) (b : Bytes) : b.shiftLeft? shift = some (b.shiftLeft shift) := by
  unfold shiftLeft?
  split
  next zero =>
    subst zero
    congr 1
    apply eq_of_toNat_eq (by simp)
    rw [toNat_shiftLeft, pow_zero, Nat.mul_one, Nat.mod_eq_of_lt b.toNat_lt]
  next nonzero =>
    have positive := Nat.pos_of_ne_zero nonzero
    have none : (0 : UInt8).toNat < 2 ^ shift := Nat.two_pow_pos shift
    rw [shiftLeftCarry?_eq positive within none]
    rfl

/-- Each byte of a shift to the right depends on the byte at its place and the one before. -/
private theorem shiftRightFrom_eq_zipWith (shift : ℕ) (above : UInt8) (b : Bytes) :
    shiftRightFrom shift above b = List.zipWith
      (fun above x => UInt8.ofNat ((256 * above.toNat + x.toNat) >>> shift)) (above :: b) b := by
  induction b generalizing above with
  | nil => rfl
  | cons x b ih => rw [shiftRightFrom, ih, List.zipWith_cons_cons]

/-- In front of the bytes that are aligned the old bytes are read. -/
private theorem getElem?_take_append (rest : Bytes) {i j : ℕ} (inside : i < b.length) (le : j ≤ i) :
    (b.take (i + 1) ++ rest)[j]? = some b[j] := by
  have within : j < (b.take (i + 1)).length := by
    rw [List.length_take]
    omega
  rw [List.getElem?_append_left within, List.getElem?_take_of_lt (Nat.lt_succ_of_le le),
    List.getElem?_eq_getElem]

theorem carryAt?_eq (rest : Bytes) {i : ℕ} (positive : 0 < shift) (inside : i < b.length)
    (before : i < (0 :: b).length) : carryAt? shift (b.take (i + 1) ++ rest) i =
      some ((0 :: b)[i] <<< UInt8.ofNat (8 - shift)) := by
  have opposite : 8 - shift < 8 := by omega
  cases i with
  | zero =>
    have none : (0 : UInt8) <<< UInt8.ofNat (8 - shift) = 0 := by
      apply UInt8.toNat_inj.mp
      rw [toNat_shiftByteLeft 0 opposite]
      rfl
    exact congrArg some none.symm
  | succ j =>
    rw [carryAt?, if_pos j.succ_pos, Nat.add_sub_cancel,
      getElem?_take_append rest inside (Nat.le_succ j)]
    exact if_pos opposite

/-- A byte is aligned while the bytes in front of it are still as they were. -/
theorem alignAt?_eq (rest : Bytes) {i : ℕ} (positive : 0 < shift) (within : shift < 8)
    (inside : i < b.length) (last : i < (shiftRight shift b).length) :
    alignAt? shift (b.take (i + 1) ++ rest) i =
      some (b.take i ++ (shiftRight shift b)[i] :: rest) := by
  have before : i < (0 :: b).length := Nat.lt_succ_of_lt inside
  let above : UInt8 := (0 :: b)[i]
  have value : (shiftRight shift b)[i] =
      b[i] >>> UInt8.ofNat shift ||| above <<< UInt8.ofNat (8 - shift) := by
    simp only [shiftRight, shiftRightFrom_eq_zipWith, List.getElem_zipWith]
    exact (shiftRight_or_shiftLeft above b[i] positive within).symm
  have front : (b.take i).length = i := List.length_take_of_le inside.le
  have written (x : UInt8) : (b.take (i + 1) ++ rest).set i x = b.take i ++ x :: rest := by
    rw [List.take_succ_eq_append_getElem inside, List.append_assoc, List.set_append_right _ _ front.le,
      front, Nat.sub_self]
    rfl
  simp only [alignAt?, carryAt?_eq rest positive inside before, getElem?_take_append rest inside le_rfl,
    Option.bind_eq_bind, Option.bind_some, shiftByteRight?, if_pos within, written, value]
  rfl

theorem shiftRight?_eq (within : shift < 8) (b : Bytes) :
    b.shiftRight? shift = some (b.shiftRight shift) := by
  unfold shiftRight?
  split
  next zero =>
    subst zero
    congr 1
    apply eq_of_toNat_eq (by simp)
    rw [toNat_shiftRight (by decide), pow_zero, Nat.div_one]
  next nonzero =>
    have positive := Nat.pos_of_ne_zero nonzero
    -- The bytes from position `count` on have been aligned.
    have aligned (count : ℕ) (inside : count ≤ b.length) :
        (List.range count).reverse.foldlM (alignAt? shift)
          (b.take count ++ (shiftRight shift b).drop count) = some (shiftRight shift b) := by
      induction count with
      | zero => rfl
      | succ count ih =>
        have last : count < (shiftRight shift b).length := by simpa using inside
        rw [List.range_succ, List.reverse_append, List.reverse_singleton, List.singleton_append,
          List.foldlM_cons, alignAt?_eq _ positive within inside last, Option.bind_eq_bind, Option.bind_some,
          ← List.drop_eq_getElem_cons last]
        exact ih (Nat.le_of_succ_le inside)
    have all := aligned b.length le_rfl
    rwa [List.take_length, List.drop_of_length_le (length_shiftRight ..).le, List.append_nil] at all

/-- No more is written to a buffer than it holds. -/
@[simp] theorem overwrite_take (buffer written : Bytes) :
    buffer.overwrite (written.take buffer.length) = buffer.overwrite written := by
  rcases le_total written.length buffer.length with fits | beyond
  · rw [List.take_of_length_le fits]
  · have behind : buffer.drop written.length = [] := List.drop_of_length_le beyond
    rw [overwrite, overwrite, List.take_take, min_self, List.length_take_of_le beyond,
      List.drop_length, behind]

/-- A block is written to the front of a buffer, and further ones to what is behind it. -/
private theorem overwrite_append {size : ℕ} (buffer : Bytes) {block : Bytes} (whole : block.length = size)
    (rest : Bytes) : buffer.overwrite (block ++ rest) =
      block.take (buffer.take size).length ++ overwrite (buffer.drop size) rest := by
  have front : block.take buffer.length = block.take (buffer.take size).length := by
    rw [List.take_eq_take_iff, List.length_take, whole]
    omega
  rw [overwrite, overwrite, List.take_append, List.length_append, whole, front, List.length_drop,
    List.drop_drop, List.append_assoc]

end Bytes

/-! ## Loops -/

section Loops

variable {σ : Type}

/-- The concatenated blocks of `count` successive steps, and the state they lead to. -/
def emit? (step? : σ → Option (Bytes × σ)) : (count : ℕ) → σ → Option (Bytes × σ)
  | 0, s => some ([], s)
  | count + 1, s => do
    let (block, next) ← step? s
    let (rest, last) ← emit? step? count next
    return (block ++ rest, last)

/-- Steps that stay within bounds from valid states on emit their blocks. -/
theorem emit?_eq {step? : σ → Option (Bytes × σ)} {step : σ → Bytes × σ} (valid : σ → Prop)
    (within : ∀ s, valid s → step? s = some (step s)) (next : ∀ s, valid s → valid (step s).2)
    (count : ℕ) (s : σ) (start : valid s) : emit? step? count s = some (emit step count s) := by
  induction count generalizing s with
  | zero => rfl
  | succ count ih =>
    simp only [emit?, within s start, Option.bind_eq_bind, Option.bind_some, ih _ (next s start), emit]
    rfl

/-- The blocks of successive steps up to the first fault, and the last state if there is no fault. -/
def emitUntilFault (step : σ → Except Fault (Bytes × σ)) : (count : ℕ) → σ → Bytes × Except Fault σ
  | 0, s => ([], .ok s)
  | count + 1, s =>
    match step s with
    | .error fault => ([], .error fault)
    | .ok (block, next) =>
      let (rest, last) := emitUntilFault step count next
      (block ++ rest, last)

/-- Copies the front of one block after another into chunks of a buffer. A step is told how many bytes of
its block there is room for. -/
def fillChunks? (step? : (count : ℕ) → σ → Option (Except Fault (Bytes × σ))) :
    List Bytes → σ → Option (Bytes × Except Fault σ)
  | [], s => some ([], .ok s)
  | chunk :: rest, s => do
    match ← step? chunk.length s with
    | .error fault => return ((chunk :: rest).flatten, .error fault)
    | .ok (front, next) =>
      let written ← chunk.copyFront? chunk.length front
      let (behind, last) ← fillChunks? step? rest next
      return (written ++ behind, last)

/-- Fills a buffer that is cut into chunks of a positive size. -/
def fill? (step? : (count : ℕ) → σ → Option (Except Fault (Bytes × σ))) (size : ℕ) (buffer : Bytes)
    (s : σ) : Option (Bytes × Except Fault σ) :=
  if size = 0 then none else fillChunks? step? (buffer.chunks size) s

/-- From valid states on, steps with checked accesses give the fronts of blocks of one size. -/
structure Cuts (step? : (count : ℕ) → σ → Option (Except Fault (Bytes × σ)))
    (step : σ → Except Fault (Bytes × σ)) (size : ℕ) (valid : σ → Prop) : Prop where
  positive : 0 < size
  front {s : σ} {count : ℕ} (start : valid s) (room : count ≤ size) :
    step? count s = some ((step s).map fun (block, next) => (block.take count, next))
  next {s next : σ} {block : Bytes} (start : valid s) (ran : step s = .ok (block, next)) :
    block.length = size ∧ valid next

/-- The loop over the chunks of a buffer stays within bounds. Where it ends with a fault, the rest of the
buffer is as it was. -/
theorem Cuts.fill?_eq {step? : (count : ℕ) → σ → Option (Except Fault (Bytes × σ))}
    {step : σ → Except Fault (Bytes × σ)} {size : ℕ} {valid : σ → Prop}
    (cuts : Cuts step? step size valid) (buffer : Bytes) {s : σ} (start : valid s) :
    fill? step? size buffer s =
      some (buffer.overwrite (emitUntilFault step (blocksFor buffer.length size) s).1,
        (emitUntilFault step (blocksFor buffer.length size) s).2) := by
  rw [fill?, if_neg cuts.positive.ne']
  induction buffer using Bytes.chunk_induction cuts.positive generalizing s with
  | nil => simp [fillChunks?, emitUntilFault]
  | step buffer nonempty ih =>
    have room : (buffer.take size).length ≤ size := List.length_take_le ..
    have count : blocksFor buffer.length size = blocksFor (buffer.drop size).length size + 1 := by
      rw [List.length_drop]
      exact blocksFor_eq_succ cuts.positive (List.length_pos_iff.mpr nonempty)
    rw [Bytes.chunks_of_ne_nil cuts.positive nonempty, fillChunks?, cuts.front start room, count,
      emitUntilFault]
    cases ran : step s with
    | error fault =>
      simp only [Except.map, Option.bind_eq_bind, Option.bind_some, Bytes.overwrite_nil,
        List.flatten_cons, Bytes.flatten_chunks cuts.positive, List.take_append_drop]
      rfl
    | ok stepped =>
      obtain ⟨block, next⟩ := stepped
      obtain ⟨whole, valid⟩ := cuts.next start ran
      have fits : (block.take (buffer.take size).length).length = (buffer.take size).length :=
        List.length_take_of_le (whole.symm ▸ room)
      have copied : Bytes.copyFront? (buffer.take size) (buffer.take size).length
          (block.take (buffer.take size).length) = some (block.take (buffer.take size).length) := by
        rw [Bytes.copyFront?, if_pos ⟨le_rfl, fits⟩, List.drop_length, List.append_nil]
      simp only [Except.map, Option.bind_eq_bind, Option.bind_some, copied, ih valid,
        Bytes.overwrite_append buffer whole]
      rfl

/-- Where the loop ends without a fault, it ends in a valid state. -/
theorem Cuts.valid_last {step? : (count : ℕ) → σ → Option (Except Fault (Bytes × σ))}
    {step : σ → Except Fault (Bytes × σ)} {size : ℕ} {valid : σ → Prop}
    (cuts : Cuts step? step size valid) {count : ℕ} {s last : σ} (start : valid s)
    (ended : (emitUntilFault step count s).2 = .ok last) : valid last := by
  induction count generalizing s with
  | zero =>
    cases ended
    exact start
  | succ count ih =>
    rw [emitUntilFault] at ended
    cases ran : step s with
    | error fault =>
      rw [ran] at ended
      cases ended
    | ok stepped =>
      rw [ran] at ended
      exact ih (cuts.next start ran).2 ended

/-- Steps without a fault emit all their blocks. -/
theorem emitUntilFault_ok (step : σ → Bytes × σ) (count : ℕ) (s : σ) :
    emitUntilFault (fun s => .ok (step s)) count s =
      ((emit step count s).1, .ok (emit step count s).2) := by
  induction count generalizing s with
  | zero => rfl
  | succ count ih => simp only [emitUntilFault, ih, emit]

end Loops

end RandomBits
