import Mathlib
import RandomBits.Proofs.Arithmetic
import RandomBits.Bytes.Stream

/-! # Inquiries of a primitive

A computation that uses a cipher under one key, or a digest, is written here as what it asks of it
and how it goes on with the answers. What such a computation comes to for a given primitive
(`Inquiry.answered`) then comes with all the inputs that it asked about (`Inquiry.inputs`). Main
statements: walking along a counter emits a stream (`Inquiry.answered_along`), for which it asks about
successive values (`Inquiry.inputs_along`), and values that a counter passes before it comes round
are distinct (`Bytes.nodup_iterates_increment`).
-/

namespace RandomBits

/-- A computation that may ask for values of a function on byte strings. -/
inductive Inquiry (α : Type)
  | done (value : α)
  | ask (input : Bytes) (rest : Bytes → Inquiry α)

namespace Inquiry

variable {α β : Type}

def bind : Inquiry α → (α → Inquiry β) → Inquiry β
  | done value, next => next value
  | ask input rest, next => ask input fun answer => (rest answer).bind next

def answered (f : Bytes → Bytes) : Inquiry α → α
  | done value => value
  | ask input rest => (rest (f input)).answered f

/-- The inputs that are asked about, in order, if `f` answers. -/
def inputs (f : Bytes → Bytes) : Inquiry α → List Bytes
  | done _ => []
  | ask input rest => input :: (rest (f input)).inputs f

/-- Asks about `count` successive states, each at its point, and concatenates the answers. -/
def along (point next : Bytes → Bytes) : (count : ℕ) → Bytes → Inquiry (Bytes × Bytes)
  | 0, v => done ([], v)
  | count + 1, v => ask (point v) fun block =>
      (along point next count (next v)).bind fun (rest, last) => done (block ++ rest, last)

variable (f : Bytes → Bytes)

@[simp] theorem answered_done (value : α) : (done value).answered f = value := rfl

@[simp] theorem answered_ask (input : Bytes) (rest : Bytes → Inquiry α) :
    (ask input rest).answered f = (rest (f input)).answered f := rfl

@[simp] theorem inputs_done (value : α) : (done value).inputs f = [] := rfl

@[simp] theorem inputs_ask (input : Bytes) (rest : Bytes → Inquiry α) :
    (ask input rest).inputs f = input :: (rest (f input)).inputs f := rfl

@[simp] theorem answered_bind (p : Inquiry α) (next : α → Inquiry β) :
    (p.bind next).answered f = (next (p.answered f)).answered f := by
  induction p with
  | done value => rfl
  | ask input rest ih => exact ih (f input)

@[simp] theorem inputs_bind (p : Inquiry α) (next : α → Inquiry β) :
    (p.bind next).inputs f = p.inputs f ++ (next (p.answered f)).inputs f := by
  induction p with
  | done value => rfl
  | ask input rest ih => exact congrArg (input :: ·) (ih (f input))

variable (point next : Bytes → Bytes)

/-- Answers along a counter are the blocks of a stream. -/
theorem answered_along (count : ℕ) (v : Bytes) :
    (along point next count v).answered f = emit (fun v => (f (point v), next v)) count v := by
  induction count generalizing v with
  | zero => rfl
  | succ count ih => simp [along, emit, ih]

/-- Each state on the way is asked about once. -/
theorem inputs_along (count : ℕ) (v : Bytes) :
    (along point next count v).inputs f =
      (List.range count).map fun i => point (next^[i] v) := by
  induction count generalizing v with
  | zero => rfl
  | succ count ih =>
    simp [along, ih, List.range_succ_eq_map, Function.comp_def, Function.iterate_succ_apply]

/-- The stream consists of the answers to the inputs, and ends behind the last of them. -/
theorem answered_along_eq (count : ℕ) (v : Bytes) :
    (along point next count v).answered f =
      ((((along point next count v).inputs f).map f).flatten, next^[count] v) := by
  induction count generalizing v with
  | zero => rfl
  | succ count ih => simp [along, ih, Function.iterate_succ_apply]

end Inquiry

namespace Bytes

/-- A counter block after so many increments stands for the number that far on. -/
private theorem iterate_increment_ofNat (length n count : ℕ) :
    increment^[count] (ofNat length n) = ofNat length (n + count) := by
  induction count with
  | zero => rfl
  | succ count ih => rw [Function.iterate_succ_apply', ih, increment_ofNat, Nat.add_assoc]

@[simp] theorem length_iterate_increment (count : ℕ) (v : Bytes) :
    (increment^[count] v).length = v.length := by
  rw [← ofNat_toNat v, iterate_increment_ofNat, length_ofNat, length_ofNat]

/-- A counter does not come back to a value before it has passed all of them, wherever it starts and
wraps around. -/
theorem iterate_increment_inj {v : Bytes} {i j : ℕ} (hi : i < 256 ^ v.length)
    (hj : j < 256 ^ v.length) (same : increment^[i] v = increment^[j] v) : i = j := by
  rw [← ofNat_toNat v, iterate_increment_ofNat, iterate_increment_ofNat] at same
  have numbers := congrArg toNat same
  rw [toNat_ofNat, toNat_ofNat] at numbers
  exact Nat.ModEq.eq_of_lt_of_lt (Nat.ModEq.add_left_cancel' _ numbers) hi hj

theorem nodup_iterates_increment {v : Bytes} {count : ℕ} (short : count ≤ 256 ^ v.length) :
    ((List.range count).map fun i => increment^[i] v).Nodup := by
  refine List.Nodup.map_on (fun i hi j hj => ?_) List.nodup_range
  exact iterate_increment_inj ((List.mem_range.mp hi).trans_le short)
    ((List.mem_range.mp hj).trans_le short)

end Bytes

end RandomBits
