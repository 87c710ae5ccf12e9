import Mathlib
import RandomBits.Core.CtrDrbg
import RandomBits.Core.HashDrbg
import RandomBits.Proofs.Arithmetic

/-! # Sums that wrap around at the length of a byte string

An operation on byte strings that adds a number modulo the numbers of their length is fixed by that number
(`Bytes.AddsModulo.eq`). Sums, increments and sums in a row are such operations, so whatever adds up to
the same number does the same. Main statement: the working state of Hash_DRBG does not depend on the order
in which sums are taken, and both mechanisms with a counter count alike (`Bytes.arithmetic_is_modular`).
-/

namespace RandomBits

namespace Bytes

/-- An operation on byte strings keeps their length and adds a number modulo the numbers of that length. -/
structure AddsModulo (operation : Bytes → Bytes) (n : ℕ) : Prop where
  length (b : Bytes) : (operation b).length = b.length
  value (b : Bytes) : (operation b).toNat = (b.toNat + n) % 256 ^ b.length

section

variable {first second : Bytes → Bytes} {m n : ℕ}

/-- Operations that add the same number are the same. -/
theorem AddsModulo.eq (left : AddsModulo first n) (right : AddsModulo second n) : first = second := by
  funext b
  apply eq_of_toNat_eq
  · rw [left.length, right.length]
  · rw [left.value, right.value]

/-- What is added in a row is added together. -/
theorem AddsModulo.comp (before : AddsModulo first m) (after : AddsModulo second n) :
    AddsModulo (fun b => second (first b)) (m + n) where
  length b := by rw [after.length, before.length]
  value b := by rw [after.value, before.length, before.value, Nat.mod_add_mod, Nat.add_assoc]

end

theorem addsModulo_add (addend : Bytes) : AddsModulo (fun target => target.add addend) addend.toNat where
  length target := length_add target addend
  value target := toNat_add target addend

theorem addsModulo_increment : AddsModulo increment 1 where
  length := length_increment
  value := toNat_increment

/-- Sums in a row add the sum of all numbers. -/
theorem addsModulo_foldl (addends : List Bytes) :
    AddsModulo (fun target => addends.foldl add target) (addends.map toNat).sum := by
  induction addends with
  | nil =>
    refine ⟨fun _ => rfl, fun b => ?_⟩
    exact (Nat.mod_eq_of_lt b.toNat_lt).symm
  | cons addend rest ih => exact (addsModulo_add addend).comp ih

/-- An increment adds the byte one. -/
theorem increment_eq_add (block : Bytes) : block.increment = block.add [0x01] :=
  congrFun (addsModulo_increment.eq (addsModulo_add [0x01])) block

/-- Sums in a row can be taken in any order. -/
theorem foldl_add_of_perm {order addends : List Bytes} (perm : order.Perm addends) (target : Bytes) :
    order.foldl add target = addends.foldl add target := by
  have total : (order.map toNat).sum = (addends.map toNat).sum := (perm.map toNat).sum_eq
  exact congrFun ((addsModulo_foldl order).eq (total ▸ addsModulo_foldl addends)) target

/-- A number, if it fits a word of sixteen bits. -/
def word? (n : ℕ) : Option ℕ := if n < 2 ^ 16 then some n else none

/-- The little-endian sum of two byte strings and a carry, taken in words of sixteen bits. The high byte of
each word is the carry to the next one. -/
def addWords? : Bytes → Bytes → (carry : ℕ) → Option Bytes
  | [], _, _ => some []
  | a :: target, addend, carry => do
    let sum ← word? ((← word? (a.toNat + (addend.headD 0).toNat)) + carry)
    let rest ← addWords? target addend.tail (sum >>> 8)
    return UInt8.ofNat sum :: rest

/-- No sum of two bytes and a carry overflows its word, and the carry is never more than one. -/
theorem addWords?_eq (target addend : Bytes) {carry : ℕ} (bit : carry ≤ 1) :
    addWords? target addend carry = some (addCarry target addend carry) := by
  induction target generalizing addend carry with
  | nil => rfl
  | cons a target ih =>
    have left := a.toNat_lt
    have right := (addend.headD 0).toNat_lt
    have digits : word? (a.toNat + (addend.headD 0).toNat) = some (a.toNat + (addend.headD 0).toNat) :=
      if_pos (by omega)
    have sum : word? (a.toNat + (addend.headD 0).toNat + carry) =
        some (a.toNat + (addend.headD 0).toNat + carry) :=
      if_pos (by omega)
    have next : (a.toNat + (addend.headD 0).toNat + carry) / 256 ≤ 1 := by omega
    simp only [addWords?, addCarry, Option.bind_eq_bind, digits, sum, Option.bind_some,
      Nat.shiftRight_eq_div_pow, Nat.reducePow, ih addend.tail next]
    rfl

end Bytes

namespace HashDrbg

/-- What a request adds to the value that its output starts from. -/
def advances (s : HashDrbg) (additional : Bytes) (counter : ℕ) : List Bytes :=
  [s.digest.hash [[0x03], s.startValue additional], s.c, Bytes.ofNat 8 counter]

/-- A request moves the value on by sums that can be taken in any order. -/
private theorem v_generate_of_perm (s : HashDrbg) (length : ℕ) (additional : Bytes) (counter : ℕ)
    {order : List Bytes} (perm : order.Perm (s.advances additional counter)) :
    (s.generate length additional counter).2.v = order.foldl Bytes.add (s.startValue additional) :=
  (Bytes.foldl_add_of_perm perm _).symm

end HashDrbg

namespace Bytes

/-- Arithmetic on byte strings is arithmetic modulo the power of 256 of their length: sums, whatever the
length of what is added, in words of sixteen bits that never overflow, and the counters of both mechanisms
that count. So an increment is a sum with the byte one, both mechanisms count alike, and sums in a row can
be taken in any order, as those that move a Hash_DRBG value on. -/
theorem arithmetic_is_modular :
    (∀ addend : Bytes, AddsModulo (fun target => target.add addend) addend.toNat) ∧
      (∀ target addend : Bytes,
        (addWords? target.reverse addend.reverse 0).map List.reverse = some (target.add addend)) ∧
      (∀ d : Digest, AddsModulo (fun value => (HashDrbg.outputStep d value).2) 1) ∧
      (∀ keys : Aes.RoundKeys, AddsModulo (fun v => (CtrDrbg.outputStep keys v).2) 1) ∧
      (∀ (d : Digest) (keys : Aes.RoundKeys) (block : Bytes),
        (HashDrbg.outputStep d block).2 = block.add [0x01] ∧
          (CtrDrbg.outputStep keys block).2 = (HashDrbg.outputStep d block).2) ∧
      (∀ addends : List Bytes,
        AddsModulo (fun target => addends.foldl add target) (addends.map toNat).sum) ∧
      (∀ (order addends : List Bytes) (target : Bytes), order.Perm addends →
        order.foldl add target = addends.foldl add target) ∧
      ∀ (s : HashDrbg) (length : ℕ) (additional : Bytes) (counter : ℕ) (order : List Bytes),
        order.Perm (s.advances additional counter) →
          (s.generate length additional counter).2.v = order.foldl add (s.startValue additional) := by
  refine ⟨addsModulo_add, ?_, fun _ => addsModulo_increment, fun _ => addsModulo_increment, ?_,
    addsModulo_foldl, ?_, ?_⟩
  · intro target addend
    rw [addWords?_eq _ _ (Nat.zero_le 1), Option.map_some, add]
  · exact fun d keys block => ⟨increment_eq_add block, rfl⟩
  · exact fun order addends target perm => foldl_add_of_perm perm target
  · exact fun s length additional counter order perm => s.v_generate_of_perm length additional counter perm

/-- A carry runs through all bytes of a target and is lost at its front. The sums of a request are taken in
reverse. -/
theorem arithmetic_is_modular_reversed :
    let target : Bytes := [0xff, 0xff, 0xff]
    let addends : List Bytes := [[0x01], [0x02, 0x00, 0x00, 0x00], [0xff, 0xff, 0x05]]
    let s := HashDrbg.instantiate .sha256 (zeros 32) [1] []
    let start := s.startValue [5]
    addends.reverse.Perm addends ∧ addends.foldl add target = [0xff, 0xff, 0x05] ∧
      addends.reverse.foldl add target = addends.foldl add target ∧
      (s.advances [5] 7).reverse.Perm (s.advances [5] 7) ∧
      (s.generate 10 [5] 7).2.v =
        ((start.add (ofNat 8 7)).add s.c).add (s.digest.hash [[0x03], start]) := by
  intro target addends s start
  -- The sums are the same for any state, which is not to be computed here.
  clear_value s
  obtain ⟨-, -, -, -, -, -, reordered, moved⟩ := arithmetic_is_modular
  have perm : addends.reverse.Perm addends := List.reverse_perm addends
  have turned : (s.advances [5] 7).reverse.Perm (s.advances [5] 7) := List.reverse_perm _
  exact ⟨perm, by decide +kernel, reordered _ _ target perm, turned, moved s 10 [5] 7 _ turned⟩

end Bytes

end RandomBits
