import Mathlib
import RandomBits.Curve.Basic
import RandomBits.Proofs.Arithmetic

/-! # One conditional subtraction

Scalars are reduced by a comparison of byte strings and a subtraction byte by byte. For strings of one
length the lexicographic order is the order of the numbers (`Bytes.lt_iff_toNat_lt`), and the difference of
the numbers is taken in signed words of sixteen bits, none of which overflows, without a borrow that is left
over (`Bytes.subWords?_eq`). The main statement puts them together: what comes out is the residue exactly
below twice the modulus (`Bytes.reduce_subtracts_once`).
-/

namespace RandomBits.Bytes

/-- Byte strings of one length are ordered like their numbers. -/
theorem lt_iff_toNat_lt {a b : Bytes} (length : a.length = b.length) : a < b ↔ a.toNat < b.toNat := by
  induction a generalizing b with
  | nil =>
    obtain rfl := List.length_eq_zero_iff.mp length.symm
    exact iff_of_false (List.lt_irrefl _) (Nat.lt_irrefl _)
  | cons x a ih =>
    obtain ⟨y, b, rfl⟩ := List.exists_cons_of_length_eq_add_one length.symm
    have rest : a.length = b.length := Nat.succ.inj length
    have left := toNat_lt a
    have right := toNat_lt b
    rw [List.cons_lt_cons_iff, ih rest, UInt8.lt_iff_toNat_lt, ← UInt8.toNat_inj, toNat_cons, toNat_cons,
      rest]
    rw [rest] at left
    -- The first byte decides, unless it is the same: what follows does not make up for one unit of it.
    rcases lt_trichotomy x.toNat y.toNat with below | same | above
    · have unit : 256 ^ b.length * (x.toNat + 1) ≤ 256 ^ b.length * y.toNat := Nat.mul_le_mul_left _ below
      rw [Nat.mul_succ] at unit
      exact iff_of_true (.inl below) (by omega)
    · simp [same]
    · have unit : 256 ^ b.length * (y.toNat + 1) ≤ 256 ^ b.length * x.toNat := Nat.mul_le_mul_left _ above
      rw [Nat.mul_succ] at unit
      exact iff_of_false (by omega) (by omega)

/-- The borrow that is left over by a subtraction. -/
def borrowed (a m borrow : ℕ) : ℕ := if a < m + borrow then 1 else 0

private theorem borrowed_le (a m borrow : ℕ) : borrowed a m borrow ≤ 1 := by
  unfold borrowed
  split <;> omega

/-- The lowest bytes borrow from those above them, which then borrow as the whole strings do. -/
private theorem borrowed_cons (x y : UInt8) (a m : Bytes) {borrow : ℕ} (bit : borrow ≤ 1) :
    borrowed (toNatLE (x :: a)) (toNatLE (y :: m)) borrow =
      borrowed (toNatLE a) (toNatLE m) (borrowed x.toNat y.toNat borrow) := by
  have minuend := x.toNat_lt
  have subtrahend := y.toNat_lt
  simp only [toNatLE_cons, borrowed]
  congr 1
  apply propext
  split <;> omega

/-- A difference and what was taken make up the minuend and the borrow that is left over. -/
private theorem toNatLE_subBorrow {a m : Bytes} (length : a.length = m.length) {borrow : ℕ}
    (bit : borrow ≤ 1) :
    toNatLE (subBorrow a m borrow) + toNatLE m + borrow =
      toNatLE a + 256 ^ a.length * borrowed (toNatLE a) (toNatLE m) borrow := by
  induction a generalizing m borrow with
  | nil =>
    obtain rfl := List.length_eq_zero_iff.mp length.symm
    interval_cases borrow <;> rfl
  | cons x a ih =>
    obtain ⟨y, m, rfl⟩ := List.exists_cons_of_length_eq_add_one length.symm
    have rest : a.length = m.length := Nat.succ.inj length
    have minuend := x.toNat_lt
    have subtrahend := y.toNat_lt
    let next := borrowed x.toNat y.toNat borrow
    have digit : (x.toNat + 256 - (y.toNat + borrow)) % 256 + y.toNat + borrow = x.toNat + 256 * next := by
      simp only [next, borrowed]
      split <;> omega
    have above : toNatLE (subBorrow a m next) + toNatLE m + next =
        toNatLE a + 256 ^ a.length * borrowed (toNatLE a) (toNatLE m) next :=
      ih rest (borrowed_le ..)
    have width : 256 ^ (x :: a).length = 256 * 256 ^ a.length := Nat.pow_succ'
    rw [borrowed_cons x y a m bit, subBorrow, toNatLE_cons, toNatLE_cons, toNatLE_cons, UInt8.toNat_ofNat',
      width, Nat.mul_assoc]
    change 256 * toNatLE (subBorrow a m next) + _ + _ + _ =
      _ + 256 * (_ * borrowed (toNatLE a) (toNatLE m) next)
    omega

/-- An integer, if it fits a signed word of sixteen bits. -/
def signedWord? (n : ℤ) : Option ℤ := if -2 ^ 15 ≤ n ∧ n < 2 ^ 15 then some n else none

/-- The little-endian difference of two byte strings and a borrow, taken in signed words of sixteen bits, and
the borrow that is left over. -/
def subWords? : Bytes → Bytes → (borrow : ℤ) → Option (Bytes × ℤ)
  | a :: b, m :: n, borrow => do
    let difference ← signedWord? ((← signedWord? (a.toNat - m.toNat)) - borrow)
    let (rest, left) ← subWords? b n (if difference < 0 then 1 else 0)
    return (UInt8.ofNat (difference % 256).toNat :: rest, left)
  | _, _, borrow => some ([], borrow)

/-- No difference of two bytes and a borrow overflows its word. -/
theorem subWords?_eq {a m : Bytes} (length : a.length = m.length) {borrow : ℕ} (bit : borrow ≤ 1) :
    subWords? a m borrow =
      some (subBorrow a m borrow, ((borrowed (toNatLE a) (toNatLE m) borrow : ℕ) : ℤ)) := by
  induction a generalizing m borrow with
  | nil =>
    obtain rfl := List.length_eq_zero_iff.mp length.symm
    interval_cases borrow <;> rfl
  | cons x a ih =>
    obtain ⟨y, m, rfl⟩ := List.exists_cons_of_length_eq_add_one length.symm
    have rest : a.length = m.length := Nat.succ.inj length
    have minuend := x.toNat_lt
    have subtrahend := y.toNat_lt
    have first : signedWord? (x.toNat - y.toNat) = some (x.toNat - y.toNat : ℤ) := if_pos (by omega)
    have second : signedWord? (x.toNat - y.toNat - borrow) = some (x.toNat - y.toNat - borrow : ℤ) :=
      if_pos (by omega)
    have next : (if (x.toNat - y.toNat - borrow : ℤ) < 0 then 1 else 0 : ℤ) =
        borrowed x.toNat y.toNat borrow := by
      rw [borrowed]
      split <;> split <;> omega
    have digit : UInt8.ofNat ((x.toNat - y.toNat - borrow : ℤ) % 256).toNat =
        UInt8.ofNat (x.toNat + 256 - (y.toNat + borrow)) := by
      apply UInt8.toNat_inj.mp
      simp only [UInt8.toNat_ofNat']
      omega
    rw [subWords?, borrowed_cons x y a m bit, subBorrow]
    simp only [Option.bind_eq_bind, first, second, Option.bind_some, next, ih rest (borrowed_le ..), digit]
    rfl

@[simp] theorem length_reduce {k n : Bytes} (length : k.length = n.length) :
    (reduce k n).length = k.length := by
  unfold reduce
  split
  · rfl
  · simp [length]

/-- The modulus is taken away where it fits. -/
theorem toNat_reduce {k n : Bytes} (length : k.length = n.length) :
    (reduce k n).toNat = if k.toNat < n.toNat then k.toNat else k.toNat - n.toNat := by
  rw [reduce]
  simp only [lt_iff_toNat_lt length]
  split
  next => rfl
  next fits =>
    have reversed : k.reverse.length = n.reverse.length := by simpa using length
    have taken := toNatLE_subBorrow reversed (Nat.zero_le 1)
    rw [toNatLE_reverse, toNatLE_reverse, borrowed, Nat.add_zero, Nat.add_zero, if_neg fits,
      Nat.mul_zero, Nat.add_zero] at taken
    rw [toNat_reverse]
    omega

/-- Below twice the modulus one subtraction is enough. -/
theorem toNat_reduce_eq_mod {k n : Bytes} (length : k.length = n.length)
    (below : k.toNat < 2 * n.toNat) : (reduce k n).toNat = k.toNat % n.toNat := by
  rw [toNat_reduce length]
  split
  next small => exact (Nat.mod_eq_of_lt small).symm
  next fits => rw [Nat.mod_eq_sub_mod (Nat.not_lt.mp fits), Nat.mod_eq_of_lt (by omega)]

/-- More than one subtraction would be needed exactly from twice the modulus on. -/
theorem toNat_reduce_lt_iff {k n : Bytes} (length : k.length = n.length) :
    (reduce k n).toNat < n.toNat ↔ k.toNat < 2 * n.toNat := by
  rw [toNat_reduce length]
  split <;> omega

/-- One exact subtraction of a modulus `n` from `k`, where it fits. -/
structure SubtractsOnce (k n : Bytes) : Prop where
  length : (reduce k n).length = k.length
  /-- The comparison of the bytes is that of the numbers. -/
  order : k < n ↔ k.toNat < n.toNat
  kept : k.toNat < n.toNat → reduce k n = k
  taken : n.toNat ≤ k.toNat → (reduce k n).toNat = k.toNat - n.toNat
  /-- All words suffice, and no borrow is left over. -/
  exact : n.toNat ≤ k.toNat → subWords? k.reverse n.reverse 0 = some ((reduce k n).reverse, 0)
  residue_iff : 0 < n.toNat → ((reduce k n).toNat = k.toNat % n.toNat ↔ k.toNat < 2 * n.toNat)
  below_iff : (reduce k n).toNat < n.toNat ↔ k.toNat < 2 * n.toNat

/-- For byte strings of one length, a reduction is one exact conditional subtraction. So it leads to the
residue, which is below the modulus, exactly from below twice the modulus. -/
theorem reduce_subtracts_once {k n : Bytes} (length : k.length = n.length) : SubtractsOnce k n where
  length := length_reduce length
  order := lt_iff_toNat_lt length
  kept below := if_pos ((lt_iff_toNat_lt length).mpr below)
  taken fits := by rw [toNat_reduce length, if_neg (Nat.not_lt.mpr fits)]
  exact fits := by
    have reversed : k.reverse.length = n.reverse.length := by simpa using length
    have settled : borrowed k.toNat n.toNat 0 = 0 := if_neg (Nat.not_lt.mpr fits)
    have differs : ¬ k < n := by rwa [lt_iff_toNat_lt length, Nat.not_lt]
    have subtracted := subWords?_eq reversed (Nat.zero_le 1)
    rw [toNatLE_reverse, toNatLE_reverse, settled] at subtracted
    rw [reduce, if_neg differs, List.reverse_reverse]
    exact subtracted
  residue_iff positive := by
    constructor
    · intro residue
      rw [← toNat_reduce_lt_iff length, residue]
      exact Nat.mod_lt _ positive
    · exact toNat_reduce_eq_mod length
  below_iff := toNat_reduce_lt_iff length

/-- The largest coordinate of P-256 is reduced with a borrow from one byte to the next. Two hundred and
fifty-five is beyond twice the modulus of the second reduction, which therefore stops short. -/
theorem reduce_subtracts_once_p256 :
    let k := Bytes.ofNat 32 (Curve.p256.prime - 1)
    let n := Bytes.ofNat 32 Curve.p256.order
    (k.length = n.length ∧ n.toNat ≤ k.toNat ∧ k.toNat < 2 * n.toNat ∧ SubtractsOnce k n ∧
      (reduce k n).toNat = Curve.p256.prime - 1 - Curve.p256.order) ∧
      ([0xff] : Bytes).length = ([0x7f] : Bytes).length ∧ SubtractsOnce [0xff] [0x7f] ∧
      ¬ (reduce [0xff] [0x7f]).toNat < toNat [0x7f] := by
  intro k n
  have length : k.length = n.length := by simp [k, n]
  have fits : n.toNat ≤ k.toNat := by decide +kernel
  have once := reduce_subtracts_once length
  refine ⟨⟨length, fits, by decide +kernel, once, ?_⟩, rfl, reduce_subtracts_once rfl, by decide⟩
  rw [once.taken fits]
  decide +kernel

end RandomBits.Bytes
