import Mathlib
import RandomBits.Proofs.BoundedCores
import RandomBits.Proofs.LeftAlignment
import RandomBits.Proofs.Reduction

/-! # Scalars are in range

A scalar of Dual_EC_DRBG comes from the derivation function, from a coordinate, or from the exclusive or of
two scalars, and one subtraction of the group order must reduce it. Main statement: no scalar is ever out
of the range where it does, so that a request comes to its end unless a multiple is the point at infinity
(`DualEcDrbg.scalars_in_range`).
-/

namespace RandomBits

namespace Curve

variable (c : Curve)

private theorem order_lt : c.order < 2 ^ c.seedBits := by cases c <;> decide +kernel

/-- The bits of a scalar do not reach twice the group order. -/
private theorem le_two_mul_order : 2 ^ c.seedBits ≤ 2 * c.order := by cases c <;> decide +kernel

private theorem order_pos : 0 < c.order := by cases c <;> decide

/-- The second point is a point of its curve. -/
theorem contains_pointQ : c.contains c.pointQ = true := by cases c <;> decide +kernel

/-- A point operation ends with a scalar again, or at the point at infinity. -/
def Settles (result : Except Fault Bytes) : Prop :=
  (∃ x, result = .ok x ∧ c.IsScalar x) ∨ result = .error .pointAtInfinity

/-- A scalar that the point operations can reduce. -/
structure InRange (k : Bytes) : Prop where
  scalar : c.IsScalar k
  /-- The bits in front of it are zero. -/
  spare : List.replicate c.spareBits false <+: k.bits
  lt_two_mul_order : k.toNat < 2 * c.order
  residue : c.scalar k = k.toNat % c.order
  xOfP : c.Settles (c.xOfP k)
  xOfQ : c.Settles (c.xOfQ k)

variable {c} {k : Bytes}

theorem IsScalar.lt_two_mul_order (scalar : c.IsScalar k) : k.toNat < 2 * c.order :=
  scalar.lt.trans_le c.le_two_mul_order

/-- A scalar is reduced to its residue. -/
theorem IsScalar.scalar_eq_mod (scalar : c.IsScalar k) : c.scalar k = k.toNat % c.order := by
  have order : (Bytes.ofNat c.fieldLength c.order).toNat = c.order := toNat_written c.order_lt
  have length : k.length = (Bytes.ofNat c.fieldLength c.order).length := by
    rw [Bytes.length_ofNat, scalar.length]
  have below : k.toNat < 2 * (Bytes.ofNat c.fieldLength c.order).toNat := by
    rw [order]
    exact scalar.lt_two_mul_order
  rw [Curve.scalar, Bytes.toNat_reduce_eq_mod length below, order]

/-- All bits of a P-256 scalar stand for a number above the group order. -/
example : Curve.p256.scalar (List.replicate 32 0xff) = 2 ^ 256 - 1 - Curve.p256.order := by decide +kernel

/-- A scalar is never out of range, whatever it multiplies. -/
theorem IsScalar.settles (scalar : c.IsScalar k) (base : Coordinates) :
    c.Settles (c.xOfMultiple base k) := by
  have reduced : ¬ c.order ≤ c.scalar k := by
    rw [scalar.scalar_eq_mod, Nat.not_le]
    exact Nat.mod_lt _ c.order_pos
  cases found : c.xOfMultiple base k with
  | ok x => exact .inl ⟨x, rfl, isScalar_of_xOfMultiple found⟩
  | error fault =>
    rw [xOfMultiple, if_neg reduced] at found
    dsimp only at found
    split at found
    · cases found
      exact .inr rfl
    · cases found

theorem IsScalar.settles_xOfP (scalar : c.IsScalar k) : c.Settles (c.xOfP k) := scalar.settles c.pointP

theorem IsScalar.settles_xOfQ (scalar : c.IsScalar k) : c.Settles (c.xOfQ k) := by
  rw [xOfQ, if_pos c.contains_pointQ]
  exact scalar.settles c.pointQ

theorem IsScalar.inRange (scalar : c.IsScalar k) : c.InRange k where
  scalar := scalar
  spare := ⟨k.bits.drop c.spareBits, (DualEcDrbg.bits_eq_replicate_append scalar).symm⟩
  lt_two_mul_order := scalar.lt_two_mul_order
  residue := scalar.scalar_eq_mod
  xOfP := scalar.settles_xOfP
  xOfQ := scalar.settles_xOfQ

theorem inRange_iff : c.InRange k ↔ k.length = c.fieldLength ∧ k.toNat < 2 ^ c.seedBits :=
  ⟨fun range => ⟨range.scalar.length, range.scalar.lt⟩,
    fun ⟨length, lt⟩ => IsScalar.inRange ⟨length, lt⟩⟩

instance (c : Curve) : DecidablePred c.InRange := fun _ => decidable_of_iff' _ inRange_iff

end Curve

namespace DualEcDrbg

/-- Blocks lead from scalar to scalar, or to the point at infinity. -/
theorem settles_blocks {c : Curve} {t : Bytes} (scalar : c.IsScalar t) (count : ℕ) (g : DualEcDrbg) :
    c.Settles (blocks c count g t).2.1 := by
  induction count generalizing t with
  | zero => exact .inl ⟨t, rfl, scalar⟩
  | succ count ih =>
    rw [blocks, block]
    rcases scalar.settles_xOfP with ⟨s, moved, next⟩ | infinity
    · rcases next.settles_xOfQ with ⟨r, found, -⟩ | infinity
      · simp only [moved, found, bind, Except.bind]
        exact ih next
      · simp only [moved, infinity, bind, Except.bind]
        exact .inr rfl
    · simp only [infinity, bind, Except.bind]
      exact .inr rfl

/-- A request leads to a scalar, or to the point at infinity. -/
theorem Shaped.settles {g : DualEcDrbg} (shaped : g.Shaped) (length : ℕ) (additional : Bytes) :
    g.curve.Settles (g.nextScalar length additional) := by
  have walked : g.curve.Settles (g.lastScalar length additional) :=
    settles_blocks (shaped.startScalar additional) _ g
  unfold nextScalar
  rcases walked with ⟨t, ended, scalar⟩ | infinity
  · rw [ended]
    exact scalar.settles_xOfP
  · rw [infinity]
    exact .inr rfl

/-- Scalars are always in range. In every state that can be reached the scalar has the bits of a seed, with
zero bits in front, and so has the one that a request starts from. A request that refuses point operations
on any scalar out of range does the same, so it has none; and if it does not lead to a next state, the
fault is the point at infinity and the state is left as it was. -/
theorem scalars_in_range (d : Digest) (c : Curve) (g : DualEcDrbg)
    (reached : Core.Reachable (.dualEc d c) (.dualEc g)) (buffer additional : Bytes) :
    let ran := g.generate buffer.length additional
    c.InRange g.s ∧ c.InRange (g.startScalar additional) ∧
      g.generate? Curve.InRange buffer additional = some (buffer.overwrite ran.1, ran.2) ∧
      ((∃ next, ran.2 = (.ok (), next)) ∨ ran.2 = (.error .pointAtInfinity, g)) := by
  have shaped : g.Shaped := reached.shaped
  obtain ⟨-, rfl⟩ : g.digest = d ∧ g.curve = c := Algorithm.dualEc.inj reached.algorithm
  have outcome : (∃ next, (g.generate buffer.length additional).2 = (.ok (), next)) ∨
      (g.generate buffer.length additional).2 = (.error .pointAtInfinity, g) := by
    rcases shaped.settles buffer.length additional with ⟨s, moved, -⟩ | infinity
    · exact .inl ⟨{ g with s }, generate_of_moved moved⟩
    · exact .inr (generate_of_fault infinity)
  exact ⟨shaped.inRange, (shaped.startScalar additional).inRange,
    shaped.generate?_eq (fun k scalar => scalar.inRange) buffer additional, outcome⟩

/-- A P-521 generator that was reseeded is asked for ten bytes. Seven bits in front of its 66 bytes are
zero. -/
theorem scalars_in_range_p521 :
    let g := (instantiate .sha256 .p521 (Bytes.zeros 32) [1] []).reseed [2, 3] [4]
    let buffer := Bytes.zeros 10
    Core.Reachable (.dualEc .sha256 .p521) (.dualEc g) ∧ g.s.length = 66 ∧
      List.replicate 7 false <+: g.s.bits ∧ Curve.p521.InRange (g.startScalar [5]) ∧
      g.generate? Curve.InRange buffer [5] =
        some (buffer.overwrite (g.generate buffer.length [5]).1, (g.generate buffer.length [5]).2) ∧
      ((∃ next, (g.generate buffer.length [5]).2 = (.ok (), next)) ∨
        (g.generate buffer.length [5]).2 = (.error .pointAtInfinity, g)) := by
  intro g buffer
  have reached : Core.Reachable (.dualEc .sha256 .p521) (.dualEc g) :=
    .reseeded (.instantiated (Bytes.zeros 32) [1] []) [2, 3] [4]
  obtain ⟨state, start, served, outcome⟩ := scalars_in_range .sha256 .p521 g reached buffer [5]
  exact ⟨reached, state.scalar.length, state.spare, start, served, outcome⟩

end DualEcDrbg

end RandomBits
