import Mathlib
import RandomBits.Proofs.Seeding
import RandomBits.Proofs.WorkingStates

/-! # Dual_EC_DRBG on numbers

The standard describes Dual_EC_DRBG by a number of the bits of a seed, which the x-coordinates of
multiples of `P` lead on, while those of multiples of `Q` are put out (`DualEcDrbg.walk`). Main
statement: the working states that can be reached are seeded and asked for output as the standard has
it, and stay as they are if a point operation fails (`DualEcDrbg.walks_on_numbers`).
-/

namespace RandomBits

namespace Curve

variable (c : Curve)

def written (n : ℕ) : Bytes := Bytes.ofNat c.fieldLength n

/-- The x-coordinate of the multiple of `P` by a number. -/
def xP (k : ℕ) : Except Fault ℕ := (c.xOfP (c.written k)).map Bytes.toNat

/-- The x-coordinate of the multiple of `Q` by a number. -/
def xQ (k : ℕ) : Except Fault ℕ := (c.xOfQ (c.written k)).map Bytes.toNat

variable {c}

private theorem written_toNat {k : Bytes} (length : k.length = c.fieldLength) : c.written k.toNat = k := by
  rw [written, ← length, Bytes.ofNat_toNat]

/-- A number of the bits of a seed is not cut when it is written. -/
theorem toNat_written {n : ℕ} (below : n < 2 ^ c.seedBits) : (c.written n).toNat = n := by
  rw [written, Bytes.toNat_ofNat, Bytes.pow_256]
  exact Nat.mod_eq_of_lt (below.trans_le (Nat.pow_le_pow_right (by decide) c.seedBits_le))

/-- Coordinates have the bits of a seed. -/
private theorem lt_of_xP {k x : ℕ} (found : c.xP k = .ok x) : x < 2 ^ c.seedBits := by
  obtain ⟨_, multiple, rfl⟩ := map_eq_ok_iff.mp found
  exact (isScalar_of_xOfP multiple).lt

end Curve

namespace DualEcDrbg

/-- A step of the standard: from the scalar `t`, the x-coordinate `s` of `t * P` is the next scalar,
and the x-coordinate of `s * Q` belongs to the output. -/
def step (c : Curve) (t : ℕ) : Except Fault (ℕ × ℕ) := do
  let s ← c.xP t
  let r ← c.xQ s
  return (r, s)

/-- The coordinates that a number of steps yield for output and the last scalar, or the first fault
that they meet. -/
def walk (c : Curve) : (count : ℕ) → (t : ℕ) → Except Fault (List ℕ × ℕ)
  | 0, t => .ok ([], t)
  | count + 1, t => do
    let (r, s) ← step c t
    let (rest, last) ← walk c count s
    return (r :: rest, last)

def startNumber (d : Digest) (c : Curve) (s : ℕ) (additional : Bytes) : ℕ :=
  if additional = [] then s else s ^^^ d.derived c.seedBits additional

/-- Output of the standard: the rightmost bytes of the coordinates of a walk, and one more step to the
next state. -/
def walkOut (d : Digest) (c : Curve) (s length : ℕ) (additional : Bytes) : Except Fault (Bytes × ℕ) := do
  let (coordinates, t) ← walk c (blocksFor length c.outputLength) (startNumber d c s additional)
  let next ← c.xP t
  return ((coordinates.flatMap (Bytes.ofNat c.outputLength)).take length, next)

/-- There is no x-coordinate where a scalar is zero. -/
example : walkOut .sha256 .p521 0 1 [] = .error .pointAtInfinity := by decide +kernel

/-- Behind its first scalar, a request goes on without additional input. -/
theorem generate_startScalar (g : DualEcDrbg) (length : ℕ) (additional : Bytes) :
    match { g with s := g.startScalar additional }.generate length [] with
    | (output, .ok (), next) => g.generate length additional = (output, .ok (), next)
    | (output, .error fault, _) => g.generate length additional = (output, .error fault, g) := by
  let mixed : DualEcDrbg := { g with s := g.startScalar additional }
  have start : mixed.startScalar [] = g.startScalar additional := by
    rw [startScalar, List.isEmpty_nil, if_pos rfl]
  have frame := blocks_frame g.curve (blocksFor length g.curve.outputLength) mixed g
    (g.startScalar additional)
  have last : mixed.nextScalar length [] = g.nextScalar length additional := by
    simp only [nextScalar, lastScalar, start]
    exact congrArg (fun blocks => blocks.2.1.bind g.curve.xOfP) frame
  have output : (mixed.generate length []).1 = (g.generate length additional).1 := by
    simp only [generate_fst, start]
    exact congrArg (fun blocks => blocks.1.take length) frame
  change match mixed.generate length [] with
    | (output, .ok (), next) => g.generate length additional = (output, .ok (), next)
    | (output, .error fault, _) => g.generate length additional = (output, .error fault, g)
  cases outcome : g.nextScalar length additional with
  | ok s =>
    rw [← Prod.eta (mixed.generate length []), output, generate_of_moved (last.trans outcome)]
    exact Prod.ext rfl (generate_of_moved outcome)
  | error fault =>
    rw [← Prod.eta (mixed.generate length []), output, generate_of_fault (last.trans outcome)]
    exact Prod.ext rfl (generate_of_fault outcome)

/-- The bits of a number, filled up with zero bits on the right to whole bytes. -/
def padded (c : Curve) (s : ℕ) : Bytes := c.written (s * 2 ^ (8 * c.fieldLength - c.seedBits))

theorem pad8_eq {c : Curve} {s : Bytes} (scalar : c.IsScalar s) : pad8 c s = padded c s.toNat := by
  apply Bytes.eq_of_toNat_eq
  · rw [pad8, Bytes.length_shiftLeft, scalar.length, padded, Curve.written, Bytes.length_ofNat]
  · rw [pad8, Bytes.toNat_shiftLeft, scalar.length, padded, Curve.written, Bytes.toNat_ofNat]

/-- A block takes a step, and puts out the rightmost bytes of its coordinate. -/
private theorem block_written (c : Curve) (t : ℕ) :
    block c (c.written t) =
      (step c t).map fun (r, s) => (Bytes.ofNat c.outputLength r, c.written s) := by
  rw [block, step, Curve.xP]
  cases first : c.xOfP (c.written t) with
  | error fault => rfl
  | ok s =>
    -- A number is handed on between the two maps, which is written as the same coordinate again.
    have same : c.written s.toNat = s := Curve.written_toNat (Curve.isScalar_of_xOfP first).length
    simp only [Except.map, bind, Except.bind, Curve.xQ, same]
    cases second : c.xOfQ s with
    | error fault => rfl
    | ok r =>
      have rightmost : r.drop (c.fieldLength - c.outputLength) =
          Bytes.ofNat c.outputLength r.toNat :=
        Bytes.drop_eq_ofNat <| (Curve.isScalar_of_xOfQ second).length.trans
          (Nat.sub_add_cancel c.outputLength_le).symm
      simp only [pure, Except.pure, rightmost, same]

/-- Blocks end where the walk ends, or with its fault. -/
theorem blocks_result (c : Curve) (count : ℕ) (g : DualEcDrbg) (t : ℕ) :
    (blocks c count g (c.written t)).2.1 =
      (walk c count t).map fun (_, last) => c.written last := by
  induction count generalizing t with
  | zero => rfl
  | succ count ih =>
    rw [blocks, block_written, walk]
    cases step c t with
    | error fault => rfl
    | ok stepped =>
      obtain ⟨r, s⟩ := stepped
      simp only [Except.map, bind, Except.bind, ih]
      cases walk c count s <;> rfl

/-- The blocks of a walk without a fault are the rightmost bytes of its coordinates. -/
theorem blocks_output {c : Curve} {count t last : ℕ} {coordinates : List ℕ} (g : DualEcDrbg)
    (walked : walk c count t = .ok (coordinates, last)) :
    (blocks c count g (c.written t)).1 = coordinates.flatMap (Bytes.ofNat c.outputLength) := by
  induction count generalizing t coordinates with
  | zero =>
    obtain ⟨rfl, rfl⟩ := Prod.mk.inj (Except.ok.inj walked)
    rfl
  | succ count ih =>
    obtain ⟨⟨r, s⟩, stepped, walked⟩ := bind_eq_ok_iff.mp walked
    obtain ⟨⟨others, _⟩, rest, walked⟩ := bind_eq_ok_iff.mp walked
    obtain ⟨rfl, rfl⟩ := Prod.mk.inj (Except.ok.inj walked)
    rw [blocks, block_written, stepped]
    simp only [Except.map, ih rest, List.flatMap_cons]

namespace Shaped

variable {g : DualEcDrbg} {length : ℕ} {additional : Bytes}

private theorem written_s (shaped : g.Shaped) : g.curve.written g.s.toNat = g.s :=
  Curve.written_toNat shaped.length

/-- Additional input is mixed into the number that output starts from. -/
theorem startScalar_eq (shaped : g.Shaped) (additional : Bytes) :
    g.startScalar additional =
      g.curve.written (startNumber g.digest g.curve g.s.toNat additional) := by
  rw [← Curve.written_toNat (shaped.startScalar additional).length]
  congr 1
  simp only [DualEcDrbg.startScalar, startNumber, List.isEmpty_iff]
  split
  next => rfl
  next =>
    have derived := isScalar_derive g.digest g.curve [additional]
    rw [Bytes.toNat_xor (shaped.length.trans derived.length.symm), derive, Digest.toNat_hashDf,
      List.flatten_singleton]

theorem toNat_reseed (shaped : g.Shaped) (entropy additional : Bytes) :
    (g.reseed entropy additional).s.toNat = g.digest.derived g.curve.seedBits
      (padded g.curve g.s.toNat ++ entropy ++ additional) := by
  simp only [DualEcDrbg.reseed, derive, Digest.toNat_hashDf, pad8_eq shaped]
  simp

/-- A request leads to the last scalar of the standard, or to its fault. -/
theorem nextScalar_eq (shaped : g.Shaped) (length : ℕ) (additional : Bytes) :
    g.nextScalar length additional =
      (walkOut g.digest g.curve g.s.toNat length additional).map fun (_, s) => g.curve.written s := by
  rw [nextScalar, lastScalar, shaped.startScalar_eq, blocks_result, walkOut]
  cases walk g.curve (blocksFor length g.curve.outputLength)
      (startNumber g.digest g.curve g.s.toNat additional) with
  | error fault => rfl
  | ok walked =>
    simp only [Except.map, bind, Except.bind, Curve.xP]
    cases moved : g.curve.xOfP (g.curve.written walked.2) with
    | error fault => rfl
    | ok x =>
      simp only [pure, Except.pure, Curve.written_toNat (Curve.isScalar_of_xOfP moved).length]

/-- What the standard puts out is put out, and its next scalar has the bits of a seed. -/
theorem generate_output (shaped : g.Shaped) {output : Bytes} {s : ℕ}
    (ran : walkOut g.digest g.curve g.s.toNat length additional = .ok (output, s)) :
    (g.generate length additional).1 = output ∧ s < 2 ^ g.curve.seedBits := by
  obtain ⟨⟨coordinates, t⟩, walked, ran⟩ := bind_eq_ok_iff.mp ran
  obtain ⟨next, moved, ran⟩ := bind_eq_ok_iff.mp ran
  obtain ⟨rfl, rfl⟩ := Prod.mk.inj (Except.ok.inj ran)
  refine ⟨?_, Curve.lt_of_xP moved⟩
  rw [generate_fst, shaped.startScalar_eq, blocks_output g walked]

end Shaped

/-- A working state of the digest `d` and the curve `c` that stands for a number and moves as the
standard has it. -/
structure WalksNumbers (g : DualEcDrbg) (d : Digest) (c : Curve) : Prop where
  digest : g.digest = d
  curve : g.curve = c
  /-- There is nothing in the state but its number, which has the bits of a seed. -/
  stands : g.s = c.written g.s.toNat
  below : g.s.toNat < 2 ^ c.seedBits
  reseed (entropy additional : Bytes) :
    (g.reseed entropy additional).s.toNat =
      d.derived c.seedBits (padded c g.s.toNat ++ entropy ++ additional)
  /-- Additional input is mixed into the first scalar, and makes no difference beyond it. -/
  mixed (length : ℕ) (additional : Bytes) :
    match { g with s := g.startScalar additional }.generate length [] with
    | (output, .ok (), next) => g.generate length additional = (output, .ok (), next)
    | (output, .error fault, _) => g.generate length additional = (output, .error fault, g)
  served {length : ℕ} {additional output : Bytes} {s : ℕ}
    (ran : walkOut d c g.s.toNat length additional = .ok (output, s)) :
    ∃ next, g.generate length additional = (output, .ok (), next) ∧ next.s.toNat = s
  /-- A fault is handed on with the state as it was, whichever point operation has raised it. -/
  faulted {length : ℕ} {additional : Bytes} {fault : Fault}
    (ran : walkOut d c g.s.toNat length additional = .error fault) :
    (g.generate length additional).2 = (.error fault, g)
  /-- A mechanism in this state replies with the fault and stays as it is. -/
  unchanged {length : ℕ} {additional : Bytes} {fault : Fault}
    (ran : walkOut d c g.s.toNat length additional = .error fault) {σ : Type} {m : Seeded σ}
    (core : m.core = .dualEc g)
    (within : m.counter + m.core.algorithm.requestCost length ≤ m.interval) :
    ∃ written, m.produce length additional =
      ({ written, result := .error (.failed (.faulted fault)) }, m)

/-- Dual_EC_DRBG is seeded, reseeded and asked for output as the standard has it on numbers. -/
theorem walks_on_numbers (d : Digest) (c : Curve) :
    (∀ entropy nonce personalization : Bytes,
      (instantiate d c entropy nonce personalization).s.toNat =
        d.derived c.seedBits (entropy ++ nonce ++ personalization)) ∧
    ∀ g : DualEcDrbg, Core.Reachable (.dualEc d c) (.dualEc g) → g.WalksNumbers d c := by
  constructor
  · intro entropy nonce personalization
    rw [instantiate, derive, Digest.toNat_hashDf]
    simp
  · intro g reached
    have shaped : g.Shaped := reached.shaped
    obtain ⟨rfl, rfl⟩ : g.digest = d ∧ g.curve = c := Algorithm.dualEc.inj reached.algorithm
    have faulted {length : ℕ} {additional : Bytes} {fault : Fault}
        (ran : walkOut g.digest g.curve g.s.toNat length additional = .error fault) :
        (g.generate length additional).2 = (.error fault, g) := by
      apply generate_of_fault
      rw [shaped.nextScalar_eq, ran]
      rfl
    exact
      { digest := rfl
        curve := rfl
        stands := shaped.written_s.symm
        below := shaped.lt
        reseed := shaped.toNat_reseed
        mixed := by
          intro length additional
          exact generate_startScalar g length additional
        served := by
          intro length additional output s ran
          obtain ⟨put, below⟩ := shaped.generate_output ran
          refine ⟨{ g with s := g.curve.written s }, Prod.ext put ?_, Curve.toNat_written below⟩
          apply generate_of_moved
          rw [shaped.nextScalar_eq, ran]
          rfl
        faulted := faulted
        unchanged := by
          intro length additional fault ran σ m core within
          have raised : m.core.generate length additional (m.counter + 1) =
              ((g.generate length additional).1, .error fault, m.core) := by
            simp only [core, Core.generate, faulted ran]
          exact ⟨_, (Seeded.Produces.faulted within raised).eq⟩ }

/-- P-256 walks on from the scalar that it is seeded with, and ends within its second block. -/
theorem walks_on_numbers_from_seed :
    let g := instantiate .sha256 .p256 (List.replicate 32 9) [1, 2] []
    Core.Reachable (.dualEc .sha256 .p256) (.dualEc g) ∧ g.WalksNumbers .sha256 .p256 ∧
      ∃ output s, walkOut .sha256 .p256 g.s.toNat 40 [] = .ok (output, s) := by
  intro g
  have reached : Core.Reachable (.dualEc .sha256 .p256) (.dualEc g) := .instantiated ..
  have served : (walkOut .sha256 .p256 g.s.toNat 40 []).toBool = true := by decide +kernel
  refine ⟨reached, (walks_on_numbers .sha256 .p256).2 g reached, ?_⟩
  cases ran : walkOut .sha256 .p256 g.s.toNat 40 [] with
  | error fault =>
    rw [ran] at served
    cases served
  | ok pair => exact ⟨pair.1, pair.2, rfl⟩

end DualEcDrbg

end RandomBits
