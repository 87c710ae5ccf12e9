import Mathlib
import RandomBits.Proofs.Chunks
import RandomBits.Core.Basic

/-! # What every core keeps, and how a core faults

A core never leaves its algorithm (`Core.algorithm_reseed`, `Core.algorithm_of_generate`). It faults
exactly where Dual_EC_DRBG comes to a scalar that it cannot go on from, and a fault leaves the state as it
was, in whatever block it comes up (`Core.stops_iff`). What a request costs fits the limit that its
algorithm sets (`Algorithm.requestCost_le`).
-/

namespace RandomBits

section

variable {ε α β : Type} {first : Except ε α} {next : α → Except ε β} {f : α → β} {b : β}

/-- What stands behind a result is reached exactly if there is one. -/
theorem bind_eq_ok_iff : (first >>= next) = .ok b ↔ ∃ a, first = .ok a ∧ next a = .ok b := by
  cases first <;> simp [bind, Except.bind]

theorem map_eq_ok_iff : first.map f = .ok b ↔ ∃ a, first = .ok a ∧ f a = b := by
  cases first <;> simp [Except.map]

end

/-- What every step keeps, a run of steps keeps. -/
theorem emit_preserves {σ α : Type} (observe : σ → α) {step : σ → Bytes × σ}
    (frame : ∀ s, observe (step s).2 = observe s) (count : ℕ) (s : σ) :
    observe (emit step count s).2 = observe s := by
  induction count generalizing s with
  | zero => rfl
  | succ count ih => exact (ih (step s).2).trans (frame s)

namespace Curve

theorem outputLength_pos (c : Curve) : 0 < c.outputLength := by cases c <;> decide

private theorem fault_of_xOfMultiple {c : Curve} {base : Coordinates} {k : Bytes} {fault : Fault}
    (failed : c.xOfMultiple base k = .error fault) :
    fault = .scalarOutOfRange ∨ fault = .pointAtInfinity := by
  unfold xOfMultiple at failed
  dsimp only at failed
  split at failed
  next =>
    cases failed
    exact .inl rfl
  next =>
    split at failed
    · cases failed
      exact .inr rfl
    · cases failed

/-- The faults of point operations, none of which a generator or its owner raises. -/
theorem kind_of_xOfP {c : Curve} {k : Bytes} {fault : Fault} (failed : c.xOfP k = .error fault) :
    fault = .pointNotOnCurve ∨ fault = .scalarOutOfRange ∨ fault = .pointAtInfinity :=
  .inr (fault_of_xOfMultiple failed)

theorem kind_of_xOfQ {c : Curve} {k : Bytes} {fault : Fault} (failed : c.xOfQ k = .error fault) :
    fault = .pointNotOnCurve ∨ fault = .scalarOutOfRange ∨ fault = .pointAtInfinity := by
  unfold xOfQ at failed
  split at failed
  · exact .inr (fault_of_xOfMultiple failed)
  · cases failed
    exact .inl rfl

end Curve

namespace HmacDrbg

@[simp] theorem digest_update (s : HmacDrbg) (data : List Bytes) :
    (s.update data).digest = s.digest := by
  unfold update
  split <;> rfl

private theorem digest_generate (s : HmacDrbg) (length : ℕ) (additional : Bytes) :
    (s.generate length additional).2.digest = s.digest := by
  simp only [generate, emitBytes, digest_update]
  rw [emit_preserves HmacDrbg.digest fun _ => rfl]
  split <;> simp

end HmacDrbg

private theorem CtrDrbg.size_generate (s : CtrDrbg) (length : ℕ) (additional : Bytes) :
    (s.generate length additional).2.size = s.size := by
  simp only [generate, update]
  split <;> rfl

namespace DualEcDrbg

/-- What blocks put out and lead to does not depend on the state, and neither they nor a fault among them
touch it. -/
theorem blocks_frame (c : Curve) (count : ℕ) (g h : DualEcDrbg) (t : Bytes) :
    blocks c count g t = ((blocks c count h t).1, (blocks c count h t).2.1, g) := by
  induction count generalizing t with
  | zero => rfl
  | succ count ih =>
    rw [blocks, blocks]
    cases block c t with
    | error fault => rfl
    | ok begun => simp only [ih begun.2]

theorem blocks_state (c : Curve) (count : ℕ) (g : DualEcDrbg) (t : Bytes) :
    (blocks c count g t).2.2 = g :=
  congrArg (fun ended => ended.2.2) (blocks_frame c count g g t)

/-- The scalar after the last block of a request, unless a block faults. -/
def lastScalar (g : DualEcDrbg) (length : ℕ) (additional : Bytes) : Except Fault Bytes :=
  (blocks g.curve (blocksFor length g.curve.outputLength) g (g.startScalar additional)).2.1

/-- The scalar that a request leads to: one more step beyond its last block. -/
def nextScalar (g : DualEcDrbg) (length : ℕ) (additional : Bytes) : Except Fault Bytes :=
  (g.lastScalar length additional).bind g.curve.xOfP

section

variable {g next : DualEcDrbg} {length : ℕ} {additional s : Bytes} {fault : Fault}

theorem generate_fst (g : DualEcDrbg) (length : ℕ) (additional : Bytes) :
    (g.generate length additional).1 =
      (blocks g.curve (blocksFor length g.curve.outputLength) g (g.startScalar additional)).1.take
        length := by
  unfold generate
  dsimp only
  split <;> rfl

/-- A request moves on to the next scalar. One that faults gives back the state that it was given, whatever
it has put out before. -/
private theorem generate_snd (g : DualEcDrbg) (length : ℕ) (additional : Bytes) :
    (g.generate length additional).2 = match g.nextScalar length additional with
      | .error fault => (.error fault, g)
      | .ok s => (.ok (), { g with s }) := by
  have state := blocks_state g.curve (blocksFor length g.curve.outputLength) g (g.startScalar additional)
  unfold nextScalar lastScalar generate
  dsimp only
  rw [state]
  split
  next failed => rw [failed]
  next moved => rw [moved]

theorem generate_of_moved (moved : g.nextScalar length additional = .ok s) :
    (g.generate length additional).2 = (.ok (), { g with s }) := by
  rw [generate_snd, moved]

theorem generate_of_fault (failed : g.nextScalar length additional = .error fault) :
    (g.generate length additional).2 = (.error fault, g) := by
  rw [generate_snd, failed]

theorem moved_of_generate (ran : (g.generate length additional).2 = (.ok (), next)) :
    ∃ s, g.nextScalar length additional = .ok s ∧ next = { g with s } := by
  cases outcome : g.nextScalar length additional with
  | ok s =>
    rw [generate_of_moved outcome] at ran
    exact ⟨s, rfl, (Prod.mk.inj ran).2.symm⟩
  | error fault =>
    rw [generate_of_fault outcome] at ran
    cases (Prod.mk.inj ran).1

private theorem fault_of_generate (ran : (g.generate length additional).2 = (.error fault, next)) :
    g.nextScalar length additional = .error fault ∧ next = g := by
  cases outcome : g.nextScalar length additional with
  | ok s =>
    rw [generate_of_moved outcome] at ran
    cases (Prod.mk.inj ran).1
  | error cause =>
    rw [generate_of_fault outcome] at ran
    obtain ⟨same, rfl⟩ := Prod.mk.inj ran
    exact ⟨congrArg Except.error (Except.error.inj same), rfl⟩

end

/-- Point operations go from the scalar `t` through `count` blocks and a last step until one of them raises
the fault. The blocks before it have put out `front`. -/
inductive Stumbles (c : Curve) (fault : Fault) : (count : ℕ) → (t front : Bytes) → Prop
  | step {count : ℕ} {t : Bytes} (raised : c.xOfP t = .error fault) : Stumbles c fault count t []
  | output {count : ℕ} {t s : Bytes} (moved : c.xOfP t = .ok s) (raised : c.xOfQ s = .error fault) :
      Stumbles c fault (count + 1) t []
  | later {count : ℕ} {t s r front : Bytes} (moved : c.xOfP t = .ok s) (found : c.xOfQ s = .ok r)
      (rest : Stumbles c fault count s front) :
      Stumbles c fault (count + 1) t (r.drop (c.fieldLength - c.outputLength) ++ front)

section

variable {c : Curve} {fault : Fault} {count : ℕ} {t front : Bytes}

theorem Stumbles.kind (stumbles : Stumbles c fault count t front) :
    fault = .pointNotOnCurve ∨ fault = .scalarOutOfRange ∨ fault = .pointAtInfinity := by
  induction stumbles with
  | step raised => exact Curve.kind_of_xOfP raised
  | output _ raised => exact Curve.kind_of_xOfQ raised
  | later _ _ _ ih => exact ih

theorem Stumbles.blocks (stumbles : Stumbles c fault count t front) (g : DualEcDrbg) :
    (blocks c count g t).1 = front ∧ (blocks c count g t).2.1.bind c.xOfP = .error fault := by
  induction stumbles with
  | @step count t raised =>
    cases count with
    | zero => exact ⟨rfl, raised⟩
    | succ count => simp [DualEcDrbg.blocks, block, raised, bind, Except.bind]
  | output moved raised => simp [DualEcDrbg.blocks, block, moved, raised, bind, Except.bind]
  | later moved found _ ih =>
    obtain ⟨rfl, raised⟩ := ih
    rw [DualEcDrbg.blocks, block]
    simp only [moved, found, bind, Except.bind, pure, Except.pure]
    exact ⟨trivial, raised⟩

/-- Blocks and the step behind them fail exactly if one of their point operations does. -/
theorem stumbles_iff (g : DualEcDrbg) :
    Stumbles c fault count t front ↔
      (blocks c count g t).1 = front ∧ (blocks c count g t).2.1.bind c.xOfP = .error fault := by
  refine ⟨fun stumbles => stumbles.blocks g, ?_⟩
  induction count generalizing t front with
  | zero =>
    rintro ⟨rfl, raised⟩
    exact .step raised
  | succ count ih =>
    rw [blocks, block]
    cases moved : c.xOfP t with
    | error cause =>
      rintro ⟨rfl, raised⟩
      exact .step (moved.trans raised)
    | ok s =>
      cases found : c.xOfQ s with
      | error cause =>
        simp only [bind, Except.bind, found]
        rintro ⟨rfl, raised⟩
        exact .output moved (found.trans raised)
      | ok r =>
        simp only [bind, Except.bind, found, pure, Except.pure]
        rintro ⟨rfl, raised⟩
        exact .later moved found (ih ⟨rfl, raised⟩)

end

/-- A request for `length` bytes comes to a scalar for which a point operation raises the fault, and has
written the output of the blocks before it. -/
def Stops (g : DualEcDrbg) (length : ℕ) (additional written : Bytes) (fault : Fault) : Prop :=
  ∃ front, Stumbles g.curve fault (blocksFor length g.curve.outputLength) (g.startScalar additional)
    front ∧ written = front.take length

/-- A request faults exactly where its point operations do, and with the state that it was given. -/
theorem stops_iff {g next : DualEcDrbg} {length : ℕ} {additional written : Bytes} {fault : Fault} :
    g.generate length additional = (written, .error fault, next) ↔
      g.Stops length additional written fault ∧ next = g := by
  constructor
  · intro ran
    obtain ⟨failed, rfl⟩ := fault_of_generate (congrArg Prod.snd ran)
    have put := (congrArg Prod.fst ran).symm.trans (generate_fst next length additional)
    exact ⟨⟨_, (stumbles_iff next).mpr ⟨rfl, failed⟩, put⟩, rfl⟩
  · rintro ⟨⟨front, stumbles, rfl⟩, rfl⟩
    obtain ⟨put, failed⟩ := stumbles.blocks next
    refine Prod.ext ?_ (generate_of_fault failed)
    rw [generate_fst, put]

end DualEcDrbg

namespace Core

@[simp] theorem algorithm_instantiate (a : Algorithm) (entropy nonce personalization : Bytes) :
    (instantiate a entropy nonce personalization).algorithm = a := by
  cases a with
  | hmac d => exact congrArg Algorithm.hmac (HmacDrbg.digest_update ..)
  | hash _ | ctr _ | dualEc _ _ => rfl

@[simp] theorem algorithm_reseed (c : Core) (entropy additional : Bytes) :
    (c.reseed entropy additional).algorithm = c.algorithm := by
  cases c with
  | hmac s => exact congrArg Algorithm.hmac (HmacDrbg.digest_update ..)
  | hash _ | ctr _ | dualEc _ => rfl

/-- A request to a core comes to a point operation that raises the fault, with some output written before.
Only Dual_EC_DRBG has any. -/
def Stops (length : ℕ) (additional written : Bytes) (fault : Fault) : Core → Prop
  | dualEc g => g.Stops length additional written fault
  | _ => False

/-- A core faults exactly where its point operations do. Whatever was put out before, a fault leaves the
core as it was. -/
theorem stops_iff {c next : Core} {length counter : ℕ} {additional written : Bytes} {fault : Fault} :
    c.generate length additional counter = (written, .error fault, next) ↔
      c.Stops length additional written fault ∧ next = c := by
  cases c with
  | hash _ | hmac _ | ctr _ =>
    constructor
    · intro ran
      cases ran
    · rintro ⟨⟨⟩, -⟩
  | dualEc g =>
    rcases asked : g.generate length additional with ⟨output, result, after⟩
    simp only [generate, asked, Prod.mk.injEq]
    constructor
    · rintro ⟨rfl, rfl, rfl⟩
      obtain ⟨stops, rfl⟩ := DualEcDrbg.stops_iff.mp asked
      exact ⟨stops, rfl⟩
    · rintro ⟨stops, rfl⟩
      obtain ⟨rfl, rfl, rfl⟩ := asked.symm.trans (DualEcDrbg.stops_iff.mpr ⟨stops, rfl⟩)
      exact ⟨rfl, rfl, rfl⟩

theorem eq_of_fault {c next : Core} {length counter : ℕ} {additional written : Bytes} {fault : Fault}
    (ran : c.generate length additional counter = (written, .error fault, next)) : next = c :=
  (stops_iff.mp ran).2

/-- Output moves a core on within its algorithm. -/
theorem algorithm_of_generate {c next : Core} {length counter : ℕ} {additional written : Bytes}
    {result : Except Fault Unit} (ran : c.generate length additional counter = (written, result, next)) :
    next.algorithm = c.algorithm := by
  cases c with
  | hash s =>
    cases ran
    rfl
  | hmac s =>
    cases ran
    exact congrArg Algorithm.hmac (HmacDrbg.digest_generate ..)
  | ctr s =>
    cases ran
    exact congrArg Algorithm.ctr (CtrDrbg.size_generate ..)
  | dualEc g =>
    cases result with
    | error fault => rw [eq_of_fault ran]
    | ok u =>
      rcases asked : g.generate length additional with ⟨output, result, after⟩
      simp only [generate, asked, Prod.mk.injEq] at ran
      obtain ⟨-, rfl, rfl⟩ := ran
      obtain ⟨s, -, rfl⟩ := DualEcDrbg.moved_of_generate (congrArg Prod.snd asked)
      rfl

/-- A request to a core comes to a point operation that raises the fault. -/
def Raises (length : ℕ) (additional : Bytes) (fault : Fault) (c : Core) : Prop :=
  ∃ written, c.Stops length additional written fault

theorem Raises.kind {c : Core} {length : ℕ} {additional : Bytes} {fault : Fault}
    (raised : c.Raises length additional fault) :
    fault = .pointNotOnCurve ∨ fault = .scalarOutOfRange ∨ fault = .pointAtInfinity := by
  obtain ⟨written, stops⟩ := raised
  cases c with
  | dualEc g =>
    obtain ⟨front, stumbles, -⟩ := stops
    exact stumbles.kind
  | hash _ | hmac _ | ctr _ => exact stops.elim

theorem Raises.exists_dualEc {c : Core} {length : ℕ} {additional : Bytes} {fault : Fault}
    (raised : c.Raises length additional fault) : ∃ g, c = dualEc g := by
  obtain ⟨written, stops⟩ := raised
  cases c with
  | dualEc g => exact ⟨g, rfl⟩
  | hash _ | hmac _ | ctr _ => exact stops.elim

theorem raises_of_generate {c next : Core} {length counter : ℕ} {additional written : Bytes}
    {fault : Fault} (ran : c.generate length additional counter = (written, .error fault, next)) :
    c.Raises length additional fault :=
  ⟨written, (stops_iff.mp ran).1⟩

end Core

namespace Algorithm

/-- A request within the limit costs no more than a positive interval. -/
theorem requestCost_le {a : Algorithm} {interval length : ℕ} (positive : 0 < interval)
    (fits : length ≤ a.maxRequest interval) : a.requestCost length ≤ interval := by
  cases a with
  | dualEc d c =>
    refine (blocksFor_le_iff (c.outputLength_pos)).mpr (fits.trans ?_)
    exact Nat.mul_le_mul_right _ (min_le_right ..)
  | hash _ | hmac _ | ctr _ => exact positive

/-- Under a positive interval a request may ask for at least one byte. -/
theorem maxRequest_pos {a : Algorithm} {interval : ℕ} (positive : 0 < interval) :
    0 < a.maxRequest interval := by
  cases a with
  | dualEc d c =>
    refine Nat.mul_pos (lt_min ?_ positive) (c.outputLength_pos)
    cases c <;> decide
  | hash _ | hmac _ | ctr _ =>
    change 0 < maxRequestBytes
    decide

end Algorithm

end RandomBits
