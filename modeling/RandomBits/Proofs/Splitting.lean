import Mathlib
import RandomBits.Mechanism.Scripted
import RandomBits.Proofs.Attempts
import RandomBits.Proofs.Chunks
import RandomBits.Proofs.Seeding

/-! # Requests in parts

Calls on successive parts of a buffer are put together by `Outcome.andThen`. Under it a request is
the chain of its chunks, and chains may be cut anywhere (`Generator.fillChunks_append`). So nobody
can tell whether a request was made at once or in two parts at the boundary of a chunk
(`Generator.fill_append`).
-/

namespace RandomBits

namespace Outcome

variable {μ : Type}

/-- The outcome of a call on the front of a buffer that leaves the rest of it as it is. -/
def leaving (o : Outcome μ) (rest : Bytes) : Outcome μ := { o with buffer := o.buffer ++ rest }

def before (first second : Outcome μ) : Outcome μ :=
  { second with buffer := first.buffer ++ second.buffer, events := first.events ++ second.events }

/-- What comes of a call and of a second one on the rest of the buffer. The second is made only if
the first succeeds; otherwise the rest keeps its bytes. -/
def andThen (o : Outcome μ) (rest : Bytes) (next : Generator μ → Outcome μ) : Outcome μ :=
  match o.result with
  | .error _ => o.leaving rest
  | .ok () => o.before (next o.generator)

variable {o p : Outcome μ} {rest last : Bytes} {next final : Generator μ → Outcome μ}

theorem andThen_of_error {cause : Failure} (failure : o.result = .error cause) :
    o.andThen rest next = o.leaving rest := by
  simp only [andThen, failure]

theorem andThen_of_ok (success : o.result = .ok ()) :
    o.andThen rest next = o.before (next o.generator) := by
  simp only [andThen, success]

theorem andThen_done :
    (o.andThen [] fun g => { buffer := [], result := .ok (), events := [], generator := g }) = o := by
  cases first : o.result with
  | error cause =>
    rw [andThen_of_error first]
    simp only [leaving, List.append_nil]
  | ok u =>
    rw [andThen_of_ok first]
    simp only [before, List.append_nil, ← first]

private theorem before_leaving : (o.before p).leaving rest = o.before (p.leaving rest) := by
  simp only [before, leaving, List.append_assoc]

/-- What follows two calls in a row follows the second one. -/
private theorem before_andThen : (o.before p).andThen rest next = o.before (p.andThen rest next) := by
  cases second : p.result with
  | error cause =>
    have stopped : (o.before p).result = .error cause := second
    rw [andThen_of_error stopped, andThen_of_error second, before_leaving]
  | ok u =>
    have went : (o.before p).result = .ok () := second
    rw [andThen_of_ok went, andThen_of_ok second]
    simp only [before, List.append_assoc]

/-- Three calls in a row can be grouped either way. -/
private theorem andThen_assoc :
    (o.andThen rest next).andThen last final =
      o.andThen (rest ++ last) fun g => (next g).andThen last final := by
  cases first : o.result with
  | error cause =>
    have stopped : (o.leaving rest).result = .error cause := first
    rw [andThen_of_error first, andThen_of_error stopped, andThen_of_error first]
    simp only [leaving, List.append_assoc]
  | ok u => rw [andThen_of_ok first, before_andThen, andThen_of_ok first]

end Outcome

/-- No call changes the most bytes that one request may ask for. -/
structure KeepsLimit (μ : Type) [Mechanism μ] : Prop where
  generate (m : μ) (length : ℕ) (additional : Bytes) (predictionResistant : Bool) :
    Mechanism.maxRequest (Mechanism.generate m length additional predictionResistant).2 =
      Mechanism.maxRequest m
  reseed (m : μ) (additional : Bytes) :
    Mechanism.maxRequest (Mechanism.reseed m additional).2 = Mechanism.maxRequest m

section

variable {μ : Type} [Mechanism μ]

theorem KeepsLimit.accrues (keeps : KeepsLimit μ) :
    Generator.Accrues fun m next : μ => Mechanism.maxRequest next = Mechanism.maxRequest m where
  generate := keeps.generate
  reseed := keeps.reseed
  trans first second := second.trans first

theorem KeepsLimit.logged (keeps : KeepsLimit μ) : KeepsLimit (Logged μ) where
  generate m := keeps.generate m.mechanism
  reseed m := keeps.reseed m.mechanism

/-- A script does not change the limits of its mechanism. -/
theorem Scripted.keepsLimit : KeepsLimit Scripted where
  generate m length _ _ := by
    simp only [Mechanism.maxRequest, Mechanism.generate, Scripted.generate]
    split <;> rfl
  reseed _ _ := rfl

/-- None of the four mechanisms changes its limit, whatever it reseeds from. -/
theorem Seeded.keepsLimit {σ ω : Type} [SeedSource σ ω] : KeepsLimit (Within (Seeded σ) ω) where
  generate _ _ _ _ := congrArg Instantiation.maxRequest (serves rfl).properties
  reseed _ _ := congrArg Instantiation.maxRequest (reseeds rfl).properties

namespace Generator

variable {g : Generator μ} {additional chunk : Bytes} {chunks : List Bytes}
  {calls : List Exchange} {result : Except RequestError Unit} {o : Outcome μ}

/-- Requests leave the limit as it is, whatever comes of their chunks. -/
theorem Fills.maxRequest (keeps : KeepsLimit μ) (filled : Fills additional g chunks calls o) :
    Mechanism.maxRequest o.generator.mechanism = Mechanism.maxRequest g.mechanism := by
  induction filled with
  | nil g => rfl
  | stopped attempted _ =>
    have kept := attempted.accrues keeps.accrues
    exact kept
  | cons attempted _ _ ih => exact ih.trans (attempted.accrues keeps.accrues)

/-- Chunks that are all served leave the generator as usable as it was. -/
theorem Fills.faulted_of_ok (filled : Fills additional g chunks calls o)
    (success : o.result = .ok ()) : o.generator.faulted = g.faulted := by
  induction filled with
  | nil g => rfl
  | stopped _ failure => cases failure.symm.trans success
  | cons attempted first _ ih => exact (ih success).trans (attempted.faulted_of_ok first)

theorem fillChunks_cons (g : Generator μ) (additional chunk : Bytes) (rest : List Bytes) :
    fillChunks additional (chunk :: rest) g =
      (g.fillChunk additional chunk).andThen rest.flatten (fillChunks additional rest) := rfl

/-- Bytes that fit the mechanism are requested from it as they are. -/
theorem fill_of_fits {buffer : Bytes} (usable : g.faulted = false) (nonempty : buffer ≠ [])
    (fits : buffer.length ≤ g.chunkLength) :
    g.fill buffer additional = g.fillChunk additional buffer := by
  have positive : 0 < g.chunkLength := lt_max_of_lt_right one_pos
  rw [fill_of_usable usable, Bytes.chunks_eq_singleton positive nonempty fits, fillChunks_cons]
  exact Outcome.andThen_done

/-- A chain of chunks may be cut anywhere. -/
theorem fillChunks_append (g : Generator μ) (additional : Bytes) (first second : List Bytes) :
    fillChunks additional (first ++ second) g =
      (fillChunks additional first g).andThen second.flatten (fillChunks additional second) := by
  induction first generalizing g with
  | nil => rfl
  | cons chunk rest ih =>
    rw [List.cons_append, fillChunks_cons, fillChunks_cons, Outcome.andThen_assoc,
      List.flatten_append]
    congr 1
    funext g
    exact ih g

/-- Over a mechanism whose limit is constant, a request for `a ++ b` is a request for `a` and, only
if it succeeds, one for `b`, where `a` is made of whole chunks. The result, the buffer and the
events are the same, and so is the generator afterwards, down to the calls to its mechanism. -/
theorem fill_append (keeps : KeepsLimit μ) (g : Generator (Logged μ)) (a b additional : Bytes)
    (whole : g.chunkLength ∣ a.length) :
    g.fill (a ++ b) additional = (g.fill a additional).andThen b (·.fill b additional) := by
  cases faulted : g.faulted with
  | true =>
    simp only [fill, faulted, ↓reduceIte]
    rfl
  | false =>
    have positive : 0 < g.chunkLength := lt_max_of_lt_right one_pos
    rw [fill_of_usable faulted, fill_of_usable faulted, Bytes.chunks_append positive a b whole,
      fillChunks_append, Bytes.flatten_chunks positive]
    obtain ⟨calls, filled⟩ := fills additional (a.chunks g.chunkLength) g
    cases first : (fillChunks additional (a.chunks g.chunkLength) g).result with
    | error cause => rw [Outcome.andThen_of_error first, Outcome.andThen_of_error first]
    | ok u =>
      -- The second request cuts its part into chunks anew, which are as long as before.
      have usable := (filled.faulted_of_ok first).trans faulted
      have length := congrArg (max · 1) (filled.maxRequest keeps.logged)
      have same : (fillChunks additional (a.chunks g.chunkLength) g).generator.chunkLength =
          g.chunkLength := length
      rw [Outcome.andThen_of_ok first, Outcome.andThen_of_ok first, fill_of_usable usable, same]

/-- A script that asks for two reseeds, the second of which fails in the part behind the cut. -/
theorem fill_append_failing_reseed :
    let script : Scripted :=
      { maxRequest := 2
        requests := [.ok (), .error .reseedRequired, .ok (), .error .reseedRequired]
        reseeds := [.ok (), .error (.entropyUnavailable .exhausted)] }
    let g : Generator (Logged Scripted) :=
      { mechanism := { mechanism := script }, auxiliary := false, predictionResistant := true }
    let o := (g.fill [9, 9, 9, 9] [5]).andThen [8, 8, 8] (·.fill [8, 8, 8] [5])
    g.chunkLength ∣ 4 ∧ g.fill [9, 9, 9, 9, 8, 8, 8] [5] = o ∧ o.buffer = [1, 1, 2, 2, 8, 8, 8] ∧
      o.result = .error (.entropyUnavailable .exhausted) ∧
      o.generator.mechanism.exchanges.length = 6 := by
  intro script g o
  have whole : g.chunkLength ∣ 4 := by decide
  refine ⟨whole, fill_append Scripted.keepsLimit g [9, 9, 9, 9] [8, 8, 8] [5] whole, ?_⟩
  decide +kernel

end Generator

end

end RandomBits
