import Mathlib
import RandomBits.Proofs.Settling

/-! # Requests that unavailable entropy cuts short

A request that succeeds over the adequate fetches of a source is cut short over the source itself
only by unavailable entropy, and only between two chunks. What it leaves unfilled is filled by later
requests as if there had been no failure (`Generator.interruptions_lose_nothing`).
-/

namespace RandomBits

namespace Generator

section

variable {μ : Type} [Mechanism μ]

/-- The number of chunks that a request serves, up to the first that fails. -/
def chunksServed (additional : Bytes) : List Bytes → Generator μ → ℕ
  | [], _ => 0
  | chunk :: rest, g =>
    match (g.fillChunk additional chunk).result with
    | .error _ => 0
    | .ok () => chunksServed additional rest (g.fillChunk additional chunk).generator + 1

end

/-- A request for `b` in chunks of a size was cut short by unavailable entropy. It has written the
first of the bytes that it writes in full, and on the settled source the rest leads to where the
request leads in full. -/
structure Suspended (g : Generator (Within (Seeded Fetches) Unit)) (additional b : Bytes)
    (size written : ℕ) (o full : Outcome (Within (Seeded Fetches) Unit)) : Prop where
  failed : ∃ cause, o.result = .error (.entropyUnavailable cause)
  within : written < b.length
  buffer : o.buffer = full.buffer.take written ++ b.drop written
  fewer : o.generator.shortfalls < g.shortfalls
  faulted : o.generator.faulted = g.faulted
  properties : o.generator.mechanism.value.properties = g.mechanism.value.properties
  resumes : ∃ events,
    fillChunks additional (Bytes.chunks size (b.drop written)) o.generator.settled =
      ⟨full.buffer.drop written, full.result, events, full.generator⟩

variable {g : Generator (Within (Seeded Fetches) Unit)} {additional : Bytes}

/-- A first chunk that is cut short suspends the request before it has written anything. -/
theorem Interrupted.suspended {size : ℕ} (positive : 0 < size) {b : Bytes} (nonempty : b ≠ [])
    (interrupted : Interrupted g (b.take size) (g.fillChunk additional (b.take size))) :
    Suspended g additional b size 0 (fillChunks additional (Bytes.chunks size b) g)
      (fillChunks additional (Bytes.chunks size b) g.settled) := by
  obtain ⟨cause, failed⟩ := interrupted.failed
  have same := interrupted.settled
  rw [Bytes.chunks_of_ne_nil positive nonempty, fillChunks_cons_of_error failed]
  exact
    { failed := ⟨cause, failed⟩
      within := List.length_pos_iff.mpr nonempty
      buffer := by simp [interrupted.kept, Bytes.flatten_chunks positive]
      fewer := interrupted.fewer
      faulted := congrArg (fun g => g.faulted) same
      properties := congrArg (fun g => g.mechanism.value.properties) same
      resumes := by
        rw [List.drop_zero, List.drop_zero, Bytes.chunks_of_ne_nil positive nonempty, same]
        exact ⟨_, rfl⟩ }

/-- A first chunk that is served is written before what a suspension of the rest has written. -/
theorem Suspended.cons {size written : ℕ} (positive : 0 < size) {b : Bytes} (nonempty : b ≠ [])
    {head : Outcome (Within (Seeded Fetches) Unit)}
    (ran : g.fillChunk additional (b.take size) = head) (success : head.result = .ok ())
    (same : g.settled.fillChunk additional (b.take size) = head.settled)
    (later : Suspended head.generator additional (b.drop size) size written
      (fillChunks additional (Bytes.chunks size (b.drop size)) head.generator)
      (fillChunks additional (Bytes.chunks size (b.drop size)) head.generator.settled)) :
    Suspended g additional b size (written + size) (fillChunks additional (Bytes.chunks size b) g)
      (fillChunks additional (Bytes.chunks size b) g.settled) := by
  obtain ⟨calls, attempted⟩ := g.attempts additional (b.take size)
  rw [ran] at attempted
  have served : (g.fillChunk additional (b.take size)).result = .ok () := ran ▸ success
  have first : (g.settled.fillChunk additional (b.take size)).result = .ok () := same ▸ success
  have within : written < b.length - size := List.length_drop ▸ later.within
  have longer : size ≤ b.length := by omega
  have filled : head.buffer.length = size := by
    rw [attempted.length_buffer, List.length_take, min_eq_left longer]
  have sum : written + size = head.buffer.length + written := by omega
  have split : b.drop (written + size) = (b.drop size).drop written := by
    rw [List.drop_drop, Nat.add_comm]
  rw [Bytes.chunks_of_ne_nil positive nonempty, fillChunks_cons_of_ok served,
    fillChunks_cons_of_ok first, same, ran]
  exact
    { failed := later.failed
      within := by omega
      buffer := by
        dsimp only [Outcome.settled]
        rw [later.buffer, split, sum, List.take_length_add_append, List.append_assoc]
      fewer := later.fewer.trans_le attempted.follows.shortfalls_le
      faulted := later.faulted.trans (attempted.faulted_of_ok success)
      properties := later.properties.trans attempted.follows.properties
      resumes := by
        dsimp only [Outcome.settled]
        rw [split, sum, List.drop_length_add_append]
        exact later.resumes }

/-- A request that succeeds over the settled source does the same over the source, or unavailable
entropy suspends it between two chunks. -/
theorem fillChunks_settled {size : ℕ} (positive : 0 < size) (b : Bytes)
    (success : (fillChunks additional (Bytes.chunks size b) g.settled).result = .ok ()) :
    (∃ events, fillChunks additional (Bytes.chunks size b) g.settled =
        { (fillChunks additional (Bytes.chunks size b) g).settled with events }) ∨
      Suspended g additional b size (chunksServed additional (Bytes.chunks size b) g * size)
        (fillChunks additional (Bytes.chunks size b) g)
        (fillChunks additional (Bytes.chunks size b) g.settled) := by
  induction b using Bytes.chunk_induction positive generalizing g with
  | nil =>
    rw [Bytes.chunks_nil]
    exact .inl ⟨[], rfl⟩
  | step b nonempty ih =>
    have cut := Bytes.chunks_of_ne_nil positive nonempty
    rw [cut] at success
    have first := fillChunk_ok_of_fillChunks success
    obtain same | interrupted := fillChunk_settled first
    · have served : (g.fillChunk additional (b.take size)).result = .ok () := by
        rw [same] at first
        exact first
      rw [fillChunks_cons_of_ok first, same] at success
      obtain ⟨events, rest⟩ | later := ih success
      · left
        rw [cut, fillChunks_cons_of_ok first, fillChunks_cons_of_ok served, same]
        dsimp only [Outcome.settled] at rest ⊢
        rw [rest]
        exact ⟨_, rfl⟩
      · have count : chunksServed additional (Bytes.chunks size b) g =
            chunksServed additional (Bytes.chunks size (b.drop size))
              (g.fillChunk additional (b.take size)).generator + 1 := by
          simp only [cut, chunksServed, served]
        rw [count, Nat.succ_mul]
        exact .inr (later.cons positive nonempty rfl served same)
    · obtain ⟨cause, failed⟩ := interrupted.failed
      have none : chunksServed additional (Bytes.chunks size b) g = 0 := by
        simp only [cut, chunksServed, failed]
      rw [none, Nat.zero_mul]
      exact .inr (interrupted.suspended positive nonempty)

/-- A mechanism that serves a first chunk serves requests for bytes. -/
private theorem maxRequest_pos_of_ok {size : ℕ} (positive : 0 < size) {b : Bytes} (nonempty : b ≠ [])
    (success : (fillChunks additional (Bytes.chunks size b) g).result = .ok ()) :
    0 < Mechanism.maxRequest g.mechanism := by
  rw [Bytes.chunks_of_ne_nil positive nonempty] at success
  have first := fillChunk_ok_of_fillChunks success
  obtain ⟨calls, attempted⟩ := g.attempts additional (b.take size)
  have length := List.length_pos_iff.mpr nonempty
  have fits : (b.take size).length ≤ Mechanism.maxRequest g.mechanism := attempted.fits_of_ok first
  rw [List.length_take] at fits
  omega

/-- Bytes that are served are cut into requests of the largest size. -/
private theorem chunkLength_of_ok {buffer : Bytes} (nonempty : buffer ≠ [])
    (success : (g.fill buffer additional).result = .ok ()) :
    0 < Mechanism.maxRequest g.mechanism ∧ g.chunkLength = Mechanism.maxRequest g.mechanism := by
  rw [fill_of_usable (usable_of_fill success)] at success
  have positive := maxRequest_pos_of_ok (lt_max_of_lt_right one_pos) nonempty success
  exact ⟨positive, max_eq_left positive⟩

/-- A request that succeeds over the settled source does the same over the source, or it is
suspended between two of the largest requests. -/
theorem fill_settled {buffer : Bytes}
    (success : (g.settled.fill buffer additional).result = .ok ()) :
    (∃ events, g.settled.fill buffer additional =
        { (g.fill buffer additional).settled with events }) ∨
      Suspended g additional buffer (Mechanism.maxRequest g.mechanism)
        (chunksServed additional (Bytes.chunks (Mechanism.maxRequest g.mechanism) buffer) g *
          Mechanism.maxRequest g.mechanism)
        (g.fill buffer additional) (g.settled.fill buffer additional) := by
  have usable : g.faulted = false := usable_of_fill (g := g.settled) success
  have full : g.settled.fill buffer additional =
      fillChunks additional (Bytes.chunks g.chunkLength buffer) g.settled :=
    fill_of_usable (g := g.settled) usable buffer additional
  rw [fill_of_usable usable]
  by_cases empty : buffer = []
  · rw [full, empty, Bytes.chunks_nil]
    exact .inl ⟨[], rfl⟩
  · obtain ⟨positive, length⟩ : 0 < Mechanism.maxRequest g.mechanism ∧
        g.chunkLength = Mechanism.maxRequest g.mechanism :=
      chunkLength_of_ok (g := g.settled) empty success
    rw [full, length] at success
    rw [full, length]
    exact fillChunks_settled positive buffer success

/-- Requests with the same additional input, each for what the one before has left of a buffer,
complete `output`. All of them but the last report unavailable entropy. Such a request has written
the output up to the chunk that failed, in chunks of the largest request, it has not touched the
rest of the buffer, and it has not disabled the generator. Their number comes after the output. -/
inductive Completes (additional : Bytes) :
    Generator (Within (Seeded Fetches) Unit) → Bytes → Bytes → ℕ →
      Generator (Within (Seeded Fetches) Unit) → Prop
  | done {g : Generator (Within (Seeded Fetches) Unit)} {buffer : Bytes}
      (success : (g.fill buffer additional).result = .ok ()) :
      Completes additional g buffer (g.fill buffer additional).buffer 0
        (g.fill buffer additional).generator
  | resumed {g last : Generator (Within (Seeded Fetches) Unit)} {buffer output : Bytes}
      {written failures : ℕ} {cause : EntropyFailure}
      (failed : (g.fill buffer additional).result = .error (.entropyUnavailable cause))
      (served : written =
        chunksServed additional (Bytes.chunks (Mechanism.maxRequest g.mechanism) buffer) g *
          Mechanism.maxRequest g.mechanism)
      (within : written < buffer.length)
      (partly : (g.fill buffer additional).buffer = output.take written ++ buffer.drop written)
      (usable : (g.fill buffer additional).generator.faulted = false)
      (later : Completes additional (g.fill buffer additional).generator (buffer.drop written)
        (output.drop written) failures last) :
      Completes additional g buffer output (failures + 1) last

/-- Over the settled source, what a suspended request has left leads to where it leads in full. -/
theorem Suspended.fill {buffer : Bytes} {written : ℕ}
    (suspended : Suspended g additional buffer (Mechanism.maxRequest g.mechanism) written
      (g.fill buffer additional) (g.settled.fill buffer additional))
    (success : (g.settled.fill buffer additional).result = .ok ()) :
    ∃ events, (g.fill buffer additional).generator.settled.fill (buffer.drop written) additional =
      ⟨(g.settled.fill buffer additional).buffer.drop written, .ok (), events,
        (g.settled.fill buffer additional).generator⟩ := by
  have nonempty : buffer ≠ [] := by
    rintro rfl
    exact absurd suspended.within (Nat.not_lt_zero _)
  have usable : (g.fill buffer additional).generator.faulted = false :=
    suspended.faulted.trans (usable_of_fill (g := g.settled) success)
  have length : (g.fill buffer additional).generator.settled.chunkLength =
      Mechanism.maxRequest g.mechanism := by
    have same := congrArg Instantiation.maxRequest suspended.properties
    have before := (chunkLength_of_ok (g := g.settled) nonempty success).2
    exact (congrArg (max · 1) same).trans before
  obtain ⟨events, resumes⟩ := suspended.resumes
  refine ⟨events, ?_⟩
  rw [← success, ← resumes, ← length]
  exact fill_of_usable (g := (g.fill buffer additional).generator.settled) usable _ additional

/-- Unavailable entropy loses nothing and repeats nothing. Where a request succeeds over the settled
source, requests for what is left complete the same output after at most as many failures as there
are failing fetches, and they leave the generator with the same state and the same fetches to come,
those that fail apart. -/
theorem interruptions_lose_nothing {buffer : Bytes}
    (success : (g.settled.fill buffer additional).result = .ok ()) :
    ∃ failures ≤ g.shortfalls, ∃ last,
      Completes additional g buffer (g.settled.fill buffer additional).buffer failures last ∧
        last.settled = (g.settled.fill buffer additional).generator := by
  induction count : g.shortfalls using Nat.strong_induction_on generalizing g buffer with
  | _ shortfalls ih =>
    obtain ⟨events, same⟩ | suspended := fill_settled success
    · rw [same] at success ⊢
      exact ⟨0, Nat.zero_le _, _, .done success, rfl⟩
    · obtain ⟨cause, failed⟩ := suspended.failed
      have usable : (g.fill buffer additional).generator.faulted = false :=
        suspended.faulted.trans (usable_of_fill (g := g.settled) success)
      have fewer := suspended.fewer
      obtain ⟨events, rest⟩ := suspended.fill success
      have resumed := congrArg Outcome.result rest
      obtain ⟨failures, few, last, later, settled⟩ := ih _ (count ▸ fewer) resumed rfl
      rw [rest] at later settled
      refine ⟨failures + 1, by omega, last, ?_, settled⟩
      exact .resumed failed rfl suspended.within suspended.buffer usable later

/-- A generator at the end of its interval meets a failing and a short fetch before it can go on. -/
theorem interruptions_lose_nothing_two_fetches :
    let m : Seeded Fetches :=
      { core := .instantiate (.hmac .sha256) (Bytes.zeros 32) [] []
        source := [.error .exhausted, .ok [7], .ok (Bytes.zeros 32), .error .exhausted]
        securityStrength := 256
        counter := 1
        interval := 1 }
    let g : Generator (Within (Seeded Fetches) Unit) :=
      { mechanism := ⟨m, ()⟩, auxiliary := false, predictionResistant := false }
    (g.settled.fill (Bytes.zeros 3) [1]).result = .ok () ∧ g.shortfalls = 3 ∧
      ∃ failures ≤ g.shortfalls, ∃ last,
        Completes [1] g (Bytes.zeros 3) (g.settled.fill (Bytes.zeros 3) [1]).buffer failures last ∧
          last.settled = (g.settled.fill (Bytes.zeros 3) [1]).generator := by
  intro m g
  have success : (g.settled.fill (Bytes.zeros 3) [1]).result = .ok () := by
    decide +kernel
  exact ⟨success, rfl, interruptions_lose_nothing success⟩

end Generator

end RandomBits
