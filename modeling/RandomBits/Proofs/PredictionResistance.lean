import Mathlib
import RandomBits.Entropy.Playback
import RandomBits.Proofs.Building
import RandomBits.Proofs.Cores
import RandomBits.Proofs.Splitting

/-! # What prediction resistance amounts to

Two paths lead to a reseed: a mechanism reseeds by itself before a request with prediction
resistance, and a generator has it reseed on demand. `Generator.Twins` relates two generators over
the same mechanism, only one of which is prediction resistant. They stay twins, and nobody can tell
their output apart, if the other one is reseeded on demand before each chunk
(`Builder.resistant_fills_as_reseeded`).
-/

namespace RandomBits

namespace Seeded

variable {σ ω : Type} [SeedSource σ ω] {s next : Within (Seeded σ) ω} {length : ℕ}
  {additional : Bytes} {result : Except Failure Unit}

theorem Reseeds.maxRequest (reseeded : Reseeds s additional result next) :
    next.value.maxRequest = s.value.maxRequest :=
  congrArg Instantiation.maxRequest reseeded.properties

theorem Reseeds.interval (reseeded : Reseeds s additional result next) :
    next.value.interval = s.value.interval :=
  congrArg Instantiation.reseedInterval reseeded.properties

theorem Serves.interval {predictionResistant : Bool} {reply : Reply}
    (served : Serves s length additional predictionResistant reply next) :
    next.value.interval = s.value.interval :=
  congrArg Instantiation.reseedInterval served.properties

/-- A resistant request fails as its reseed does. -/
theorem Reseeds.generate_of_error {cause : Failure}
    (reseeded : Reseeds s additional (.error cause) next) (fits : length ≤ s.value.maxRequest) :
    Mechanism.generate s length additional true = (.refusal cause, next) :=
  (Serves.unseeded fits reseeded).eq

/-- A resistant request is its reseed and a request without additional input. -/
theorem Reseeds.generate_of_ok (reseeded : Reseeds s additional (.ok ()) next)
    (fits : length ≤ s.value.maxRequest) :
    Mechanism.generate s length additional true = Mechanism.generate next length [] false := by
  have still : length ≤ next.value.maxRequest := fits.trans_eq reseeded.maxRequest.symm
  have produced := next.value.produces length []
  have resistant := (Serves.renewed fits reseeded produced).eq
  have direct := (Serves.direct still (Nat.zero_le _) produced).eq
  exact resistant.trans direct.symm

/-- Directly after its own reseed no request requires another one. -/
theorem Serves.not_reseedRequired {reply : Reply}
    (served : Serves s length additional true reply next) (positive : 0 < s.value.interval)
    (fits : length ≤ s.value.maxRequest) : reply.result ≠ .error .reseedRequired := by
  intro required
  obtain ⟨-, ⟨direct, -⟩ | ⟨-, costly⟩⟩ := served.exhausted required
  · cases direct
  · exact absurd (Algorithm.requestCost_le positive fits) costly.not_ge

end Seeded

namespace Outcome

variable {μ : Type}

/-- A failure leaves the rest of a buffer as it is. -/
private theorem leaving_fail (g : Generator μ) (rest : Bytes) (cause : Failure) :
    (g.fail [] cause).leaving rest = g.fail rest cause := by
  cases cause <;> rfl

end Outcome

namespace Generator

section

variable {μ : Type} [Mechanism μ] [Randomness μ]

/-- Fills chunks without additional input, each after a reseed on demand that takes it, up to the
first failure. -/
def reseedFillChunks (additional : Bytes) : List Bytes → Generator μ → Outcome μ
  | [], g => { buffer := [], result := .ok (), events := [], generator := g }
  | chunk :: rest, g =>
    ((g.reseed additional).andThen chunk (·.fill chunk [])).andThen rest.flatten
      (reseedFillChunks additional rest)

/-- Fills a buffer by requests of the largest size, each after a reseed on demand. -/
def reseedFill (g : Generator μ) (buffer additional : Bytes) : Outcome μ :=
  reseedFillChunks additional (buffer.chunks (Mechanism.maxRequest g.mechanism)) g

end

variable {σ ω : Type}

/-- Two generators that differ in their prediction resistance only. The one that goes without has no
auxiliary randomness that a reseed on demand could mix in. -/
structure Twins (g h : Generator (Within (Seeded σ) ω)) : Prop where
  mechanism : h.mechanism = g.mechanism
  faulted : h.faulted = g.faulted
  resistant : g.predictionResistant = true
  direct : h.predictionResistant = false
  alone : h.auxiliary = false
  positive : 0 < g.mechanism.value.interval

/-- Two calls that write and report the same and leave twins. -/
structure Matches (o p : Outcome (Within (Seeded σ) ω)) : Prop where
  buffer : p.buffer = o.buffer
  result : p.result = o.result
  twins : Twins o.generator p.generator

variable {g h : Generator (Within (Seeded σ) ω)} {o p : Outcome (Within (Seeded σ) ω)}
  {additional chunk rest : Bytes} {cause : Failure}

theorem Twins.moved (twins : Twins g h) {m : Within (Seeded σ) ω}
    (interval : m.value.interval = g.mechanism.value.interval) :
    Twins { g with mechanism := m } { h with mechanism := m } :=
  { twins with mechanism := rfl, positive := interval ▸ twins.positive }

/-- Twins fail alike. -/
theorem Twins.fail (twins : Twins g h) (buffer : Bytes) (cause : Failure) :
    Matches (g.fail buffer cause) (h.fail buffer cause) := by
  cases cause with
  | faulted reason => exact ⟨rfl, rfl, { twins with faulted := rfl }⟩
  | refused _ | entropyUnavailable _ => exact ⟨rfl, rfl, twins⟩

/-- What goes on alike after calls that match ends alike. -/
theorem Matches.andThen
    {next final : Generator (Within (Seeded σ) ω) → Outcome (Within (Seeded σ) ω)}
    (first : Matches o p)
    (later : o.result = .ok () → Matches (next o.generator) (final p.generator)) :
    Matches (o.andThen rest next) (p.andThen rest final) := by
  cases ended : o.result with
  | error cause =>
    rw [Outcome.andThen_of_error ended, Outcome.andThen_of_error (first.result.trans ended)]
    exact ⟨congrArg (· ++ rest) first.buffer, first.result, first.twins⟩
  | ok u =>
    have second := later ended
    rw [Outcome.andThen_of_ok ended, Outcome.andThen_of_ok (first.result.trans ended)]
    refine ⟨?_, second.result, second.twins⟩
    exact congrArg₂ (· ++ ·) first.buffer second.buffer

variable [SeedSource σ ω]

/-- Directly after a reseed the twin answers to a chunk what the mechanism answers by itself. -/
theorem Twins.fillChunk_of_renewed {next : Within (Seeded σ) ω} (twins : Twins g h)
    (reseeded : Seeded.Reseeds g.mechanism additional (.ok ()) next)
    (fits : chunk.length ≤ g.mechanism.value.maxRequest) :
    Matches (g.fillChunk additional chunk) ({ h with mechanism := next }.fillChunk [] chunk) := by
  rcases answered : Mechanism.generate next chunk.length [] false with ⟨⟨written, result⟩, last⟩
  have resistant : Mechanism.generate g.mechanism chunk.length additional true =
      (⟨written, result⟩, last) := (reseeded.generate_of_ok fits).trans answered
  have served := Seeded.serves resistant
  have settled := served.not_reseedRequired twins.positive fits
  have moved := twins.moved served.interval
  have asked : Mechanism.generate g.mechanism chunk.length additional g.predictionResistant =
      (⟨written, result⟩, last) := by rw [twins.resistant, resistant]
  have later : Mechanism.generate next chunk.length [] h.predictionResistant =
      (⟨written, result⟩, last) := by rw [twins.direct, answered]
  rcases result with (_ | cause) | ⟨⟩
  · exact absurd rfl settled
  · rw [fillChunk_of_failed asked, fillChunk_of_failed later]
    exact moved.fail (chunk.overwrite written) cause
  · rw [fillChunk_of_served asked, fillChunk_of_served later]
    exact ⟨rfl, rfl, moved⟩

variable [Randomness ω]

private theorem reseed_of_usable (usable : h.faulted = false) (alone : h.auxiliary = false) :
    h.reseed additional = h.reseedMechanism additional := by
  simp only [Generator.reseed, usable, alone, Bool.false_eq_true, ↓reduceIte]

/-- A chunk that a resistant generator fills is filled the same by its twin after a reseed. -/
theorem Twins.fillChunk (twins : Twins g h) (usable : g.faulted = false) (nonempty : chunk ≠ [])
    (fits : chunk.length ≤ g.mechanism.value.maxRequest) :
    Matches (g.fillChunk additional chunk)
      ((h.reseed additional).andThen chunk (·.fill chunk [])) := by
  have unfaulted := twins.faulted.trans usable
  rw [reseed_of_usable unfaulted twins.alone, reseedMechanism, twins.mechanism]
  rcases ran : Mechanism.reseed g.mechanism additional with ⟨result, next⟩
  have reseeded := Seeded.reseeds ran
  cases result with
  | error cause =>
    have asked : Mechanism.generate g.mechanism chunk.length additional g.predictionResistant =
        (.refusal cause, next) := by
      rw [twins.resistant, reseeded.generate_of_error fits]
    rw [fillChunk_of_failed asked, Bytes.overwrite_nil,
      Outcome.andThen_of_error (result_fail ..), Outcome.leaving_fail]
    exact (twins.moved reseeded.interval).fail chunk cause
  | ok u =>
    have short : chunk.length ≤ Generator.chunkLength { h with mechanism := next } :=
      le_max_of_le_left (fits.trans_eq reseeded.maxRequest.symm)
    have filled := twins.fillChunk_of_renewed reseeded fits
    have single : Generator.fill { h with mechanism := next } chunk [] = _ :=
      fill_of_fits unfaulted nonempty short
    rw [← single] at filled
    exact ⟨filled.buffer, filled.result, filled.twins⟩

/-- Chunks in order are filled alike, up to the first failure. -/
theorem Twins.fillChunks {chunks : List Bytes} (twins : Twins g h) (usable : g.faulted = false)
    (cut : ∀ chunk ∈ chunks, chunk ≠ [] ∧ chunk.length ≤ g.mechanism.value.maxRequest) :
    Matches (Generator.fillChunks additional chunks g) (reseedFillChunks additional chunks h) := by
  induction chunks generalizing g h with
  | nil => exact ⟨rfl, rfl, twins⟩
  | cons chunk rest ih =>
    obtain ⟨⟨nonempty, fits⟩, others⟩ := List.forall_mem_cons.mp cut
    obtain ⟨calls, attempted⟩ := g.attempts additional chunk
    have first : Matches (g.fillChunk additional chunk) _ := twins.fillChunk usable nonempty fits
    rw [fillChunks_cons, reseedFillChunks]
    refine first.andThen fun success => ?_
    have limit : (g.fillChunk additional chunk).generator.mechanism.value.maxRequest =
      g.mechanism.value.maxRequest := attempted.accrues Seeded.keepsLimit.accrues
    refine ih first.twins ((attempted.faulted_of_ok success).trans usable) fun chunk member => ?_
    rw [limit]
    exact others chunk member

/-- A request to a resistant generator comes to the same as reseeds on demand by its twin. -/
theorem Twins.fill {buffer : Bytes} (twins : Twins g h) (nonempty : buffer ≠ []) :
    Matches (g.fill buffer additional) (h.reseedFill buffer additional) := by
  have positive : 0 < Mechanism.maxRequest g.mechanism := Algorithm.maxRequest_pos twins.positive
  rw [reseedFill, twins.mechanism]
  cases faulted : g.faulted with
  | true =>
    -- There is a first chunk, so the twin does try to reseed, and it is refused as well.
    have disabled := twins.faulted.trans faulted
    have refused : h.reseed additional = h.refuse [] := by rw [Generator.reseed, if_pos disabled]
    rw [Generator.fill, if_pos faulted, Bytes.chunks_of_ne_nil positive nonempty, reseedFillChunks,
      refused]
    refine ⟨?_, rfl, twins⟩
    calc buffer.take _ ++ (Bytes.chunks _ (buffer.drop _)).flatten
      _ = buffer.take _ ++ buffer.drop _ := by rw [Bytes.flatten_chunks positive]
      _ = buffer := List.take_append_drop ..
  | false =>
    have length : g.chunkLength = Mechanism.maxRequest g.mechanism := max_eq_left positive
    rw [fill_of_usable faulted, length]
    exact twins.fillChunks faulted fun chunk member =>
      ⟨Bytes.ne_nil_of_mem_chunks positive member, Bytes.length_le_of_mem_chunks member⟩

end Generator

structure Request where
  buffer : Bytes
  additional : Bytes

namespace Generator

/-- What comes of requests in order, each made to the generator that the one before has left. -/
def outcomes {μ : Type} (serve : Generator μ → Request → Outcome μ) :
    List Request → Generator μ → List (Outcome μ)
  | [], _ => []
  | request :: rest, g =>
    serve g request :: outcomes serve rest (serve g request).generator

variable {σ ω : Type} [SeedSource σ ω] [Randomness ω] {g h : Generator (Within (Seeded σ) ω)}

/-- Requests that fail and requests after them make no difference between twins either. -/
theorem Twins.outcomes (twins : Twins g h) {requests : List Request}
    (nonempty : ∀ request ∈ requests, request.buffer ≠ []) :
    List.Forall₂ Matches
      (outcomes (fun g request => g.fill request.buffer request.additional) requests g)
      (outcomes (fun h request => h.reseedFill request.buffer request.additional) requests h) := by
  induction requests generalizing g h with
  | nil => exact .nil
  | cons request rest ih =>
    obtain ⟨first, others⟩ := List.forall_mem_cons.mp nonempty
    have served : Matches (g.fill request.buffer request.additional) _ := twins.fill first
    exact .cons served (ih served.twins others)

end Generator

namespace Builder

variable {σ ω : Type} [SeedProvider ω σ] {b : Builder} {order : Order} {nonce : Bytes}
  {w world elsewhere : ω} {g h : Generator (Seeded σ)} {events others : List Event}

/-- Generators that are built from the same environment with and without prediction resistance are
twins. -/
theorem twins_of_build (alone : b.auxiliary = false)
    (resistant : b.build order nonce true w = (.ok g, events, world))
    (direct : b.build order nonce false w = (.ok h, others, elsewhere)) :
    Generator.Twins (g.map (Within.mk · world)) (h.map (Within.mk · elsewhere)) := by
  have ran := b.builds order nonce true w
  rw [resistant] at ran
  cases ran with
  | built admitted asked fetched made =>
    have again : Builds b order nonce false w _ _ := .built admitted asked fetched made
    obtain ⟨same, rfl⟩ := again.eq
    rw [direct] at same ⊢
    cases same
    obtain ⟨a, -, fresh⟩ := Seeded.instantiated made
    exact
      { mechanism := rfl
        faulted := rfl
        resistant := rfl
        direct := rfl
        alone := alone
        positive := fresh.positive }

/-- Prediction resistance is a reseed before every chunk. Two generators are built from the same
environment, with and without it, and without auxiliary randomness. Nonempty requests to the one
write the same, report the same and leave the same state as reseeds of the other by hand. -/
theorem resistant_fills_as_reseeded [Randomness ω] (alone : b.auxiliary = false)
    (resistant : b.build order nonce true w = (.ok g, events, world))
    (direct : b.build order nonce false w = (.ok h, others, elsewhere)) (requests : List Request)
    (nonempty : ∀ request ∈ requests, request.buffer ≠ []) :
    List.Forall₂ Generator.Matches
      (Generator.outcomes (fun g request => g.fill request.buffer request.additional) requests
        (g.map (Within.mk · world)))
      (Generator.outcomes (fun h request => h.reseedFill request.buffer request.additional) requests
        (h.map (Within.mk · elsewhere))) :=
  (twins_of_build alone resistant direct).outcomes nonempty

/-- Three requests to Hash_DRBG, the second of which finds no entropy. -/
theorem resistant_fills_as_reseeded_failing_fetch :
    let block := Bytes.zeros 16
    let recording := Recording.blocks [block, block, block, block]
    let b : Builder :=
      { config := { securityStrength := 128, entropyBits := 128 }, auxiliary := false }
    let w : Playback := { recording, failOn := some 3 }
    let world : Playback := { recording, failOn := some 3, fetches := 1, requested := [128] }
    let m : Seeded Player :=
      { core := .instantiate (.hash .sha256) block [7] []
        source := { recording, failOn := some 3, position := 1 }
        securityStrength := 128
        counter := 0
        interval := maxRequestCount }
    let g (predictionResistant : Bool) : Generator (Seeded Player) :=
      { mechanism := m, auxiliary := false, predictionResistant }
    let requests : List Request := [⟨[9, 9], [5]⟩, ⟨[9, 9, 9], []⟩, ⟨[9], []⟩]
    let filled := Generator.outcomes (fun g request => g.fill request.buffer request.additional)
      requests ((g true).map (Within.mk · world))
    (∀ resistant, ∃ events,
        b.build (.hash .sha256) [7] resistant w = (.ok (g resistant), events, world)) ∧
      filled.map (·.result) = [.ok (), .error (.entropyUnavailable stagedFailure), .ok ()] ∧
      List.Forall₂ Generator.Matches filled
        (Generator.outcomes (fun h request => h.reseedFill request.buffer request.additional)
          requests ((g false).map (Within.mk · world))) := by
  intro block recording b w world m g requests filled
  have built (resistant : Bool) : ∃ events,
      b.build (.hash .sha256) [7] resistant w = (.ok (g resistant), events, world) := ⟨_, rfl⟩
  obtain ⟨events, resistant⟩ := built true
  obtain ⟨others, direct⟩ := built false
  have nonempty : ∀ request ∈ requests, request.buffer ≠ [] := by simp [requests]
  refine ⟨built, by decide +kernel, ?_⟩
  exact resistant_fills_as_reseeded rfl resistant direct requests nonempty

end Builder

end RandomBits
