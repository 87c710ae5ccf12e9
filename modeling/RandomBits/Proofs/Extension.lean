import Mathlib
import RandomBits.Entropy.Playback
import RandomBits.Proofs.Attempts
import RandomBits.Proofs.Output
import RandomBits.Proofs.Seeding

/-! # Longer requests extend shorter ones

Where requests are counted, a request does the same to the counter and to the entropy whatever its
length, so one for fewer bytes is answered as one for more, with the front of the output
(`Seeded.Serves.front`). The two part only in the last chunk of the shorter one, where the rest of
the output is cut off. So a generator that generates bytes would have generated the first of them as
well (`Generator.generate_extends`).
-/

namespace RandomBits

/-- A reply that writes no more than a number of bytes. -/
def Reply.front (reply : Reply) (count : ℕ) : Reply :=
  { reply with written := reply.written.take count }

@[simp] theorem Reply.front_refusal (cause : Failure) (count : ℕ) :
    (refusal cause).front count = refusal cause := by
  simp [front, refusal]

namespace Seeded

variable {σ ω : Type} {m value : Seeded σ} {length count : ℕ} {additional : Bytes} {reply : Reply}

/-- Fewer bytes are put out like more bytes, of which they are the front. The interval stops either
request alike. -/
theorem Produces.front (produced : Produces m length additional reply value)
    (counts : m.core.algorithm.CountsRequests) (shorter : count ≤ length) :
    ∃ last, Produces m count additional (reply.front count) last ∧
      (reply.result = .error .reseedRequired → last = value) := by
  have cost : m.core.algorithm.requestCost length = m.core.algorithm.requestCost count := by
    rw [counts.requestCost, counts.requestCost]
  cases produced with
  | exhausted beyond =>
    rw [cost] at beyond
    exact ⟨m, by simpa [Reply.front] using Produces.exhausted beyond, fun _ => rfl⟩
  | faulted _ ran => exact absurd (Core.raises_of_generate ran) (Core.not_raises _ _ counts _)
  | served within ran =>
    obtain ⟨written, core, again, -⟩ := Core.generate_ok count additional (m.counter + 1) counts
    have cut := Core.generate_take additional (m.counter + 1) counts shorter
    rw [ran, again] at cut
    obtain rfl : written = _ := cut
    rw [cost] at within
    exact ⟨_, .served within again, nofun⟩

variable [SeedSource σ ω] {s next : Within (Seeded σ) ω} {predictionResistant : Bool}

/-- A request for fewer bytes is answered like one for more bytes that fits the mechanism. -/
theorem Serves.front (served : Serves s length additional predictionResistant reply next)
    (counts : s.value.core.algorithm.CountsRequests) (fits : length ≤ s.value.maxRequest)
    (shorter : count ≤ length) :
    ∃ last, Serves s count additional predictionResistant (reply.front count) last ∧
      (reply.result = .error .reseedRequired → last = next) := by
  have within := shorter.trans fits
  cases served with
  | tooLong _ beyond => exact absurd fits (not_le.mpr beyond)
  | refused _ long =>
    rw [Reply.front_refusal]
    exact ⟨s, .refused within long, fun _ => rfl⟩
  | direct _ short produced =>
    obtain ⟨last, produced, same⟩ := produced.front counts shorter
    refine ⟨⟨last, s.world⟩, .direct within short produced, fun required => ?_⟩
    rw [same required]
  | unseeded _ reseeded =>
    rw [Reply.front_refusal]
    exact ⟨next, .unseeded within reseeded, fun _ => rfl⟩
  | @renewed _ middle _ _ reseeded produced =>
    have algorithm := (properties_eq_iff.mp reseeded.properties).1
    obtain ⟨last, produced, same⟩ := produced.front (algorithm ▸ counts) shorter
    refine ⟨⟨last, middle.world⟩, .renewed within reseeded produced, fun required => ?_⟩
    rw [same required]

/-- No call changes the public properties of a mechanism. -/
theorem accrues_properties :
    Generator.Accrues fun s next : Within (Seeded σ) ω =>
      next.value.properties = s.value.properties where
  generate _ _ _ _ := (serves rfl).properties
  reseed _ _ := (reseeds rfl).properties
  trans first second := second.trans first

/-- Where requests are counted, bytes that are served fill their buffer. -/
theorem Serves.length_written
    (served : Serves s length additional predictionResistant reply next)
    (counts : s.value.core.algorithm.CountsRequests) (success : reply.result = .ok ()) :
    reply.written.length = length := by
  have produced {m value : Seeded σ} {additional : Bytes} (counts : m.core.algorithm.CountsRequests)
      (produced : Produces m length additional reply value) : reply.written.length = length := by
    cases produced with
    | exhausted _ | faulted _ _ => cases success
    | served _ ran =>
      have long := Core.length_generate length additional (m.counter + 1) counts
      rwa [ran] at long
  cases served with
  | tooLong _ _ | refused _ _ | unseeded _ _ => cases success
  | direct _ _ ran => exact produced counts ran
  | renewed _ reseeded ran =>
    have algorithm := (properties_eq_iff.mp reseeded.properties).1
    exact produced (algorithm ▸ counts) ran

/-- A request for a chunk that is served would have been served for the front of it. -/
theorem generate_take {chunk written : Bytes}
    (counts : s.value.core.algorithm.CountsRequests) (fits : chunk.length ≤ s.value.maxRequest)
    (shorter : count ≤ chunk.length)
    (asked : Mechanism.generate s chunk.length additional predictionResistant =
      (⟨written, .ok ()⟩, next)) :
    (∃ last, Mechanism.generate s (chunk.take count).length additional predictionResistant =
        (⟨written.take count, .ok ()⟩, last)) ∧
      Bytes.overwrite (chunk.take count) (written.take count) =
        (chunk.overwrite written).take count := by
  have full : written.length = chunk.length := (serves asked).length_written counts rfl
  constructor
  · obtain ⟨last, served, -⟩ := (serves asked).front counts fits shorter
    rw [List.length_take_of_le shorter]
    exact ⟨last, served.eq⟩
  · have front : (written.take count).length = (chunk.take count).length := by
      rw [List.length_take, List.length_take, full]
    rw [Bytes.overwrite_of_length_eq full, Bytes.overwrite_of_length_eq front]

end Seeded

namespace Generator

variable {σ ω : Type} [SeedSource σ ω] {g : Generator (Within (Seeded σ) ω)}
  {additional chunk b : Bytes} {count size : ℕ}

open Seeded (serves reseeds)

/-- A chunk that is served would have been served up to anywhere within it. -/
private theorem fillChunk_take (counts : g.mechanism.value.core.algorithm.CountsRequests)
    (fits : chunk.length ≤ g.mechanism.value.maxRequest) (shorter : count ≤ chunk.length)
    (success : (g.fillChunk additional chunk).result = .ok ()) :
    (g.fillChunk additional (chunk.take count)).result = .ok () ∧
      (g.fillChunk additional (chunk.take count)).buffer =
        (g.fillChunk additional chunk).buffer.take count := by
  obtain ⟨calls, attempted⟩ := g.attempts additional chunk
  generalize g.fillChunk additional chunk = o at attempted success
  cases attempted with
  | served asked =>
    obtain ⟨⟨last, again⟩, overwritten⟩ := Seeded.generate_take counts fits shorter asked
    rw [fillChunk_of_served again]
    exact ⟨rfl, overwritten⟩
  | failed _ => simp at success
  | unseeded _ _ ended => simp [ended] at success
  | @retried _ m middle _ _ asked reseeded retried =>
    -- The first request writes nothing and leaves the mechanism alike, so both go on alike.
    obtain ⟨rfl, -⟩ := (serves asked).exhausted rfl
    obtain ⟨last, first, same⟩ := (serves asked).front counts fits shorter
    obtain rfl := same rfl
    have first := first.eq
    rw [← List.length_take_of_le shorter, Reply.front, List.take_nil] at first
    have kept := (reseeds reseeded).properties.trans (serves asked).properties
    rw [fillChunk_of_retried first reseeded, Bytes.overwrite_nil]
    rw [Bytes.overwrite_nil] at retried
    cases retried with
    | served asked =>
      have still := (Seeded.properties_eq_iff.mp kept).1
      have limit := congrArg Instantiation.maxRequest kept
      obtain ⟨⟨last, again⟩, overwritten⟩ :=
        Seeded.generate_take (still ▸ counts) (fits.trans_eq limit.symm) shorter asked
      have served : Generator.retryChunk { g with mechanism := middle } additional
          (chunk.take count) = _ := retryChunk_of_served again
      rw [served]
      exact ⟨rfl, overwritten⟩
    | failed _ | looped _ => simp at success

/-- A chain of chunks that is served would have been served up to anywhere in its first chunk. -/
private theorem fillChunks_take_of_le (positive : 0 < size)
    (counts : g.mechanism.value.core.algorithm.CountsRequests)
    (fits : size ≤ g.mechanism.value.maxRequest) (some : 0 < count) (within : count ≤ size)
    (shorter : count ≤ b.length)
    (success : (fillChunks additional (Bytes.chunks size b) g).result = .ok ()) :
    (fillChunks additional (Bytes.chunks size (b.take count)) g).result = .ok () ∧
      (fillChunks additional (Bytes.chunks size (b.take count)) g).buffer =
        (fillChunks additional (Bytes.chunks size b) g).buffer.take count := by
  have nonempty : b ≠ [] := List.length_pos_iff.mp (some.trans_le shorter)
  have front : (b.take count).length = count := List.length_take_of_le shorter
  have cut : Bytes.chunks size (b.take count) = [b.take count] :=
    Bytes.chunks_eq_singleton positive (List.length_pos_iff.mp (by omega)) (by omega)
  have head : (b.take size).length = min size b.length := List.length_take ..
  rw [Bytes.chunks_of_ne_nil positive nonempty] at success ⊢
  have first := fillChunk_ok_of_fillChunks success
  obtain ⟨calls, attempted⟩ := g.attempts additional (b.take size)
  have filled := attempted.length_buffer
  have last := fillChunk_take counts (by omega) (by omega : count ≤ (b.take size).length) first
  rw [List.take_take, min_eq_left within] at last
  rw [cut, fillChunks_cons_of_ok last.1, fillChunks_cons_of_ok first]
  refine ⟨rfl, ?_⟩
  dsimp only [fillChunks]
  rw [List.append_nil, last.2, List.take_append_of_le_length (by omega)]

/-- A chain of chunks that is served would have been served up to anywhere within it. -/
theorem fillChunks_take (positive : 0 < size)
    (counts : g.mechanism.value.core.algorithm.CountsRequests)
    (fits : size ≤ g.mechanism.value.maxRequest) (shorter : count ≤ b.length)
    (success : (fillChunks additional (Bytes.chunks size b) g).result = .ok ()) :
    (fillChunks additional (Bytes.chunks size (b.take count)) g).result = .ok () ∧
      (fillChunks additional (Bytes.chunks size (b.take count)) g).buffer =
        (fillChunks additional (Bytes.chunks size b) g).buffer.take count := by
  induction b using Bytes.chunk_induction positive generalizing g count with
  | nil =>
    rw [List.take_nil, Bytes.chunks_nil]
    exact ⟨rfl, List.take_nil.symm⟩
  | step b nonempty ih =>
    rcases Nat.eq_zero_or_pos count with rfl | some
    · rw [List.take_zero, Bytes.chunks_nil, List.take_zero]
      exact ⟨rfl, rfl⟩
    rcases le_total count size with within | beyond
    · exact fillChunks_take_of_le positive counts fits some within shorter success
    -- Both requests begin with the same chunk, after which the generator is the same.
    have remains : b.take count ≠ [] := by
      rw [Ne, List.take_eq_nil_iff, not_or]
      exact ⟨some.ne', nonempty⟩
    have whole : (b.take count).take size = b.take size := by
      rw [List.take_take, min_eq_left beyond]
    rw [Bytes.chunks_of_ne_nil positive nonempty] at success ⊢
    have first := fillChunk_ok_of_fillChunks success
    obtain ⟨calls, attempted⟩ := g.attempts additional (b.take size)
    have kept := attempted.accrues Seeded.accrues_properties
    have still := (Seeded.properties_eq_iff.mp kept).1
    have limit := congrArg Instantiation.maxRequest kept
    have filled : (g.fillChunk additional (b.take size)).buffer.length = size := by
      rw [attempted.length_buffer, List.length_take_of_le (beyond.trans shorter)]
    rw [fillChunks_cons_of_ok first] at success ⊢
    have rest : count - size ≤ (b.drop size).length := by
      rw [List.length_drop]
      omega
    have later := ih (still ▸ counts) (fits.trans_eq limit.symm) rest success
    rw [Bytes.chunks_of_ne_nil positive remains, whole, List.drop_take,
      fillChunks_cons_of_ok first]
    refine ⟨later.1, ?_⟩
    dsimp only
    rw [later.2, List.take_append, filled, List.take_of_length_le (filled.trans_le beyond)]

/-- Longer requests extend shorter ones. Where a generator over a mechanism that counts requests
generates `n` bytes, it would have generated the first `m` of them, however many chunks and reseeds
lie between the two. -/
theorem generate_extends [Randomness ω] {m n : ℕ} {output : Bytes} (shorter : m ≤ n)
    (counts : g.mechanism.value.core.algorithm.CountsRequests)
    (success : (g.apply (.generate n additional)).1 = .bytes (.ok output)) :
    (g.apply (.generate m additional)).1 = .bytes (.ok (output.take m)) := by
  simp only [apply, Answer.bytes.injEq] at success ⊢
  have front : (Bytes.zeros n).take m = Bytes.zeros m := by
    rw [Bytes.zeros, List.take_replicate, min_eq_left shorter]
    rfl
  have within : m ≤ (Bytes.zeros n).length := by rwa [Bytes.length_zeros]
  have limit : g.chunkLength = g.mechanism.value.maxRequest := by
    have bytes : Mechanism.maxRequest g.mechanism = maxRequestBytes := counts.maxRequest _
    exact max_eq_left (by rw [bytes]; decide)
  cases ran : (g.fill (Bytes.zeros n) additional).result with
  | error cause =>
    rw [ran] at success
    cases success
  | ok u =>
    have usable := usable_of_fill ran
    rw [ran] at success
    obtain rfl := Except.ok.inj success
    rw [fill_of_usable usable] at ran ⊢
    rw [fill_of_usable usable, ← front]
    have positive : 0 < g.chunkLength := lt_max_of_lt_right one_pos
    obtain ⟨done, filled⟩ := fillChunks_take positive counts limit.le within ran
    rw [done, ← filled]
    rfl

/-- At the end of its interval, a generator reseeds for 40 bytes as it does for 3 bytes. -/
theorem generate_extends_across_reseed :
    let m : Seeded Player :=
      { core := .instantiate (.hmac .sha256) (Bytes.zeros 32) [] []
        source := { recording := .counting 32, failOn := none, position := 1 }
        securityStrength := 256
        counter := 1
        interval := 1 }
    let w : Playback := { recording := .counting 32, fetches := 1 }
    let g : Generator (Within (Seeded Player) Playback) :=
      { mechanism := ⟨m, w⟩, auxiliary := false, predictionResistant := false }
    ∃ output, 3 ≤ 40 ∧ m.core.algorithm.CountsRequests ∧
      (g.apply (.generate 40 [1])).1 = .bytes (.ok output) ∧
      (g.apply (.generate 3 [1])).1 = .bytes (.ok (output.take 3)) := by
  intro m w g
  have served : (g.fill (Bytes.zeros 40) [1]).result = .ok () := by decide +kernel
  have success : (g.apply (.generate 40 [1])).1 =
      .bytes (.ok (g.fill (Bytes.zeros 40) [1]).buffer) := by
    simp only [apply, served]
    rfl
  have counts : g.mechanism.value.core.algorithm.CountsRequests := trivial
  exact ⟨_, by decide, counts, success, generate_extends (by decide) counts success⟩

end Generator

end RandomBits
