import Mathlib
import RandomBits.Proofs.Attempts
import RandomBits.Proofs.Seeding

/-! # Seed sources without their failing fetches

A source that is a list of fetches is settled when the fetches that fail or fall short are deleted
from it. A call on a mechanism does what it does on the settled source, or else it reports
unavailable entropy, uses up a failing fetch and changes nothing else (`Seeded.Serves.settled`). The
same is true of each chunk that a generator fills, if the settled source serves it
(`Generator.fillChunk_settled`).
-/

namespace RandomBits

abbrev Fetches := List (Except EntropyFailure Bytes)

/-- A fetch succeeds with a block that is long enough. -/
def adequate (strength : ℕ) : Except EntropyFailure Bytes → Bool
  | .ok block => strength ≤ 8 * block.length
  | .error _ => false

namespace Seeded

def settled (m : Seeded Fetches) : Seeded Fetches :=
  { m with source := m.source.filter (adequate m.securityStrength) }

def shortfalls (m : Seeded Fetches) : ℕ :=
  m.source.countP fun fetch => !adequate m.securityStrength fetch

private theorem fetchSeed_suffix {strength : ℕ} {source rest : Fetches} {world after : Unit}
    {result : Except EntropyFailure Bytes}
    (fetched : fetchSeed strength source world = (result, rest, after)) : rest <:+ source := by
  cases source with
  | nil =>
    cases fetched
    exact List.suffix_rfl
  | cons head tail =>
    cases fetched
    exact List.suffix_cons ..

/-- A settled source yields the same block, unless the fetch uses up a failing one. -/
theorem fetchSeed_settled {strength : ℕ} {source rest : Fetches} {world : Unit}
    {result : Except EntropyFailure Bytes}
    (fetched : fetchSeed strength source () = (result, rest, world)) :
    fetchSeed strength (source.filter (adequate strength)) () =
        (result, rest.filter (adequate strength), ()) ∨
      (∃ cause, result = .error cause) ∧
        rest.filter (adequate strength) = source.filter (adequate strength) ∧
        (rest.countP fun fetch => !adequate strength fetch) <
          source.countP fun fetch => !adequate strength fetch := by
  cases source with
  | nil =>
    cases fetched
    exact .inl rfl
  | cons head tail =>
    cases good : adequate strength head with
    | false =>
      refine .inr ⟨?_, ?_, ?_⟩
      · cases head with
        | error cause =>
          cases fetched
          exact ⟨cause, rfl⟩
        | ok block =>
          have short : 8 * block.length < strength := by
            simpa [adequate] using good
          simp only [fetchSeed, SeedSource.fetch, Except.bind, checkSeed, if_pos short] at fetched
          cases fetched
          exact ⟨_, rfl⟩
      · cases fetched
        rw [List.filter_cons_of_neg (by simp [good])]
      · cases fetched
        rw [List.countP_cons_of_pos (by simp [good])]
        exact Nat.lt_succ_self _
    | true =>
      cases fetched
      rw [List.filter_cons_of_pos good]
      exact .inl rfl

end Seeded

def Within.settled (s : Within (Seeded Fetches) Unit) : Within (Seeded Fetches) Unit :=
  { s with value := s.value.settled }

namespace Seeded

variable {s next : Within (Seeded Fetches) Unit} {length : ℕ} {additional : Bytes}
  {predictionResistant : Bool} {reply : Reply} {result : Except Failure Unit}

/-- All that happened between two states is that fetches failed. -/
structure Spends (s next : Within (Seeded Fetches) Unit) : Prop where
  settled : next.settled = s.settled
  fewer : next.value.shortfalls < s.value.shortfalls

/-- A reseed either does what it does on the settled source or spends a failing fetch. -/
theorem Reseeds.settled (reseeded : Reseeds s additional result next) :
    Reseeds s.settled additional result next.settled ∨
      (∃ cause, result = .error (.entropyUnavailable cause)) ∧ Spends s next := by
  cases reseeded with
  | refused long => exact .inl (.refused long)
  | unavailable short fetched =>
    obtain same | ⟨-, settled, fewer⟩ := fetchSeed_settled fetched
    · exact .inl (.unavailable short same)
    · refine .inr ⟨⟨_, rfl⟩, ?_, fewer⟩
      simp only [Within.settled, Seeded.settled, settled]
  | mixed short fetched =>
    obtain same | ⟨⟨_, failed⟩, -⟩ := fetchSeed_settled fetched
    · exact .inl (.mixed short same)
    · cases failed

/-- Output does not depend on the source. -/
theorem Produces.settled {m value : Seeded Fetches}
    (produced : Produces m length additional reply value) :
    Produces m.settled length additional reply value.settled := by
  cases produced with
  | exhausted beyond => exact .exhausted beyond
  | faulted within ran => exact .faulted within ran
  | served within ran => exact .served within ran

/-- A request without prediction resistance does not depend on the source. -/
theorem Serves.settled_direct (served : Serves s length additional false reply next) :
    Serves s.settled length additional false reply next.settled := by
  cases served with
  | tooLong _ beyond => exact .tooLong _ beyond
  | refused fits long => exact .refused fits long
  | direct fits short produced => exact .direct fits short produced.settled

/-- A request either does what it does on the settled source or spends a failing fetch. -/
theorem Serves.settled (served : Serves s length additional predictionResistant reply next) :
    Serves s.settled length additional predictionResistant reply next.settled ∨
      (∃ cause, reply = .refusal (.entropyUnavailable cause)) ∧ Spends s next := by
  cases served with
  | tooLong _ beyond => exact .inl (.tooLong _ beyond)
  | refused fits long => exact .inl (.refused fits long)
  | direct fits short produced => exact .inl (.direct fits short produced.settled)
  | unseeded fits reseeded =>
    obtain same | ⟨⟨cause, failed⟩, spends⟩ := reseeded.settled
    · exact .inl (.unseeded fits same)
    · cases failed
      exact .inr ⟨⟨cause, rfl⟩, spends⟩
  | @renewed _ middle value fits reseeded produced =>
    obtain same | ⟨⟨_, failed⟩, -⟩ := reseeded.settled
    · have done : Serves s.settled length additional true reply
          ⟨value.settled, middle.settled.world⟩ := .renewed fits same produced.settled
      exact .inl done
    · cases failed

/-- A state that calls can lead to: public properties stay, and fetches are used up in order. -/
structure Follows (s next : Within (Seeded Fetches) Unit) : Prop where
  properties : next.value.properties = s.value.properties
  suffix : next.value.source <:+ s.value.source

theorem Follows.trans {last : Within (Seeded Fetches) Unit} (first : Follows s next)
    (second : Follows next last) : Follows s last where
  properties := second.properties.trans first.properties
  suffix := second.suffix.trans first.suffix

/-- Shortfalls are not added. -/
theorem Follows.shortfalls_le (follows : Follows s next) :
    next.value.shortfalls ≤ s.value.shortfalls := by
  have strength := (properties_eq_iff.mp follows.properties).2.2
  simp only [shortfalls, strength]
  exact follows.suffix.sublist.countP_le

theorem Reseeds.follows (reseeded : Reseeds s additional result next) : Follows s next where
  properties := reseeded.properties
  suffix := by
    cases reseeded with
    | refused _ => exact List.suffix_rfl
    | unavailable _ fetched | mixed _ fetched => exact fetchSeed_suffix fetched

theorem Serves.follows (served : Serves s length additional predictionResistant reply next) :
    Follows s next where
  properties := served.properties
  suffix := by
    cases served with
    | tooLong _ _ | refused _ _ => exact List.suffix_rfl
    | direct _ _ produced => exact produced.source ▸ List.suffix_rfl
    | unseeded _ reseeded => exact reseeded.follows.suffix
    | renewed _ reseeded produced => exact produced.source ▸ reseeded.follows.suffix

theorem accrues_follows : Generator.Accrues Follows where
  generate _ _ _ _ := (serves rfl).follows
  reseed _ _ := (reseeds rfl).follows
  trans := Follows.trans

/-- With prediction resistance, no request that costs more than the whole interval succeeds. -/
theorem Serves.not_ok (served : Serves s length additional true reply next)
    (costly : s.value.properties.reseedInterval <
      s.value.properties.algorithm.requestCost length) : reply.result ≠ .ok () := by
  cases served with
  | tooLong _ _ | unseeded _ _ => exact nofun
  | renewed _ reseeded produced =>
    rw [← reseeded.properties] at costly
    cases produced with
    | exhausted _ | faulted _ _ => exact nofun
    | served within _ => exact absurd (le_of_add_le_right within) (not_le.mpr costly)

end Seeded

namespace Generator

def settled (g : Generator (Within (Seeded Fetches) Unit)) :
    Generator (Within (Seeded Fetches) Unit) :=
  g.map Within.settled

def shortfalls (g : Generator (Within (Seeded Fetches) Unit)) : ℕ := g.mechanism.value.shortfalls

end Generator

def Outcome.settled (o : Outcome (Within (Seeded Fetches) Unit)) :
    Outcome (Within (Seeded Fetches) Unit) :=
  { o with generator := o.generator.settled }

namespace Generator

open Seeded (Follows Spends serves reseeds)

/-- A chunk was cut short by unavailable entropy. Nothing else has happened to the generator than
that it used up fetches that are not adequate. -/
structure Interrupted (g : Generator (Within (Seeded Fetches) Unit)) (chunk : Bytes)
    (o : Outcome (Within (Seeded Fetches) Unit)) : Prop where
  failed : ∃ cause, o.result = .error (.entropyUnavailable cause)
  kept : o.buffer = chunk
  settled : o.generator.settled = g.settled
  fewer : o.generator.shortfalls < g.shortfalls

variable {g : Generator (Within (Seeded Fetches) Unit)} {additional chunk : Bytes}

private theorem settled_fail (g : Generator (Within (Seeded Fetches) Unit)) (buffer : Bytes)
    (cause : Failure) :
    (g.fail buffer cause).settled = g.settled.fail buffer cause := by
  cases cause <;> rfl

theorem interrupted_of_spends {m : Within (Seeded Fetches) Unit} (spends : Spends g.mechanism m)
    (cause : EntropyFailure) (events : List Event) :
    Interrupted g chunk ⟨chunk, .error (.entropyUnavailable cause), events,
      { g with mechanism := m }⟩ where
  failed := ⟨cause, rfl⟩
  kept := rfl
  settled := by simp only [settled, map, spends.settled]
  fewer := spends.fewer

/-- With prediction resistance, no chunk that costs more than the whole interval is served. -/
private theorem fillChunk_not_ok (resistant : g.predictionResistant = true)
    (costly : g.mechanism.value.properties.reseedInterval <
      g.mechanism.value.properties.algorithm.requestCost chunk.length) :
    (g.fillChunk additional chunk).result ≠ .ok () := by
  obtain ⟨calls, attempted⟩ := g.attempts additional chunk
  generalize g.fillChunk additional chunk = o at attempted
  cases attempted with
  | served asked =>
    rw [resistant] at asked
    exact absurd rfl ((serves asked).not_ok costly)
  | failed _ =>
    rw [result_fail]
    exact nofun
  | unseeded _ _ ended =>
    rw [ended, result_fail]
    exact nofun
  | retried asked reseeded retried =>
    have same := (reseeds reseeded).properties.trans (serves asked).properties
    cases retried with
    | served again =>
      rw [Bytes.length_overwrite, resistant] at again
      exact absurd rfl ((serves again).not_ok (same ▸ costly))
    | failed _ | looped _ =>
      rw [result_fail]
      exact nofun

/-- Without prediction resistance, a request for a chunk does not depend on the source. -/
theorem generate_settled (direct : g.predictionResistant = false)
    {m : Within (Seeded Fetches) Unit} {length : ℕ} {reply : Reply}
    (asked : Mechanism.generate g.mechanism length additional g.predictionResistant = (reply, m)) :
    Mechanism.generate g.settled.mechanism length additional g.settled.predictionResistant =
      (reply, m.settled) := by
  rw [direct] at asked
  have ran := (serves asked).settled_direct.eq
  rwa [← direct] at ran

/-- Without prediction resistance, nor does the second request for a chunk. -/
theorem Retries.settled {result : Except RequestError Unit}
    {o : Outcome (Within (Seeded Fetches) Unit)} (retried : Retries g additional chunk result o)
    (direct : g.predictionResistant = false) :
    g.settled.retryChunk additional chunk = o.settled := by
  cases retried with
  | served asked =>
    simp only [retryChunk, generate_settled direct asked]
    rfl
  | failed asked | looped asked =>
    rw [settled_fail]
    simp only [retryChunk, generate_settled direct asked]
    rfl

/-- Where the settled source serves a chunk, the source does the same or spends a failing fetch. -/
theorem fillChunk_settled (success : (g.settled.fillChunk additional chunk).result = .ok ()) :
    g.settled.fillChunk additional chunk = (g.fillChunk additional chunk).settled ∨
      Interrupted g chunk (g.fillChunk additional chunk) := by
  obtain ⟨calls, attempted⟩ := g.attempts additional chunk
  generalize g.fillChunk additional chunk = o at attempted ⊢
  cases attempted with
  | @served written m asked =>
    obtain same | ⟨⟨_, failed⟩, -⟩ := (serves asked).settled
    · have ran : Mechanism.generate g.settled.mechanism chunk.length additional
          g.settled.predictionResistant = (⟨written, .ok ()⟩, m.settled) := same.eq
      left
      simp only [fillChunk, ran]
      rfl
    · cases failed
  | @failed written cause m asked =>
    obtain same | ⟨⟨cause, failed⟩, spends⟩ := (serves asked).settled
    · have ran : Mechanism.generate g.settled.mechanism chunk.length additional
          g.settled.predictionResistant = (⟨written, .error (.failed cause)⟩, m.settled) := same.eq
      left
      rw [settled_fail]
      simp only [fillChunk, ran]
      rfl
    · cases failed
      right
      rw [Bytes.overwrite_nil]
      exact interrupted_of_spends spends cause []
  | @unseeded written m last cause o asked reseeded ended =>
    obtain ⟨rfl, ⟨direct, rfl⟩ | ⟨resistant, costly⟩⟩ := (serves asked).exhausted rfl
    · subst ended
      obtain same | ⟨⟨cause, failed⟩, spends⟩ := (reseeds reseeded).settled
      · have again : Mechanism.reseed g.mechanism.settled [] = (.error cause, last.settled) :=
          same.eq
        left
        simp only [fillChunk, generate_settled direct asked, again]
        cases cause <;> rfl
      · cases failed
        right
        rw [Bytes.overwrite_nil]
        exact interrupted_of_spends spends cause [.intervalExhausted]
    · exact absurd success (fillChunk_not_ok resistant costly)
  | @retried written m middle result o asked reseeded retried =>
    obtain ⟨rfl, ⟨direct, rfl⟩ | ⟨resistant, costly⟩⟩ := (serves asked).exhausted rfl
    · obtain same | ⟨⟨_, failed⟩, -⟩ := (reseeds reseeded).settled
      · have again : Mechanism.reseed g.mechanism.settled [] = (.ok (), middle.settled) := same.eq
        have retried : retryChunk { g.settled with mechanism := middle.settled } additional
            (chunk.overwrite []) = o.settled := retried.settled direct
        left
        simp only [fillChunk, generate_settled direct asked, again, retried]
        rfl
      · cases failed
    · exact absurd success (fillChunk_not_ok resistant costly)

/-- A chunk keeps the public properties of the mechanism and only uses up fetches. -/
theorem Attempts.follows {calls : List Exchange} {o : Outcome (Within (Seeded Fetches) Unit)}
    (attempted : Attempts g additional chunk calls o) :
    Follows g.mechanism o.generator.mechanism :=
  attempted.accrues Seeded.accrues_follows

/-- A chunk that is served fits the largest request. -/
theorem Attempts.fits_of_ok {calls : List Exchange} {o : Outcome (Within (Seeded Fetches) Unit)}
    (attempted : Attempts g additional chunk calls o) (success : o.result = .ok ()) :
    chunk.length ≤ g.mechanism.value.maxRequest := by
  cases attempted with
  | served asked => exact (serves asked).fits_of_ok rfl
  | failed _ => simp at success
  | unseeded _ _ ended => simp [ended] at success
  | retried asked reseeded retried =>
    have follows := (serves asked).follows.trans (reseeds reseeded).follows
    cases retried with
    | served again =>
      rw [Bytes.length_overwrite] at again
      have fits := (serves again).fits_of_ok rfl
      exact fits.trans_eq (congrArg Instantiation.maxRequest follows.properties)
    | failed _ | looped _ => simp at success

end Generator

end RandomBits
