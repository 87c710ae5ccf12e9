import Mathlib
import RandomBits.Proofs.Attempts
import RandomBits.Proofs.Validation

/-! # Generators that never fail

Where sources never fail and never fall short (`Dependable`), a seeded core fails a request within its
limit only where the request comes to a scalar that a point operation faults on (`Seeded.Serves.ends`). A
generator then stays healthy from call to call (`Generator.Healthy`): neither a reseed loop nor a request
that is too long can come up.
-/

namespace RandomBits

/-- Sources are live in an environment in such a way that no fetch fails or holds too few bits, that
no draw of auxiliary bytes fails if there are any, and that they stay live. -/
structure Dependable {σ ω : Type} [SeedSource σ ω] [Randomness ω] (strength : ℕ) (auxiliary : Bool)
    (live : σ → ω → Prop) : Prop where
  fetch {source : σ} {w : ω} (alive : live source w) :
    ∃ block next world, SeedSource.fetch source w = (.ok block, next, world) ∧
      strength ≤ 8 * block.length ∧ live next world
  draw (drawn : auxiliary = true) {source : σ} {w : ω} (alive : live source w) (length : ℕ) :
    ∃ bytes world, Randomness.draw w length = (.ok bytes, world) ∧ bytes.length = length ∧
      live source world

namespace Seeded

variable {σ ω : Type} [SeedSource σ ω] [Randomness ω] {strength : ℕ} {auxiliary : Bool}
  {live : σ → ω → Prop} {m value : Seeded σ} {s next : Within (Seeded σ) ω} {length : ℕ}
  {additional : Bytes} {predictionResistant : Bool} {reply : Reply} {result : Except Failure Unit}

theorem fetchSeed_of_live (dependable : Dependable strength auxiliary live) {source : σ} {w : ω}
    (alive : live source w) :
    ∃ entropy rest world, fetchSeed strength source w = (.ok entropy, rest, world) ∧
      live rest world := by
  obtain ⟨block, rest, world, fetched, enough, still⟩ := dependable.fetch alive
  refine ⟨block, rest, world, ?_, still⟩
  simp only [fetchSeed, fetched, Except.bind, checkSeed, if_neg (not_lt.mpr enough)]

/-- A reseed from a live source succeeds. -/
theorem Reseeds.succeeds (reseeded : Reseeds s additional result next)
    (dependable : Dependable s.value.securityStrength auxiliary live)
    (alive : live s.value.source s.world) (short : additional.length ≤ maxInputLength) :
    result = .ok () ∧ next.value.counter = 0 ∧ live next.value.source next.world := by
  obtain ⟨entropy, rest, world, fetched, still⟩ := fetchSeed_of_live dependable alive
  cases reseeded with
  | refused long => exact absurd short (not_le.mpr long)
  | unavailable _ failed => cases fetched.symm.trans failed
  | mixed _ again =>
    cases fetched.symm.trans again
    exact ⟨rfl, rfl, still⟩

omit [SeedSource σ ω] [Randomness ω] in
/-- Output ends well, at the interval or at a point operation. -/
theorem Produces.ends (produced : Produces m length additional reply value) :
    reply.result = .ok () ∨
      (reply.result = .error .reseedRequired ∧
        m.interval < m.counter + m.core.algorithm.requestCost length) ∨
      ∃ fault, reply.result = .error (.failed (.faulted fault)) ∧
        value.core.Raises length additional fault := by
  cases produced with
  | exhausted beyond => exact .inr (.inl ⟨rfl, beyond⟩)
  | faulted _ ran => exact .inr (.inr ⟨_, rfl, Core.raises_of_generate ran⟩)
  | served _ _ => exact .inl rfl

/-- On a live source, a request within the limits ends well, at the interval or at a point
operation. It meets the interval only without prediction resistance. -/
theorem Serves.ends (served : Serves s length additional predictionResistant reply next)
    (dependable : Dependable s.value.securityStrength auxiliary live)
    (alive : live s.value.source s.world) (positive : 0 < s.value.interval)
    (fits : length ≤ s.value.maxRequest) (short : additional.length ≤ maxInputLength) :
    live next.value.source next.world ∧
      (reply.result = .ok () ∨
        (reply.result = .error .reseedRequired ∧ 0 < s.value.counter) ∨
        ∃ fault, reply.result = .error (.failed (.faulted fault)) ∧
          next.value.core.Raises length (if predictionResistant then [] else additional) fault) := by
  have cost := Algorithm.requestCost_le positive fits
  cases served with
  | tooLong _ beyond => exact absurd fits (not_le.mpr beyond)
  | refused _ long => exact absurd short (not_le.mpr long)
  | unseeded _ reseeded => cases (reseeded.succeeds dependable alive short).1
  | direct _ _ produced =>
    refine ⟨produced.source ▸ alive, ?_⟩
    obtain success | ⟨exhausted, beyond⟩ | fault := produced.ends
    · exact .inl success
    · exact .inr (.inl ⟨exhausted, by omega⟩)
    · exact .inr (.inr fault)
  | renewed _ reseeded produced =>
    obtain ⟨-, counter, still⟩ := reseeded.succeeds dependable alive short
    obtain ⟨algorithm, interval, -⟩ := properties_eq_iff.mp reseeded.properties
    have ended := produced.ends
    rw [counter, Nat.zero_add, algorithm, interval] at ended
    refine ⟨produced.source ▸ still, ?_⟩
    obtain success | ⟨-, beyond⟩ | fault := ended
    · exact .inl success
    · exact absurd cost (not_le.mpr beyond)
    · exact .inr (.inr fault)

end Seeded

namespace Generator

variable {σ ω : Type} [SeedSource σ ω] [Randomness ω]

/-- A usable generator over a live source, with properties that never change. -/
structure Healthy (live : σ → ω → Prop) (auxiliary : Bool) (kind : Instantiation)
    (g : Generator (Within (Seeded σ) ω)) : Prop where
  usable : g.faulted = false
  sameAuxiliary : g.auxiliary = auxiliary
  kind : g.mechanism.value.properties = kind
  positive : 0 < g.mechanism.value.interval
  alive : live g.mechanism.value.source g.mechanism.world

/-- A request for a chunk of one of some lengths has come to a scalar for which a point operation raises
the fault: it does so from the core that is left. With prediction resistance the reseed has taken up the
additional input. -/
structure Stumbled (kind : Instantiation) (lengths : List ℕ) (additional : Bytes)
    (g : Generator (Within (Seeded σ) ω)) (fault : Fault) : Prop where
  kind : g.mechanism.value.properties = kind
  raised : ∃ length ∈ lengths,
    g.mechanism.value.core.Raises length (if g.predictionResistant then [] else additional) fault

/-- A call ends well and leaves a healthy generator, or a request for a chunk has come to a scalar for
which a point operation raises a fault. -/
def Ends (live : σ → ω → Prop) (auxiliary : Bool) (kind : Instantiation) (lengths : List ℕ)
    (additional : Bytes) (o : Outcome (Within (Seeded σ) ω)) : Prop :=
  (o.result = .ok () ∧ Healthy live auxiliary kind o.generator) ∨
    ∃ fault, o.result = .error (.faulted fault) ∧ Stumbled kind lengths additional o.generator fault

section

variable {live : σ → ω → Prop} {auxiliary : Bool} {kind : Instantiation}
  {g : Generator (Within (Seeded σ) ω)} {m : Within (Seeded σ) ω} {length : ℕ}
  {additional chunk : Bytes} {chunks : List Bytes} {calls : List Exchange} {reply : Reply}
  {result : Except Failure Unit} {o : Outcome (Within (Seeded σ) ω)}

omit [SeedSource σ ω] [Randomness ω] in
theorem Stumbled.kinds {lengths : List ℕ} {fault : Fault}
    (stumbled : Stumbled kind lengths additional g fault) :
    fault = .pointNotOnCurve ∨ fault = .scalarOutOfRange ∨ fault = .pointAtInfinity := by
  obtain ⟨_, -, raised⟩ := stumbled.raised
  exact raised.kind

omit [SeedSource σ ω] [Randomness ω] in
theorem Ends.mono {lengths others : List ℕ} (ended : Ends live auxiliary kind lengths additional o)
    (listed : lengths ⊆ others) : Ends live auxiliary kind others additional o := by
  obtain success | ⟨fault, failed, stumbled⟩ := ended
  · exact .inl success
  · obtain ⟨length, member, raised⟩ := stumbled.raised
    exact .inr ⟨fault, failed, stumbled.kind, length, listed member, raised⟩

omit [SeedSource σ ω] [Randomness ω] in
/-- Another state of the same mechanism is as healthy, if its source is live. -/
theorem Healthy.moved (healthy : Healthy live auxiliary kind g)
    (same : m.value.properties = g.mechanism.value.properties)
    (alive : live m.value.source m.world) :
    Healthy live auxiliary kind { g with mechanism := m } where
  usable := healthy.usable
  sameAuxiliary := healthy.sameAuxiliary
  kind := same.trans healthy.kind
  positive := (Seeded.properties_eq_iff.mp same).2.1 ▸ healthy.positive
  alive := alive

/-- How a request for a chunk ends. -/
theorem Healthy.asked (healthy : Healthy live auxiliary kind g)
    (dependable : Dependable kind.securityStrength auxiliary live)
    (fits : length ≤ kind.maxRequest) (short : additional.length ≤ maxInputLength)
    (asked : Mechanism.generate g.mechanism length additional g.predictionResistant = (reply, m)) :
    Healthy live auxiliary kind { g with mechanism := m } ∧
      (reply.result = .ok () ∨
        (reply.result = .error .reseedRequired ∧ 0 < g.mechanism.value.counter) ∨
        ∃ fault, reply.result = .error (.failed (.faulted fault)) ∧
          Stumbled kind [length] additional { g with mechanism := m } fault) := by
  have served := Seeded.serves asked
  obtain rfl := healthy.kind
  obtain ⟨alive, ended⟩ := served.ends dependable healthy.alive healthy.positive fits short
  refine ⟨healthy.moved served.properties alive, ended.imp_right (Or.imp_right ?_)⟩
  rintro ⟨fault, failed, raised⟩
  exact ⟨fault, failed, served.properties, length, List.mem_singleton_self length, raised⟩

/-- A request for a chunk fails only where a point operation raises a fault. -/
theorem Healthy.raised {written : Bytes} {cause : Failure}
    (healthy : Healthy live auxiliary kind g)
    (dependable : Dependable kind.securityStrength auxiliary live)
    (fits : length ≤ kind.maxRequest) (short : additional.length ≤ maxInputLength)
    (asked : Mechanism.generate g.mechanism length additional g.predictionResistant =
      (⟨written, .error (.failed cause)⟩, m)) :
    ∃ fault, cause = .faulted fault ∧
      Stumbled kind [length] additional { g with mechanism := m } fault := by
  obtain ⟨-, success | ⟨required, -⟩ | ⟨fault, failed, raised⟩⟩ :=
    healthy.asked dependable fits short asked
  · cases success
  · cases required
  · cases failed
    exact ⟨fault, rfl, raised⟩

theorem Healthy.reseeded (healthy : Healthy live auxiliary kind g)
    (dependable : Dependable kind.securityStrength auxiliary live)
    (short : additional.length ≤ maxInputLength)
    (reseeded : Mechanism.reseed g.mechanism additional = (result, m)) :
    result = .ok () ∧ m.value.counter = 0 ∧
      Healthy live auxiliary kind { g with mechanism := m } := by
  have done := Seeded.reseeds reseeded
  obtain rfl := healthy.kind
  obtain ⟨success, counter, alive⟩ := done.succeeds dependable healthy.alive short
  exact ⟨success, counter, healthy.moved done.properties alive⟩

/-- The second request for a chunk meets a counter that was just reset. -/
theorem Retries.ends {result : Except RequestError Unit}
    (retried : Retries g additional chunk result o) (healthy : Healthy live auxiliary kind g)
    (dependable : Dependable kind.securityStrength auxiliary live)
    (reset : g.mechanism.value.counter = 0) (fits : chunk.length ≤ kind.maxRequest)
    (short : additional.length ≤ maxInputLength) :
    Ends live auxiliary kind [chunk.length] additional o := by
  cases retried with
  | served asked =>
    obtain ⟨still, -⟩ := healthy.asked dependable fits short asked
    exact .inl ⟨rfl, still⟩
  | failed asked =>
    obtain ⟨fault, rfl, stumbled⟩ := healthy.raised dependable fits short asked
    exact .inr ⟨fault, rfl, stumbled.kind, stumbled.raised⟩
  | looped asked =>
    obtain ⟨-, success | ⟨-, counted⟩ | ⟨fault, failed, -⟩⟩ :=
      healthy.asked dependable fits short asked
    · cases success
    · exact absurd reset counted.ne'
    · cases failed

/-- A chunk within the limits ends well or at a point operation. -/
theorem Attempts.ends (attempted : Attempts g additional chunk calls o)
    (healthy : Healthy live auxiliary kind g)
    (dependable : Dependable kind.securityStrength auxiliary live)
    (fits : chunk.length ≤ kind.maxRequest) (short : additional.length ≤ maxInputLength) :
    Ends live auxiliary kind [chunk.length] additional o := by
  cases attempted with
  | served asked =>
    obtain ⟨still, -⟩ := healthy.asked dependable fits short asked
    exact .inl ⟨rfl, still⟩
  | failed asked =>
    obtain ⟨fault, rfl, stumbled⟩ := healthy.raised dependable fits short asked
    exact .inr ⟨fault, rfl, stumbled.kind, stumbled.raised⟩
  | unseeded asked reseeded _ =>
    obtain ⟨still, -⟩ := healthy.asked dependable fits short asked
    cases (still.reseeded dependable (Nat.zero_le _) reseeded).1
  | retried asked reseeded retried =>
    obtain ⟨still, -⟩ := healthy.asked dependable fits short asked
    obtain ⟨-, reset, again⟩ := still.reseeded dependable (Nat.zero_le _) reseeded
    have ended := retried.ends again dependable reset ((Bytes.length_overwrite ..).trans_le fits) short
    rwa [Bytes.length_overwrite] at ended

/-- Chunks within the limits end well or at a point operation. -/
theorem Fills.ends (filled : Fills additional g chunks calls o)
    (healthy : Healthy live auxiliary kind g)
    (dependable : Dependable kind.securityStrength auxiliary live)
    (fits : ∀ chunk ∈ chunks, chunk.length ≤ kind.maxRequest)
    (short : additional.length ≤ maxInputLength) :
    Ends live auxiliary kind (chunks.map List.length) additional o := by
  induction filled with
  | nil g => exact .inl ⟨rfl, healthy⟩
  | @stopped g chunk rest calls o cause attempted failure =>
    have ended := attempted.ends healthy dependable (fits _ (List.mem_cons_self ..)) short
    have listed : [chunk.length] ⊆ (chunk :: rest).map List.length := by simp
    obtain ⟨success, -⟩ | fault := ended.mono listed
    · cases failure.symm.trans success
    · exact .inr fault
  | cons attempted success _ ih =>
    have first := fits _ (List.mem_cons_self ..)
    obtain ⟨-, still⟩ | ⟨fault, failed, -⟩ := attempted.ends healthy dependable first short
    · have later := ih still fun chunk member => fits chunk (List.mem_cons_of_mem _ member)
      exact later.mono (List.subset_cons_self ..)
    · cases success.symm.trans failed

omit [SeedSource σ ω] [Randomness ω] in
theorem Healthy.chunkLength [SeedSource σ ω] (healthy : Healthy live auxiliary kind g) :
    g.chunkLength = kind.maxRequest := by
  obtain rfl := healthy.kind
  exact max_eq_left (Algorithm.maxRequest_pos healthy.positive)

theorem Healthy.fill (healthy : Healthy live auxiliary kind g)
    (dependable : Dependable kind.securityStrength auxiliary live) (buffer : Bytes)
    (short : additional.length ≤ maxInputLength) :
    Ends live auxiliary kind ((buffer.chunks kind.maxRequest).map List.length) additional
      (g.fill buffer additional) := by
  rw [fill_of_usable healthy.usable, ← healthy.chunkLength]
  obtain ⟨calls, filled⟩ := fills additional (buffer.chunks g.chunkLength) g
  refine filled.ends healthy dependable ?_ short
  intro chunk member
  exact healthy.chunkLength ▸ Bytes.length_le_of_mem_chunks member

/-- A reseed on demand mixes in the auxiliary bytes that it draws, if there are any. -/
theorem Healthy.reseed_drawn (healthy : Healthy live auxiliary kind g)
    (dependable : Dependable kind.securityStrength auxiliary live) (additional : Bytes) :
    ∃ drawn world,
      g.reseed additional =
        { g with mechanism := { g.mechanism with world } }.reseedMechanism (additional ++ drawn) ∧
      Healthy live auxiliary kind { g with mechanism := { g.mechanism with world } } ∧
      drawn.length = (if auxiliary then blocksFor kind.securityStrength 8 else 0) ∧
      (world = g.mechanism.world ∨
        ∃ length, world = (Randomness.draw g.mechanism.world length).2) := by
  rw [Generator.reseed, if_neg (Bool.eq_false_iff.mp healthy.usable)]
  cases flag : auxiliary with
  | true =>
    have available : g.auxiliary = true := healthy.sameAuxiliary.trans flag
    obtain ⟨bytes, world, found, length, alive⟩ :=
      dependable.draw flag healthy.alive g.auxiliaryLength
    have strength : g.auxiliaryLength = blocksFor kind.securityStrength 8 := by
      obtain rfl := healthy.kind
      rfl
    have outcome : Randomness.draw g.mechanism g.auxiliaryLength =
        (.ok bytes, { g.mechanism with world }) := by
      simp only [Randomness.draw, found]
    rw [if_pos available]
    simp only [outcome]
    refine ⟨bytes, world, rfl, flag ▸ healthy.moved rfl alive, length.trans strength, .inr ?_⟩
    exact ⟨g.auxiliaryLength, by rw [found]⟩
  | false =>
    have alone : ¬ g.auxiliary = true := by
      rw [healthy.sameAuxiliary, flag]
      exact Bool.false_ne_true
    rw [if_neg alone]
    refine ⟨[], g.mechanism.world, ?_, flag ▸ healthy, rfl, .inl rfl⟩
    rw [List.append_nil]

/-- A reseed on demand ends well. -/
theorem Healthy.reseed (healthy : Healthy live auxiliary kind g)
    (dependable : Dependable kind.securityStrength auxiliary live)
    (short : additional.length + (if auxiliary then blocksFor kind.securityStrength 8 else 0) ≤
      maxInputLength) :
    Ends live auxiliary kind [] [] (g.reseed additional) := by
  obtain ⟨drawn, world, same, still, length, -⟩ := healthy.reseed_drawn dependable additional
  have fits : (additional ++ drawn).length ≤ maxInputLength := by
    rw [List.length_append, length]
    exact short
  rcases reseeded : Mechanism.reseed { g.mechanism with world } (additional ++ drawn) with
    ⟨result, m⟩
  obtain ⟨rfl, -, again⟩ := still.reseeded dependable fits reseeded
  rw [same]
  simp only [reseedMechanism, reseeded]
  exact .inl ⟨rfl, again⟩

end

end Generator

end RandomBits
