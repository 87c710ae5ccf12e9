import Mathlib
import RandomBits.Entropy.Playback
import RandomBits.Entropy.Pooled
import RandomBits.Proofs.Tally

/-! # What is public of a session

A session is observed after every step: the answer, the events, what was asked of the environment,
and the fault flag and the reseed counter of every generator. Sessions that do the same with
different secrets, in environments that only differ in the bytes of their entropy, are observed
alike (`Session.secrets_unobserved`): where requests are counted, nothing but output bytes depends
on secrets. Played-back entropy and pooled patterns are examples of such environments.
-/

namespace RandomBits

/-- Changes of the same setting, which differ at most in a personalization string. -/
inductive Setting.Alike (v : View) : Setting → Setting → Prop
  | personalization {value other : Bytes} (strings : v.like value other) :
      Alike v (.personalization value) (.personalization other)
  | securityStrength (value : ℕ) : Alike v (.securityStrength value) (.securityStrength value)
  | entropyBits (value : ℕ) : Alike v (.entropyBits value) (.entropyBits value)
  | reseedInterval (value : ℕ) : Alike v (.reseedInterval value) (.reseedInterval value)
  | all {value other : Config} (configs : Config.Alike v value other) :
      Alike v (.all value) (.all other)

theorem Config.Alike.apply {v : View} {c d : Config} {setting other : Setting}
    (alike : Config.Alike v c d) (settings : Setting.Alike v setting other) :
    Config.Alike v (setting.apply c) (other.apply d) := by
  cases settings with
  | personalization strings => exact { alike with personalization := .some strings }
  | securityStrength value => exact { alike with securityStrength := rfl }
  | entropyBits value => exact { alike with entropyBits := rfl }
  | reseedInterval value => exact { alike with reseedInterval := rfl }
  | all configs => exact configs

/-- Steps of the same kind whose arguments look alike, and that build admitted algorithms only. -/
inductive Step.Alike (v : CoreView) : Step → Step → Prop
  | configure {setting other : Setting} (settings : Setting.Alike v.toView setting other) :
      Alike v (.configure setting) (.configure other)
  | config : Alike v .config .config
  | describe : Alike v .describe .describe
  | requested : Alike v .requested .requested
  | build {order : Order} {nonce other : Bytes} (admitted : v.Admits order)
      (nonces : v.like nonce other) (predictionResistant : Bool) :
      Alike v (.build order nonce predictionResistant) (.build order other predictionResistant)
  | use (slot : ℕ) {operation other : Operation} (operations : operation.Alike v.toView other) :
      Alike v (.use slot operation) (.use slot other)

/-- Answers that differ at most in output bytes, or give back a personalization string. -/
inductive StepAnswer.Alike (v : View) : StepAnswer → StepAnswer → Prop
  | done : Alike v .done .done
  | config {value other : Config} (configs : Config.Alike v value other) :
      Alike v (.config value) (.config other)
  | text {b c : Builder} (builders : Builder.Alike v b c) :
      Alike v (.text b.describe) (.text c.describe)
  | requested (sizes : List ℕ) : Alike v (.requested sizes) (.requested sizes)
  | built (result : Except Failure Instantiation) : Alike v (.built result) (.built result)
  | noGenerator : Alike v .noGenerator .noGenerator
  | used {answer other : Answer} (answers : answer.Alike v other) (faulted : Bool) :
      Alike v (.used answer faulted) (.used other faulted)

structure Observation where
  answer : StepAnswer
  events : List Event
  /-- The number of fetches up to now. -/
  fetches : ℕ
  /-- The number of draws of auxiliary randomness up to now. -/
  draws : ℕ
  /-- The fault flag and the reseed counter of the generator in every slot. -/
  generators : List (Option (Bool × ℕ))

/-- Observations that differ at most in what answers may differ in. -/
structure Observation.Alike (v : View) (first second : Observation) : Prop where
  answer : first.answer.Alike v second.answer
  events : second.events = first.events
  fetches : second.fetches = first.fetches
  draws : second.draws = first.draws
  generators : second.generators = first.generators

namespace Session

variable {σ τ ω χ : Type}

/-- The fault flag and the reseed counter of the generator in every slot. -/
def status (s : Session σ ω) : List (Option (Bool × ℕ)) :=
  s.slots.map fun slot => slot.map fun g => (g.faulted, g.mechanism.counter)

def observe [SeedProvider ω σ] [Randomness ω] :
    List Step → Session σ (Tallied ω) → List Observation
  | [], _ => []
  | step :: rest, s =>
    let (answer, events, s) := s.step step
    { answer, events, fetches := s.world.fetches, draws := s.world.draws, generators := s.status } ::
      observe rest s

/-- An observer of a run sees its answers. -/
theorem answers_eq_observe [SeedProvider ω σ] [Randomness ω] (steps : List Step)
    (s : Session σ (Tallied ω)) :
    (run steps s).1 = (observe steps s).map fun o => (o.answer, o.events, o.fetches + o.draws) := by
  induction steps generalizing s with
  | nil => rfl
  | cons step rest ih =>
    simp only [run, observe, List.map_cons, ih]
    rfl

/-- Sessions with builders that look alike, in related environments that were asked for the same,
with generators that are alike. -/
structure Alike (v : CoreView) (auxiliary : Bool) (sources : σ → τ → Prop) (worlds : ω → χ → Prop)
    (s : Session σ (Tallied ω)) (t : Session τ (Tallied χ)) : Prop where
  builder : Builder.Alike v.toView s.builder t.builder
  flag : s.builder.auxiliary = auxiliary
  world : Tallied.Alike worlds s.world t.world
  slots : List.Forall₂ (Option.Rel (Generator.Alike auxiliary (Seeded.Alike v sources))) s.slots t.slots

variable {v : CoreView} {auxiliary : Bool} {sources : σ → τ → Prop} {worlds : ω → χ → Prop}

private theorem rel_join {α β : Type} {R : α → β → Prop} {first : List (Option α)}
    {second : List (Option β)} (related : List.Forall₂ (Option.Rel R) first second) (i : ℕ) :
    Option.Rel R first[i]?.join second[i]?.join := by
  induction related generalizing i with
  | nil => exact .none
  | cons head _ ih =>
    cases i with
    | zero => exact head
    | succ i => exact ih i

private theorem forall₂_set {α β : Type} {R : α → β → Prop} {first : List α} {second : List β} {a : α}
    {b : β} (related : List.Forall₂ R first second) (both : R a b) (i : ℕ) :
    List.Forall₂ R (first.set i a) (second.set i b) := by
  induction related generalizing i with
  | nil => exact .nil
  | cons head tail ih =>
    cases i with
    | zero => exact .cons both tail
    | succ i => exact .cons head (ih i)

theorem Alike.status {s : Session σ (Tallied ω)} {t : Session τ (Tallied χ)}
    (alike : Alike v auxiliary sources worlds s t) : t.status = s.status := by
  have slots := alike.slots
  unfold Session.status
  generalize s.slots = first at slots
  generalize t.slots = second at slots
  induction slots with
  | nil => rfl
  | cons head _ ih =>
    rw [List.map_cons, List.map_cons, ih]
    cases head with
    | none => rfl
    | some same =>
      rw [Option.map_some, Option.map_some, same.faulted, same.mechanism.counter]

variable [SeedProvider ω σ] [SeedProvider χ τ] [Randomness ω] [Randomness χ]
  {s : Session σ (Tallied ω)} {t : Session τ (Tallied χ)}

/-- Steps that look alike have answers that look alike and the same events, and sessions stay
alike. -/
theorem Alike.step (alike : Alike v auxiliary sources worlds s t)
    (coupling : Coupling v.toView auxiliary sources worlds) {step other : Step}
    (steps : step.Alike v other) :
    (s.step step).1.Alike v.toView (t.step other).1 ∧
      (t.step other).2.1 = (s.step step).2.1 ∧
      Alike v auxiliary sources worlds (s.step step).2.2 (t.step other).2.2 := by
  cases steps with
  | configure settings =>
    have configs := alike.builder.config.apply settings
    exact ⟨.done, rfl, { alike with builder := ⟨configs, alike.builder.auxiliary⟩ }⟩
  | config => exact ⟨.config alike.builder.config, rfl, alike⟩
  | describe => exact ⟨.text alike.builder, rfl, alike⟩
  | requested =>
    have same : Metered.requested t.world = Metered.requested s.world := alike.world.requested
    simp only [Session.step, same]
    exact ⟨.requested _, trivial, alike⟩
  | @build order nonce other admitted nonces predictionResistant =>
    obtain ⟨agree, events, after⟩ := coupling.tallied.build alike.builder alike.flag alike.world
      nonces admitted predictionResistant
    simp only [Session.step, events]
    generalize (s.builder.build order nonce predictionResistant s.world).1 = first at agree
    generalize (t.builder.build order other predictionResistant t.world).1 = second at agree
    have slots (slot other) (same : Option.Rel
        (Generator.Alike auxiliary (Seeded.Alike v sources)) slot other) :
        List.Forall₂ (Option.Rel (Generator.Alike auxiliary (Seeded.Alike v sources)))
          (s.slots ++ [slot]) (t.slots ++ [other]) :=
      List.rel_append alike.slots (.cons same .nil)
    cases agree with
    | error cause =>
      exact ⟨.built _, trivial, alike.builder, alike.flag, after, slots _ _ .none⟩
    | ok generators =>
      simp only [Except.map, generators.mechanism.properties]
      exact ⟨.built _, trivial, alike.builder, alike.flag, after, slots _ _ (.some generators)⟩
  | use slot operations =>
    have found := rel_join alike.slots slot
    simp only [Session.step]
    generalize s.slots[slot]?.join = first at found
    generalize t.slots[slot]?.join = second at found
    cases found with
    | none => exact ⟨.noGenerator, rfl, alike⟩
    | some generators =>
      obtain ⟨answers, events, after, world⟩ :=
        coupling.tallied.useGenerator generators alike.world operations
      have slots := forall₂_set alike.slots (.some after) slot
      dsimp only
      rw [after.faulted, events]
      exact ⟨.used answers _, rfl, alike.builder, alike.flag, world, slots⟩

/-- Steps that look alike are observed alike, one by one. -/
theorem Alike.observe (alike : Alike v auxiliary sources worlds s t)
    (coupling : Coupling v.toView auxiliary sources worlds) {steps others : List Step}
    (same : List.Forall₂ (Step.Alike v) steps others) :
    List.Forall₂ (Observation.Alike v.toView) (Session.observe steps s)
      (Session.observe others t) := by
  induction same generalizing s t with
  | nil => exact .nil
  | cons head _ ih =>
    obtain ⟨answers, events, after⟩ := alike.step coupling head
    refine .cons ?_ (ih after)
    exact ⟨answers, events, after.world.fetches, after.world.draws, after.status⟩

end Session

/-- Recordings whose blocks look alike, and that end at the same position. -/
def Recording.Alike (v : View) (r s : Recording) : Prop :=
  ∀ position, Option.Rel v.like (r.block? position) (s.block? position)

theorem Recording.alike_blocks {v : View} {list other : List Bytes}
    (related : List.Forall₂ v.like list other) : (blocks list).Alike v (blocks other) := by
  intro position
  simp only [block?]
  induction related generalizing position with
  | nil => exact .none
  | cons head _ ih =>
    cases position with
    | zero => exact .some head
    | succ position => exact ih position

/-- Sources at the same position of recordings that look alike, with the same staged failure. -/
structure Player.Alike (v : View) (p q : Player) : Prop where
  recording : p.recording.Alike v q.recording
  failOn : q.failOn = p.failOn
  position : q.position = p.position

/-- Providers of recordings that look alike, with the same staged failures. -/
structure Playback.Alike (v : View) (w x : Playback) : Prop where
  recording : w.recording.Alike v x.recording
  failOn : x.failOn = w.failOn
  refusal : x.refusal = w.refusal

/-- Recordings that look alike are played back alike. -/
theorem Playback.coupling (v : View) (auxiliary : Bool) :
    Coupling v auxiliary (Player.Alike v) (Playback.Alike v) where
  fetch {p q w x} related coupled := by
    have moved : Player.Alike v { p with position := p.position + 1 }
        { q with position := q.position + 1 } :=
      { related with position := congrArg (· + 1) related.position }
    refine ⟨?_, moved, coupled.recording, coupled.failOn, coupled.refusal⟩
    have blocks := related.recording p.position
    change Agree v.like p.next q.next
    simp only [Player.next, related.failOn, related.position]
    split
    · exact .error stagedFailure
    generalize p.recording.block? p.position = block at blocks
    generalize q.recording.block? p.position = other at blocks
    cases blocks with
    | none => exact .error _
    | some alike => exact .ok alike
  draw _ coupled _ := ⟨.error _, coupled⟩
  get {w x} coupled bits := by
    change Agree _ (w.get bits).1 (x.get bits).1 ∧ Playback.Alike v (w.get bits).2 (x.get bits).2
    simp only [Playback.get, coupled.refusal]
    split
    · exact ⟨.error _, coupled.recording, coupled.failOn, rfl⟩
    · have fresh : Player.Alike v ⟨w.recording, w.failOn, 0⟩ ⟨x.recording, x.failOn, 0⟩ :=
        ⟨coupled.recording, coupled.failOn, rfl⟩
      exact ⟨.ok fresh, coupled.recording, coupled.failOn, rfl⟩

/-- Pools that claim the same of their fetches, over related randomness. -/
structure Pooled.Alike {ρ κ : Type} (R : ρ → κ → Prop) (p : Pooled ρ) (q : Pooled κ) : Prop where
  predictionResistant : q.predictionResistant = p.predictionResistant
  randomness : R p.randomness q.randomness

/-- Pools over randomness that is drawn alike are coupled. -/
theorem Pooled.coupling {ρ κ : Type} [Randomness ρ] [Randomness κ] {v : View} {R : ρ → κ → Prop}
    (auxiliary : Bool)
    (draws : ∀ {r : ρ} {k : κ}, R r k → ∀ length,
      Agree v.like (Randomness.draw r length).1 (Randomness.draw k length).1 ∧
        R (Randomness.draw r length).2 (Randomness.draw k length).2) :
    Coupling v auxiliary Eq (Pooled.Alike R) where
  fetch {source other w x} related coupled := by
    obtain ⟨agree, after⟩ := draws coupled.randomness (blocksFor source.bits 8)
    subst related
    exact ⟨agree, rfl, coupled.predictionResistant, after⟩
  draw _ coupled length := by
    obtain ⟨agree, after⟩ := draws coupled.randomness length
    exact ⟨agree, coupled.predictionResistant, after⟩
  get {w x} coupled bits := by
    change Agree Eq (w.get bits).1 (x.get bits).1 ∧ Pooled.Alike R (w.get bits).2 (x.get bits).2
    simp only [Pooled.get, coupled.predictionResistant]
    split
    · exact ⟨.error _, coupled⟩
    · exact ⟨.ok rfl, coupled⟩

/-- Patterns that have answered equally many calls, the same of which fails. -/
structure Pattern.Alike (p q : Pattern) : Prop where
  failOn : q.failOn = p.failOn
  calls : q.calls = p.calls

/-- Patterns with different seeds cannot be told apart by lengths. -/
theorem Pattern.draws {p q : Pattern} (alike : Pattern.Alike p q) (length : ℕ) :
    Agree View.lengths.like (Randomness.draw p length).1 (Randomness.draw q length).1 ∧
      Pattern.Alike (Randomness.draw p length).2 (Randomness.draw q length).2 := by
  change Agree View.lengths.like (p.draw length).1 (q.draw length).1 ∧
    Pattern.Alike (p.draw length).2 (q.draw length).2
  simp only [Pattern.draw, alike.failOn, alike.calls]
  split
  · exact ⟨.error _, rfl, rfl⟩
  · have same : View.lengths.like (p.bytes length) (q.bytes length) := by
      change (p.bytes length).length = (q.bytes length).length
      simp only [Pattern.bytes, List.length_map, List.length_range]
    exact ⟨.ok same, rfl, rfl⟩

namespace Session

variable {σ τ ω χ : Type} [SeedProvider ω σ] [SeedProvider χ τ] [Randomness ω] [Randomness χ]
  {sources : σ → τ → Prop} {worlds : ω → χ → Prop} {b c : Builder} {w : ω} {x : χ}
  {steps others : List Step}

/-- Nothing public depends on secrets. Let two sessions start with the same settings, take the same
steps and build generators that count requests. Their personalization strings, nonces, additional
inputs and buffers may differ in all but their lengths, and so may what their environments yield.
Then they are observed alike: they succeed and fail alike, report the same events, disable the same
generators, and have the same counters and the same number of fetches and draws after every step. -/
theorem secrets_unobserved (coupling : Coupling View.lengths b.auxiliary sources worlds)
    (coupled : worlds w x) (builders : Builder.Alike View.lengths b c)
    (same : List.Forall₂ (Step.Alike CoreView.lengths) steps others) :
    List.Forall₂ (Observation.Alike View.lengths)
      (observe steps { builder := b, world := { world := w } })
      (observe others { builder := c, world := { world := x } }) := by
  have start : Alike CoreView.lengths b.auxiliary sources worlds
      { builder := b, world := { world := w } } { builder := c, world := { world := x } } :=
    { builder := builders
      flag := rfl
      world := ⟨coupled, rfl, rfl, rfl⟩
      slots := .nil }
  exact start.observe coupling same

/-- Two pools, whose draws fail at the sixth: a request takes an automatic reseed, one on demand draws
auxiliary randomness, and a last reseed fails. And two recordings, whose second fetch fails, so that the
automatic reseed does. -/
theorem secrets_unobserved_pools_and_recordings :
    let b (value : UInt8) : Builder :=
      { config := { personalization := some [value], reseedInterval := some 1 }, auxiliary := true }
    let pool (seed : ℕ) : Pooled Pattern := { randomness := { seed, failOn := some 6 } }
    let recorded (value : UInt8) : Playback :=
      { recording := .blocks [List.replicate 32 value, [value, 1]], failOn := some 2 }
    let steps (value : UInt8) : List Step :=
      [.describe, .build (.hmac .sha256) [value] false, .use 0 (.fill [value] [value, 1]),
        .use 0 (.word 4), .use 0 (.reseed [value]), .use 0 (.generate 3 [value]),
        .use 0 (.reseed [value]), .use 0 .properties]
    Coupling View.lengths true Eq (Pooled.Alike Pattern.Alike) ∧
      Pooled.Alike Pattern.Alike (pool 1) (pool 2) ∧
      Playback.Alike View.lengths (recorded 1) (recorded 2) ∧
      Builder.Alike View.lengths (b 7) (b 8) ∧
      List.Forall₂ (Step.Alike CoreView.lengths) (steps 7) (steps 8) ∧
      List.Forall₂ (Observation.Alike View.lengths)
        (observe (steps 7) { builder := b 7, world := { world := pool 1 } })
        (observe (steps 8) { builder := b 8, world := { world := pool 2 } }) ∧
      List.Forall₂ (Observation.Alike View.lengths)
        (observe (steps 7) { builder := b 7, world := { world := recorded 1 } })
        (observe (steps 8) { builder := b 8, world := { world := recorded 2 } }) := by
  intro b pool recorded steps
  have coupling := Pooled.coupling true Pattern.draws
  have builders : Builder.Alike View.lengths (b 7) (b 8) := ⟨⟨.some rfl, rfl, rfl, rfl⟩, rfl⟩
  have pools : Pooled.Alike Pattern.Alike (pool 1) (pool 2) := ⟨rfl, rfl, rfl⟩
  have recordings : Playback.Alike View.lengths (recorded 1) (recorded 2) :=
    ⟨Recording.alike_blocks (.cons rfl (.cons rfl .nil)), rfl, rfl⟩
  have counts : (Order.hmac .sha256).CountsRequests := trivial
  have byte : CoreView.lengths.like [7] [8] := rfl
  have two : CoreView.lengths.like [7, 1] [8, 1] := rfl
  have same : List.Forall₂ (Step.Alike CoreView.lengths) (steps 7) (steps 8) :=
    .cons .describe <| .cons (.build (CoreView.lengths_admits counts) byte false) <|
      .cons (.use 0 (.fill byte two)) <| .cons (.use 0 (.word 4)) <|
      .cons (.use 0 (.reseed byte)) <| .cons (.use 0 (.generate 3 byte)) <|
      .cons (.use 0 (.reseed byte)) <| .cons (.use 0 .properties) .nil
  exact ⟨coupling, pools, recordings, builders, same,
    secrets_unobserved coupling pools builders same,
    secrets_unobserved (Playback.coupling View.lengths true) recordings builders same⟩

end Session

end RandomBits
