import Mathlib
import RandomBits.Entropy.Playback
import RandomBits.Proofs.ReseedCounter

/-! # What a failed call leaves behind

A call that fails does not leave a seeded core half changed. Either nothing has happened but for a
fetch that came to nothing (`Seeded.spent`), or, with prediction resistance, the reseed is complete.
Main statement: so it is in every state, whatever the source of entropy does and in whatever block a core
stops at a fault, and it stays so over failed calls in a row; a reseed whose auxiliary randomness fails does
not even reach the mechanism (`Generator.failures_are_atomic`).
-/

namespace RandomBits

/-- A logged mechanism draws from its environment, which is no call. -/
instance {μ : Type} [Randomness μ] : Randomness (Logged μ) where
  draw m length :=
    let (drawn, mechanism) := Randomness.draw m.mechanism length
    (drawn, { m with mechanism })

/-- A call may fetch a block of entropy: it is a reseed, or a request that asks for one. -/
def Call.mayFetch : Call → Bool
  | generate _ _ predictionResistant => predictionResistant
  | reseed _ => true

/-- A call ended with a failure, or with the demand for a reseed. -/
def Exchange.fails : Exchange → Bool
  | generate _ _ _ (.error _) | reseed _ (.error _) => true
  | _ => false

namespace Seeded

variable {σ ω : Type} [SeedSource σ ω]

/-- A seeded core after a fetch, with all but its source as it was. -/
def spent (s : Within (Seeded σ) ω) : Within (Seeded σ) ω :=
  let (_, source, world) := SeedSource.fetch s.value.source s.world
  ⟨{ s.value with source }, world⟩

/-- Every way in which a reseed fails, with what it leaves. -/
inductive FailsToReseed (s : Within (Seeded σ) ω) (additional : Bytes) :
    Failure → Within (Seeded σ) ω → Prop
  | refused (long : maxInputLength < additional.length) :
      FailsToReseed s additional (.refused .additionalInputTooLong) s
  | unavailable {cause : EntropyFailure} (short : additional.length ≤ maxInputLength)
      (fetched : (SeedSource.fetch s.value.source s.world).1 = .error cause) :
      FailsToReseed s additional (.entropyUnavailable cause) (spent s)
  | insufficient {block : Bytes} (short : additional.length ≤ maxInputLength)
      (fetched : (SeedSource.fetch s.value.source s.world).1 = .ok block)
      (few : 8 * block.length < s.value.securityStrength) :
      FailsToReseed s additional
        (.entropyUnavailable (.insufficient (8 * block.length) s.value.securityStrength)) (spent s)

section

variable {s next : Within (Seeded σ) ω} {length : ℕ} {additional : Bytes} {cause : Failure}
  {predictionResistant : Bool} {reply : Reply}

/-- A reseed that fails leaves the core, its counter and its interval. -/
theorem FailsToReseed.kept (failed : FailsToReseed s additional cause next) :
    next.value = { s.value with source := next.value.source } := by
  cases failed <;> rfl

/-- A reseed that fails fetches once at most. -/
theorem FailsToReseed.eq_or_spent (failed : FailsToReseed s additional cause next) :
    next = s ∨ next = spent s := by
  cases failed with
  | refused _ => exact .inl rfl
  | unavailable _ _ | insufficient _ _ _ => exact .inr rfl

theorem Reseeds.fails (reseeded : Reseeds s additional (.error cause) next) :
    FailsToReseed s additional cause next := by
  cases reseeded with
  | refused long => exact .refused long
  | @unavailable cause source world short fetched =>
    rcases fetch : SeedSource.fetch s.value.source s.world with ⟨result, rest, after⟩
    simp only [fetchSeed, fetch, Prod.mk.injEq] at fetched
    obtain ⟨checked, rfl, rfl⟩ := fetched
    have left : spent s = ⟨{ s.value with source := rest }, after⟩ := by
      simp only [spent, fetch]
    rw [← left]
    cases result with
    | error failure =>
      obtain rfl := Except.error.inj checked
      exact .unavailable short (congrArg Prod.fst fetch)
    | ok block =>
      simp only [Except.bind, checkSeed] at checked
      split at checked
      next few =>
        obtain rfl := Except.error.inj checked
        exact .insufficient short (congrArg Prod.fst fetch) few
      next => cases checked

/-- Output that fails does not move the core. -/
theorem Produces.eq_of_error {m last : Seeded σ} {failure : RequestError}
    (produced : Produces m length additional reply last) (failed : reply.result = .error failure) :
    last = m := by
  cases produced with
  | exhausted _ | faulted _ _ => rfl
  | served _ _ => cases failed

/-- A request without prediction resistance that fails leaves everything as it was. -/
theorem Serves.eq_of_error {failure : RequestError}
    (served : Serves s length additional false reply next) (failed : reply.result = .error failure) :
    next = s := by
  cases served with
  | tooLong _ _ | refused _ _ => rfl
  | direct _ _ produced => rw [produced.eq_of_error failed]

/-- A request that fails without mixing in the entropy that it asks for fetches once at most. -/
theorem Serves.eq_or_spent (served : Serves s length additional true reply next)
    (unseeded : (Exchange.generate length additional true reply.result).seeds = false) :
    next = s ∨ next = spent s := by
  cases served with
  | tooLong _ _ => exact .inl rfl
  | unseeded _ reseeded => exact reseeded.fails.eq_or_spent
  | renewed _ _ produced =>
    rw [produced.seeds] at unseeded
    cases unseeded

/-- A request with prediction resistance fails before its reseed, in it, or when it is complete. -/
theorem Serves.fails {failure : RequestError}
    (served : Serves s length additional true reply next) (failed : reply.result = .error failure) :
    s.value.maxRequest < length ∧ next = s ∨
      (∃ cause, failure = .failed cause ∧ FailsToReseed s additional cause next) ∨
      Mechanism.reseed s additional = (.ok (), next) := by
  cases served with
  | tooLong _ beyond => exact .inl ⟨beyond, rfl⟩
  | unseeded _ reseeded => exact .inr (.inl ⟨_, (Except.error.inj failed).symm, reseeded.fails⟩)
  | renewed _ reseeded produced =>
    refine .inr (.inr ?_)
    rw [produced.eq_of_error failed]
    exact reseeded.eq

end

/-- Calls in order that fail without any entropy being mixed in. -/
def Fruitless : List Call → Within (Seeded σ) ω → Prop
  | [], _ => True
  | call :: rest, s =>
    (call.exchange s).fails = true ∧ (call.exchange s).seeds = false ∧ Fruitless rest (call.serve s)

/-- A call that fails without mixing in entropy comes to nothing, or to one fetch if it may make it. -/
theorem serve_of_fruitless {s : Within (Seeded σ) ω} {call : Call}
    (fails : (call.exchange s).fails = true) (unseeded : (call.exchange s).seeds = false) :
    call.serve s = s ∨ call.mayFetch = true ∧ call.serve s = spent s := by
  cases call with
  | reseed additional =>
    rcases ran : Mechanism.reseed s additional with ⟨cause | u, next⟩
    · rw [Call.serve, ran]
      exact (reseeds ran).fails.eq_or_spent.imp_right (And.intro rfl)
    · simp [Call.exchange, ran, Exchange.fails] at fails
  | generate length additional predictionResistant =>
    rcases ran : Mechanism.generate s length additional predictionResistant with
      ⟨⟨written, failure | u⟩, next⟩
    · rw [Call.exchange, ran] at unseeded
      rw [Call.serve, ran]
      cases predictionResistant with
      | false => exact .inl ((serves ran).eq_of_error rfl)
      | true => exact ((serves ran).eq_or_spent unseeded).imp_right (And.intro rfl)
    · simp [Call.exchange, ran, Exchange.fails] at fails

/-- Fetches that come to nothing leave the core, its counter and its interval. -/
private theorem kept_of_spent (s : Within (Seeded σ) ω) (fetches : ℕ) :
    (spent^[fetches] s).value = { s.value with source := (spent^[fetches] s).value.source } := by
  induction fetches generalizing s with
  | zero => rfl
  | succ fetches ih =>
    rw [Function.iterate_succ_apply, ih]
    rfl

/-- Failed calls in a row leave a core as it was. Those that may fetch do so once at most. -/
theorem serveAll_of_fruitless {calls : List Call} {s : Within (Seeded σ) ω}
    (fruitless : Fruitless calls s) :
    ∃ fetches ≤ calls.countP Call.mayFetch, Call.serveAll calls s = spent^[fetches] s := by
  induction calls generalizing s with
  | nil => exact ⟨0, le_rfl, rfl⟩
  | cons call rest ih =>
    obtain ⟨fails, unseeded, later⟩ := fruitless
    obtain ⟨fetches, few, left⟩ := ih later
    have first : Call.serveAll (call :: rest) s = Call.serveAll rest (call.serve s) := rfl
    rw [first, left, List.countP_cons]
    rcases serve_of_fruitless fails unseeded with same | ⟨may, fetched⟩
    · exact ⟨fetches, Nat.le_add_right_of_le few, by rw [same]⟩
    · exact ⟨fetches + 1, by simp [may, few], by rw [fetched, Function.iterate_succ_apply]⟩

/-- What failed calls on a seeded core leave. -/
structure FailsWhole (s : Within (Seeded σ) ω) : Prop where
  reseed {additional : Bytes} {cause : Failure} {next : Within (Seeded σ) ω}
    (failed : Mechanism.reseed s additional = (.error cause, next)) :
    FailsToReseed s additional cause next ∧
      next.value = { s.value with source := next.value.source }
  /-- Whatever fails without prediction resistance, nothing is fetched and nothing has changed. -/
  direct {length : ℕ} {additional written : Bytes} {cause : RequestError}
    {next : Within (Seeded σ) ω}
    (failed : Mechanism.generate s length additional false = (⟨written, .error cause⟩, next)) :
    next = s
  resistant {length : ℕ} {additional written : Bytes} {failure : RequestError}
    {next : Within (Seeded σ) ω}
    (failed : Mechanism.generate s length additional true = (⟨written, .error failure⟩, next)) :
    s.value.maxRequest < length ∧ next = s ∨
      (∃ cause, failure = .failed cause ∧ FailsToReseed s additional cause next) ∨
      Mechanism.reseed s additional = (.ok (), next)
  /-- Nor have failed calls in a row changed anything, however many there are, but for fetches. -/
  row {calls : List Call} (fruitless : Fruitless calls s) :
    (Call.serveAll calls s).value = { s.value with source := (Call.serveAll calls s).value.source } ∧
      ∃ fetches ≤ calls.countP Call.mayFetch, Call.serveAll calls s = spent^[fetches] s

theorem failsWhole (s : Within (Seeded σ) ω) : FailsWhole s where
  reseed failed := by
    have failed := (reseeds failed).fails
    exact ⟨failed, failed.kept⟩
  direct failed := (serves failed).eq_of_error rfl
  resistant failed := (serves failed).fails rfl
  row fruitless := by
    obtain ⟨fetches, few, left⟩ := serveAll_of_fruitless fruitless
    exact ⟨left ▸ kept_of_spent s fetches, fetches, few, left⟩

end Seeded

namespace Generator

variable {σ ω : Type} [SeedSource σ ω] [Randomness ω]

/-- A reseed on demand that fails for want of auxiliary randomness ends with the draw. No call is
logged, the core keeps its source, and the generator stays usable. -/
def OutlivesDraw (g : Generator (Logged (Within (Seeded σ) ω))) : Prop :=
  ∀ (additional : Bytes) (cause : EntropyFailure) (world : ω),
    g.faulted = false → g.auxiliary = true →
      Randomness.draw g.mechanism.mechanism.world g.auxiliaryLength = (.error cause, world) →
        g.reseed additional =
          { buffer := [], result := .error (.entropyUnavailable cause), events := []
            generator :=
              { g with
                mechanism :=
                  { g.mechanism with mechanism := { g.mechanism.mechanism with world } } } }

theorem outlivesDraw (g : Generator (Logged (Within (Seeded σ) ω))) : g.OutlivesDraw := by
  intro additional cause world usable auxiliary failed
  have drawn : Randomness.draw g.mechanism g.auxiliaryLength =
      (.error cause, { g.mechanism with mechanism := { g.mechanism.mechanism with world } }) := by
    simp only [Randomness.draw, failed]
  simp only [reseed, usable, auxiliary, drawn, Bool.false_eq_true, if_false, if_true]

/-- A core is stopped by point operations only, in whatever block they fault, and gives back the state that
it was given beside the output of the blocks before. So failed calls on a seeded core leave no half-made
change, one by one and in a row, and a failed draw of auxiliary randomness leaves no change at all. -/
theorem failures_are_atomic :
    (∀ (c next : Core) (length counter : ℕ) (additional written : Bytes) (fault : Fault),
      c.generate length additional counter = (written, .error fault, next) ↔
        c.Stops length additional written fault ∧ next = c) ∧
      (∀ s : Within (Seeded σ) ω, Seeded.FailsWhole s) ∧
      ∀ g : Generator (Logged (Within (Seeded σ) ω)), g.OutlivesDraw :=
  ⟨fun _ _ _ _ _ _ _ => Core.stops_iff, Seeded.failsWhole, outlivesDraw⟩

/-- A scalar that is the group order of P-256 has no point to go to. With it a request fails, and so do a
reseed and a request with prediction resistance behind it, as the recording has ended. No recording shares
randomness. -/
theorem failures_are_atomic_infinity :
    let core := Core.dualEc ⟨.sha256, .p256, Bytes.ofNat 32 Curve.p256.order⟩
    let source : Player := ⟨.blocks [], none, 0⟩
    let s : Within (Seeded Player) Playback :=
      ⟨⟨core, source, 128, 3, 10⟩, { recording := .blocks [] }⟩
    let g : Generator (Logged (Within (Seeded Player) Playback)) := ⟨⟨s, []⟩, true, false, false⟩
    let calls := [.generate 40 [] false, .reseed [1], .generate 40 [2] true]
    core.generate 40 [] 4 = ([], .error .pointAtInfinity, core) ∧
      (∃ written, Mechanism.generate s 40 [] false =
        (⟨written, .error (.failed (.faulted .pointAtInfinity))⟩, s)) ∧
      (∃ fetches ≤ 2, Call.serveAll calls s = Seeded.spent^[fetches] s) ∧
      g.reseed [7] = ⟨[], .error (.entropyUnavailable .exhausted), [], g⟩ := by
  intro core source s g calls
  obtain ⟨stops, whole, outlives⟩ := @failures_are_atomic Player Playback _ _
  have raised : Curve.p256.xOfP (Bytes.ofNat 32 Curve.p256.order) = .error .pointAtInfinity := by
    decide +kernel
  have stopped : core.generate 40 [] 4 = ([], .error .pointAtInfinity, core) :=
    (stops core core 40 4 [] [] .pointAtInfinity).mpr ⟨⟨[], .step raised, rfl⟩, rfl⟩
  refine ⟨stopped, ?_, ?_, ?_⟩
  · have faulted : (Mechanism.generate s 40 [] false).1.result =
        .error (.failed (.faulted .pointAtInfinity)) := by decide +kernel
    rcases ran : Mechanism.generate s 40 [] false with ⟨⟨written, result⟩, next⟩
    rw [ran] at faulted
    subst faulted
    exact ⟨written, by rw [(whole s).direct ran]⟩
  · have fruitless : Seeded.Fruitless calls s := by
      refine ⟨?_, ?_, ?_, ?_, ?_, ?_, trivial⟩ <;> decide +kernel
    exact ((whole s).row fruitless).2
  · exact outlives g [7] .exhausted _ rfl rfl rfl

end Generator

end RandomBits
