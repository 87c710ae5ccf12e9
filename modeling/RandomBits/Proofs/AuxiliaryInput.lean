import Mathlib
import RandomBits.Entropy.Pattern
import RandomBits.Mechanism.Scripted
import RandomBits.Proofs.Likeness

/-! # Auxiliary randomness is appended additional input

A generator with auxiliary randomness is compared to its sibling without. `Watched` keeps one record of
the calls to a mechanism and the draws of randomness, so that it can be said which came first. Every
operation on the one has a counterpart on the other, where drawn bytes stand behind the additional
input of a reseed; a reseed whose draw fails has none. Main statement: on the counterparts of a run,
the sibling goes through the same (`Generator.auxiliary_appended`).
-/

namespace RandomBits

/-- Something that a generator does: it calls its mechanism, or it draws auxiliary bytes. -/
inductive Deed
  | call (exchange : Exchange)
  | draw (length : ℕ) (result : Except EntropyFailure Bytes)

def Deed.isCall : Deed → Bool
  | call _ => true
  | draw _ _ => false

/-- A mechanism beside randomness that it has no part in, with all that was done to both, in order. -/
structure Watched (μ ρ : Type) where
  mechanism : μ
  randomness : ρ
  deeds : List Deed := []

instance {μ ρ : Type} [Mechanism μ] : Mechanism (Watched μ ρ) where
  generate m length additional predictionResistant :=
    let (reply, mechanism) :=
      Mechanism.generate m.mechanism length additional predictionResistant
    let exchange := Exchange.generate length additional predictionResistant reply.result
    (reply, { m with mechanism, deeds := m.deeds ++ [.call exchange] })
  reseed m additional :=
    let (result, mechanism) := Mechanism.reseed m.mechanism additional
    (result, { m with mechanism, deeds := m.deeds ++ [.call (.reseed additional result)] })
  blockBits m := Mechanism.blockBits m.mechanism
  securityStrength m := Mechanism.securityStrength m.mechanism
  maxRequest m := Mechanism.maxRequest m.mechanism

instance {μ ρ : Type} [Randomness ρ] : Randomness (Watched μ ρ) where
  draw m length :=
    let (result, randomness) := Randomness.draw m.randomness length
    (result, { m with randomness, deeds := m.deeds ++ [.draw length result] })

/-- Draws that succeed yield as many bytes as were asked for. -/
def Randomness.Exact (ρ : Type) [Randomness ρ] : Prop :=
  ∀ (r next : ρ) (length : ℕ) (bytes : Bytes),
    draw r length = (.ok bytes, next) → bytes.length = length

/-! ## The flag for auxiliary randomness -/

section

variable {μ : Type}

def Generator.withAuxiliary (g : Generator μ) (auxiliary : Bool) : Generator μ := { g with auxiliary }

def Outcome.withAuxiliary (o : Outcome μ) (auxiliary : Bool) : Outcome μ :=
  { o with generator := o.generator.withAuxiliary auxiliary }

namespace Generator

variable (g : Generator μ) (auxiliary : Bool)

private theorem fail_withAuxiliary (buffer : Bytes) (cause : Failure) :
    (g.withAuxiliary auxiliary).fail buffer cause = (g.fail buffer cause).withAuxiliary auxiliary := by
  cases cause <;> rfl

variable [Mechanism μ] (additional chunk : Bytes)

private theorem retryChunk_withAuxiliary : (g.withAuxiliary auxiliary).retryChunk additional chunk =
    (g.retryChunk additional chunk).withAuxiliary auxiliary := by
  simp only [retryChunk, withAuxiliary]
  split
  · rfl
  · exact fail_withAuxiliary { g with mechanism := _ } ..
  · exact fail_withAuxiliary { g with mechanism := _ } ..

private theorem fillChunk_withAuxiliary : (g.withAuxiliary auxiliary).fillChunk additional chunk =
    (g.fillChunk additional chunk).withAuxiliary auxiliary := by
  have failed (m : μ) := fail_withAuxiliary { g with mechanism := m } auxiliary
  have retried (m : μ) := retryChunk_withAuxiliary { g with mechanism := m } auxiliary additional
  simp only [withAuxiliary] at failed retried
  simp only [fillChunk, withAuxiliary]
  split
  · rfl
  · exact failed ..
  · split
    · rw [failed]
      rfl
    · rw [retried]
      rfl

private theorem fillChunks_withAuxiliary (chunks : List Bytes) :
    fillChunks additional chunks (g.withAuxiliary auxiliary) =
      (fillChunks additional chunks g).withAuxiliary auxiliary := by
  induction chunks generalizing g with
  | nil => rfl
  | cons chunk rest ih =>
    simp only [fillChunks, fillChunk_withAuxiliary, Outcome.withAuxiliary, ih]
    split <;> rfl

theorem fill_withAuxiliary (buffer : Bytes) :
    (g.withAuxiliary auxiliary).fill buffer additional =
      (g.fill buffer additional).withAuxiliary auxiliary := by
  unfold fill
  change (if g.faulted = true then _ else _) = _
  split
  · rfl
  · exact fillChunks_withAuxiliary ..

private theorem reseedMechanism_withAuxiliary : (g.withAuxiliary auxiliary).reseedMechanism additional =
    (g.reseedMechanism additional).withAuxiliary auxiliary := by
  simp only [reseedMechanism, withAuxiliary]
  split
  · exact fail_withAuxiliary { g with mechanism := _ } ..
  · rfl

end Generator

end

/-! ## Runs as scenes -/

/-- An operation on a generator, with everything that came of it. -/
structure Scene (μ ρ : Type) where
  before : Generator (Watched μ ρ)
  operation : Operation
  answer : Answer
  events : List Event
  after : Generator (Watched μ ρ)

def Scene.deeds {μ ρ : Type} (s : Scene μ ρ) : List Deed :=
  s.after.mechanism.deeds.drop s.before.mechanism.deeds.length

/-- What there is to do instead without auxiliary randomness: auxiliary bytes are given along, and
nothing is done where they could not be had. -/
def Scene.counterpart {μ ρ : Type} (s : Scene μ ρ) : Option Operation :=
  match s.operation, s.deeds with
  | .reseed additional, .draw _ (.ok bytes) :: _ => some (.reseed (additional ++ bytes))
  | .reseed _, .draw _ (.error _) :: _ => none
  | operation, _ => some operation

namespace Generator

variable {μ ρ τ : Type} [Mechanism μ] [Randomness ρ]

def scene (g : Generator (Watched μ ρ)) (operation : Operation) : Scene μ ρ :=
  let (answer, events, after) := g.apply operation
  { before := g, operation, answer, events, after }

def scenes : List Operation → Generator (Watched μ ρ) → List (Scene μ ρ)
  | [], _ => []
  | operation :: rest, g => g.scene operation :: scenes rest (g.scene operation).after

/-- The scenes of a run show its answers and its events. -/
theorem run_eq_scenes (operations : List Operation) (g : Generator (Watched μ ρ)) :
    (run operations g).1 = (g.scenes operations).map Scene.answer ∧
      (run operations g).2.1 = (g.scenes operations).flatMap Scene.events := by
  induction operations generalizing g with
  | nil => exact ⟨rfl, rfl⟩
  | cons operation rest ih =>
    obtain ⟨answers, events⟩ := ih (g.scene operation).after
    exact ⟨congrArg (_ :: ·) answers, congrArg (_ ++ ·) events⟩

/-- Two generators in one state, of which only the first has auxiliary randomness. -/
structure Siblings (g : Generator (Watched μ ρ)) (h : Generator (Watched μ τ)) : Prop where
  aided : g.auxiliary = true
  unaided : h.auxiliary = false
  predictionResistant : h.predictionResistant = g.predictionResistant
  faulted : h.faulted = g.faulted
  mechanism : h.mechanism.mechanism = g.mechanism.mechanism

end Generator

namespace Scene

variable {μ ρ τ : Type} [Mechanism μ] [Randomness ρ]

/-- The number of bytes that hold as many bits as the security strength at the beginning of a scene. -/
def strengthBytes (s : Scene μ ρ) : ℕ :=
  blocksFor (Mechanism.securityStrength s.before.mechanism.mechanism) 8

/-- The ways to deal with auxiliary randomness in a scene. -/
inductive Draws (s : Scene μ ρ) : Prop
  /-- Only a reseed on demand of a usable generator draws. -/
  | spared (other : (∀ additional, s.operation ≠ .reseed additional) ∨ s.before.faulted = true)
      {calls : List Exchange} (deeds : s.deeds = calls.map .call)
      (randomness : s.after.mechanism.randomness = s.before.mechanism.randomness)
  /-- A draw fails before the mechanism is called, and the reseed has no other effect. -/
  | failed {additional : Bytes} {cause : EntropyFailure} (asked : s.operation = .reseed additional)
      (usable : s.before.faulted = false)
      (deeds : s.deeds = [.draw s.strengthBytes (.error cause)])
      (answer : s.answer = .done (.error (.entropyUnavailable cause))) (events : s.events = [])
      (faulted : s.after.faulted = false)
      (mechanism : s.after.mechanism.mechanism = s.before.mechanism.mechanism)
  /-- The drawn bytes are behind the additional input of the one call that follows. -/
  | appended {additional bytes : Bytes} {result : Except Failure Unit}
      (asked : s.operation = .reseed additional) (usable : s.before.faulted = false)
      (deeds : s.deeds =
        [.draw s.strengthBytes (.ok bytes), .call (.reseed (additional ++ bytes) result)])
      (whole : Randomness.Exact ρ → bytes.length = s.strengthBytes)

/-- A scene on the sibling, which goes through the same without drawing anything. The descriptions of
the generators tell which of them has auxiliary randomness, and differ in nothing else. -/
structure Mirrors (s : Scene μ ρ) (t : Scene μ τ) : Prop where
  before : s.before.Siblings t.before
  operation : s.counterpart = some t.operation
  answer : t.answer =
    if s.operation = .describe then .text (s.before.withAuxiliary false).describe else s.answer
  events : t.events = s.events
  deeds : t.deeds = s.deeds.filter Deed.isCall
  randomness : t.after.mechanism.randomness = t.before.mechanism.randomness
  after : s.after.Siblings t.after

section

omit [Mechanism μ] [Randomness ρ]

variable {s : Scene μ ρ} {calls : List Exchange} {rest : List Deed} {length : ℕ} {additional : Bytes}

private theorem deeds_of_append {done : List Deed}
    (grown : s.after.mechanism.deeds = s.before.mechanism.deeds ++ done) : s.deeds = done := by
  rw [deeds, grown, List.drop_left]

private theorem counterpart_of_calls (only : s.deeds = calls.map .call) :
    s.counterpart = some s.operation := by
  unfold counterpart
  rw [only]
  generalize s.operation = operation
  cases calls with
  | nil | cons call rest => cases operation <;> rfl

private theorem counterpart_of_failed {cause : EntropyFailure} (asked : s.operation = .reseed additional)
    (failed : s.deeds = .draw length (.error cause) :: rest) : s.counterpart = none := by
  simp only [counterpart, asked, failed]

private theorem counterpart_of_drawn {bytes : Bytes} (asked : s.operation = .reseed additional)
    (drawn : s.deeds = .draw length (.ok bytes) :: rest) :
    s.counterpart = some (.reseed (additional ++ bytes)) := by
  simp only [counterpart, asked, drawn]

end

end Scene

/-- Two mechanisms of one state that came from `m₀` and `n₀` by the same calls and without a draw. -/
structure Watched.Since {μ ρ τ : Type} (m₀ : Watched μ ρ) (n₀ : Watched μ τ) (m : Watched μ ρ)
    (n : Watched μ τ) : Prop where
  mechanism : n.mechanism = m.mechanism
  deeds : ∃ calls : List Exchange,
    m.deeds = m₀.deeds ++ calls.map .call ∧ n.deeds = n₀.deeds ++ calls.map .call
  randomness : m.randomness = m₀.randomness
  unused : n.randomness = n₀.randomness

namespace Watched.Since

variable {μ ρ τ : Type} {m₀ m next : Watched μ ρ} {n₀ n last : Watched μ τ}

theorem refl (same : n₀.mechanism = m₀.mechanism) : Since m₀ n₀ m₀ n₀ where
  mechanism := same
  deeds := ⟨[], (List.append_nil _).symm, (List.append_nil _).symm⟩
  randomness := rfl
  unused := rfl

/-- One more call, which leads both mechanisms to the same state. -/
private theorem called (since : Since m₀ n₀ m n) (mechanism : μ) (exchange : Exchange) :
    Since m₀ n₀ { m with mechanism, deeds := m.deeds ++ [.call exchange] }
      { n with mechanism, deeds := n.deeds ++ [.call exchange] } := by
  obtain ⟨calls, first, second⟩ := since.deeds
  refine ⟨rfl, ⟨calls ++ [exchange], ?_, ?_⟩, since.randomness, since.unused⟩
  · simp [first]
  · simp [second]

/-- Where there is no auxiliary randomness, mechanisms of one state are called alike. -/
theorem bisimilar [Mechanism μ] [Randomness ρ] [Randomness τ] (m₀ : Watched μ ρ)
    (n₀ : Watched μ τ) : Bisimilar View.full false (Since m₀ n₀) where
  generate {m _ n length a b predictionResistant _} related inputs asked := by
    obtain rfl : a = b := inputs
    cases asked
    refine ⟨_, _, ?_, rfl, related.called _ _⟩
    simp only [Mechanism.generate, related.mechanism]
    rfl
  reseed {m _ n a b _} related inputs reseeded := by
    obtain rfl : a = b := inputs
    cases reseeded
    refine ⟨_, ?_, related.called _ _⟩
    simp only [Mechanism.reseed, related.mechanism]
    rfl
  draw available := nomatch available
  blockBits related := congrArg Mechanism.blockBits related.mechanism
  securityStrength related := congrArg Mechanism.securityStrength related.mechanism
  maxRequest related := congrArg Mechanism.maxRequest related.mechanism

end Watched.Since

/-- A draw leaves the mechanism alone. -/
theorem Watched.of_draw {μ ρ : Type} [Randomness ρ] {m next : Watched μ ρ} {length : ℕ}
    {result : Except EntropyFailure Bytes} (drawn : Randomness.draw m length = (result, next)) :
    next.mechanism = m.mechanism ∧ next.deeds = m.deeds ++ [.draw length result] ∧
      Randomness.draw m.randomness length = (result, next.randomness) := by
  cases drawn
  exact ⟨rfl, rfl, rfl⟩

namespace Generator

variable {μ ρ τ : Type} {g : Generator (Watched μ ρ)} {h : Generator (Watched μ τ)}

theorem Siblings.alike (siblings : Siblings g h) :
    Alike false (Watched.Since g.mechanism h.mechanism) (g.withAuxiliary false) h where
  mechanism := .refl siblings.mechanism
  auxiliary := rfl
  sameAuxiliary := siblings.unaided
  predictionResistant := siblings.predictionResistant
  faulted := siblings.faulted

/-- Siblings that are called alike stay siblings. -/
theorem Alike.siblings {m₀ : Watched μ ρ} {n₀ : Watched μ τ}
    (alike : Alike false (Watched.Since m₀ n₀) (g.withAuxiliary false) h)
    (aided : g.auxiliary = true) : Siblings g h where
  aided := aided
  unaided := alike.sameAuxiliary
  predictionResistant := alike.predictionResistant
  faulted := alike.faulted
  mechanism := alike.mechanism.mechanism

variable [Mechanism μ]

/-- What a reseed of the mechanism does is one call. -/
private theorem deeds_reseedMechanism (g : Generator (Watched μ ρ)) (additional : Bytes) :
    (g.reseedMechanism additional).generator.mechanism.deeds = g.mechanism.deeds ++
      [.call (.reseed additional (Mechanism.reseed g.mechanism.mechanism additional).1)] := by
  unfold reseedMechanism
  dsimp only
  split
  · rw [mechanism_fail]
    rfl
  · rfl

private theorem auxiliary_reseedMechanism (g : Generator (Watched μ ρ)) (additional : Bytes) :
    (g.reseedMechanism additional).generator.auxiliary = g.auxiliary := by
  have same := reseedMechanism_withAuxiliary g g.auxiliary additional
  exact congrArg (fun o => o.generator.auxiliary) same

variable [Randomness ρ]

/-- The flag for auxiliary randomness matters to nothing but a reseed of a usable generator, and is
told by descriptions. -/
theorem apply_withAuxiliary (g : Generator (Watched μ ρ)) (auxiliary : Bool) {operation : Operation}
    (spared : (∀ additional, operation ≠ .reseed additional) ∨ g.faulted = true) :
    (g.withAuxiliary auxiliary).apply operation =
      (if operation = .describe then .text (g.withAuxiliary auxiliary).describe
        else (g.apply operation).1,
        (g.apply operation).2.1, (g.apply operation).2.2.withAuxiliary auxiliary) := by
  cases operation with
  | generate _ _ | fill _ _ | word _ =>
    simp only [apply, fill_withAuxiliary, Outcome.withAuxiliary, reduceCtorEq, ↓reduceIte]
  | reseed additional =>
    obtain other | faulted := spared
    · exact absurd rfl (other additional)
    · have still : (g.withAuxiliary auxiliary).faulted = true := faulted
      simp only [apply, reseed, faulted, still, ↓reduceIte, reduceCtorEq]
      rfl
  | properties | describe => rfl

private theorem auxiliary_apply (g : Generator (Watched μ ρ)) {operation : Operation}
    (spared : (∀ additional, operation ≠ .reseed additional) ∨ g.faulted = true) :
    (g.apply operation).2.2.auxiliary = g.auxiliary := by
  have same := apply_withAuxiliary g g.auxiliary spared
  exact congrArg (fun outcome => outcome.2.2.auxiliary) same

/-- Where there are no auxiliary bytes to be had, nothing comes of a reseed. -/
theorem Siblings.failed (siblings : Siblings g h) (usable : g.faulted = false) (additional : Bytes)
    {cause : EntropyFailure} {m : Watched μ ρ}
    (drawn : Randomness.draw g.mechanism g.auxiliaryLength = (.error cause, m)) :
    (g.scene (.reseed additional)).Draws ∧ (g.scene (.reseed additional)).counterpart = none ∧
      Siblings (g.scene (.reseed additional)).after h := by
  obtain ⟨mechanism, done, -⟩ := Watched.of_draw drawn
  have ended : g.scene (.reseed additional) =
      { before := g, operation := .reseed additional
        answer := .done (.error (.entropyUnavailable cause)), events := []
        after := { g with mechanism := m } } := by
    simp only [scene, apply, reseed, usable, siblings.aided, drawn, Bool.false_eq_true, ↓reduceIte]
  rw [ended]
  refine ⟨.failed rfl usable (Scene.deeds_of_append done) rfl rfl usable mechanism, ?_, ?_⟩
  · exact Scene.counterpart_of_failed rfl (Scene.deeds_of_append done)
  · exact { siblings with mechanism := siblings.mechanism.trans mechanism.symm }

variable [Randomness τ]

/-- Siblings go through the same as long as they are called alike. -/
theorem Siblings.spared (siblings : Siblings g h) {operation : Operation}
    (spared : (∀ additional, operation ≠ .reseed additional) ∨ g.faulted = true) :
    (g.scene operation).Draws ∧ (g.scene operation).Mirrors (h.scene operation) := by
  -- Only generators of equal flags can be alike, so the first one is taken with its flag off.
  obtain ⟨answers, events, after⟩ :=
    siblings.alike.apply (Watched.Since.bisimilar ..) (Operation.Alike.refl operation)
  rw [apply_withAuxiliary g false spared] at answers events after
  obtain ⟨calls, first, second⟩ := after.mechanism.deeds
  have deeds : (g.scene operation).deeds = calls.map .call := Scene.deeds_of_append first
  have others : (h.scene operation).deeds = calls.map .call := Scene.deeds_of_append second
  refine ⟨.spared spared deeds after.mechanism.randomness, ?_⟩
  exact
    { before := siblings
      operation := Scene.counterpart_of_calls deeds
      answer := answers.eq.symm
      events := events
      deeds := by
        rw [others, deeds, List.filter_eq_self.mpr]
        simp [Deed.isCall]
      randomness := after.mechanism.unused
      after := after.siblings ((auxiliary_apply g spared).trans siblings.aided) }

/-- One call reseeds the mechanisms of siblings alike. -/
theorem Siblings.reseedMechanism (siblings : Siblings g h) (additional : Bytes) :
    (h.reseedMechanism additional).result = (g.reseedMechanism additional).result ∧
      (h.reseedMechanism additional).events = (g.reseedMechanism additional).events ∧
      (h.reseedMechanism additional).generator.mechanism.randomness = h.mechanism.randomness ∧
      Siblings (g.reseedMechanism additional).generator (h.reseedMechanism additional).generator := by
  have alike := siblings.alike.reseedMechanism (Watched.Since.bisimilar ..)
    (rfl : View.full.like additional additional)
  rw [reseedMechanism_withAuxiliary] at alike
  have aided := (auxiliary_reseedMechanism g additional).trans siblings.aided
  exact ⟨alike.result, alike.events, alike.generator.mechanism.unused, alike.generator.siblings aided⟩

/-- Where auxiliary bytes are had, they join the additional input of the one call that is made. -/
theorem Siblings.appended (siblings : Siblings g h) (usable : g.faulted = false) (additional : Bytes)
    {bytes : Bytes} {m : Watched μ ρ}
    (drawn : Randomness.draw g.mechanism g.auxiliaryLength = (.ok bytes, m)) :
    (g.scene (.reseed additional)).Draws ∧
      (g.scene (.reseed additional)).Mirrors (h.scene (.reseed (additional ++ bytes))) := by
  obtain ⟨mechanism, done, found⟩ := Watched.of_draw drawn
  let moved : Generator (Watched μ ρ) := { g with mechanism := m }
  have usable' : h.faulted = false := siblings.faulted.trans usable
  have given : g.reseed additional = moved.reseedMechanism (additional ++ bytes) := by
    simp only [reseed, usable, siblings.aided, drawn, Bool.false_eq_true, ↓reduceIte, moved]
  have plain : h.reseed (additional ++ bytes) = h.reseedMechanism (additional ++ bytes) := by
    simp only [reseed, usable', siblings.unaided, Bool.false_eq_true, ↓reduceIte]
  have still : Siblings moved h := { siblings with mechanism := siblings.mechanism.trans mechanism.symm }
  obtain ⟨result, events, randomness, after⟩ := still.reseedMechanism (additional ++ bytes)
  have called := moved.deeds_reseedMechanism (additional ++ bytes)
  have other := h.deeds_reseedMechanism (additional ++ bytes)
  rw [still.mechanism] at other
  rw [← given, ← plain] at result events after
  rw [← plain] at randomness other
  rw [← given, done, List.append_assoc] at called
  have deeds := Scene.deeds_of_append (s := g.scene (.reseed additional)) called
  have others := Scene.deeds_of_append (s := h.scene (.reseed (additional ++ bytes))) other
  refine ⟨.appended rfl usable deeds fun exact => exact _ _ _ _ found, ?_⟩
  exact
    { before := siblings
      operation := Scene.counterpart_of_drawn rfl deeds
      answer := congrArg Answer.done result
      events := events
      deeds := by
        rw [others, deeds]
        rfl
      randomness := randomness
      after := after }

/-- What comes of one operation is mirrored by its counterpart, if there is one. Otherwise nothing is
done by the sibling, which the generator goes on to be one of. -/
theorem Siblings.step (siblings : Siblings g h) (operation : Operation) :
    (g.scene operation).Draws ∧
      match (g.scene operation).counterpart with
      | some other => (g.scene operation).Mirrors (h.scene other)
      | none => Siblings (g.scene operation).after h := by
  by_cases spared : (∀ additional, operation ≠ .reseed additional) ∨ g.faulted = true
  · obtain ⟨draws, mirrors⟩ := siblings.spared spared
    rw [mirrors.operation]
    exact ⟨draws, mirrors⟩
  · obtain ⟨⟨additional, rfl⟩, usable⟩ : (∃ additional, operation = .reseed additional) ∧
        g.faulted = false := by simpa using spared
    rcases drawn : Randomness.draw g.mechanism g.auxiliaryLength with ⟨cause | bytes, m⟩
    · obtain ⟨draws, none, after⟩ := siblings.failed usable additional drawn
      rw [none]
      exact ⟨draws, after⟩
    · obtain ⟨draws, mirrors⟩ := siblings.appended usable additional drawn
      rw [mirrors.operation]
      exact ⟨draws, mirrors⟩

/-- Auxiliary randomness is appended additional input. Take two generators in one state, over any
mechanism, of which only the first has auxiliary randomness, which the mechanism has no part in. Give the
second what the first is given, with the bytes that a reseed has drawn behind its additional input, and
without the reseeds whose draw has failed. Then it goes through the same, and draws nothing. -/
theorem auxiliary_appended (siblings : Siblings g h) (operations : List Operation) :
    let kept := (g.scenes operations).filter fun s => s.counterpart.isSome
    let counterparts := (g.scenes operations).filterMap Scene.counterpart
    List.Forall₂ Scene.Mirrors kept (h.scenes counterparts) ∧
      Siblings (run operations g).2.2 (run counterparts h).2.2 ∧
      ∀ s ∈ g.scenes operations, s.Draws := by
  -- The generators after one operation are siblings again, whether or not the second one did anything.
  induction operations generalizing g h with
  | nil => exact ⟨.nil, siblings, fun _ none => absurd none List.not_mem_nil⟩
  | cons operation rest ih =>
    obtain ⟨draws, counterpart⟩ := siblings.step operation
    simp only [scenes, List.filter_cons, List.filterMap_cons, List.forall_mem_cons]
    cases other : (g.scene operation).counterpart with
    | none =>
      rw [other] at counterpart
      obtain ⟨mirrored, last, drawn⟩ := ih counterpart
      exact ⟨mirrored, last, draws, drawn⟩
    | some instead =>
      rw [other] at counterpart
      obtain ⟨mirrored, last, drawn⟩ := ih counterpart.after
      exact ⟨.cons counterpart mirrored, last, draws, drawn⟩

/-- Of 129 bits, 17 bytes are drawn. The second draw fails, and the mechanism faults after the third. -/
theorem auxiliary_appended_failing_draw :
    let script : Scripted :=
      { securityStrength := 129, requests := [.error .reseedRequired]
        reseeds := [.ok (), .ok (), .error (.faulted .reseedLoop)] }
    let g : Generator (Watched Scripted Pattern) :=
      { mechanism := { mechanism := script, randomness := { failOn := some 2 } }
        auxiliary := true
        predictionResistant := false }
    let h : Generator (Watched Scripted Pattern) :=
      { mechanism := { mechanism := script, randomness := {} }
        auxiliary := false
        predictionResistant := false }
    let operations : List Operation :=
      [.reseed [1], .fill [0, 0] [], .reseed [2], .reseed [3], .reseed [4]]
    let counterparts : List Operation :=
      [.reseed [1, 0, 1, 2, 3, 4, 5, 6, 7, 8, 9, 10, 11, 12, 13, 14, 15, 16], .fill [0, 0] [],
        .reseed [3, 74, 75, 76, 77, 78, 79, 80, 81, 82, 83, 84, 85, 86, 87, 88, 89, 90],
        .reseed [4]]
    Siblings g h ∧ (g.scenes operations).filterMap Scene.counterpart = counterparts ∧
      List.Forall₂ Scene.Mirrors ((g.scenes operations).filter fun s => s.counterpart.isSome)
        (h.scenes counterparts) ∧
      (run counterparts h).2.2.faulted = true ∧ ∀ s ∈ g.scenes operations, s.Draws := by
  intro script g h operations counterparts
  have siblings : Siblings g h := ⟨rfl, rfl, rfl, rfl, rfl⟩
  have same : (g.scenes operations).filterMap Scene.counterpart = counterparts := by decide +kernel
  obtain ⟨mirrored, -, draws⟩ := auxiliary_appended siblings operations
  rw [same] at mirrored
  exact ⟨siblings, same, mirrored, by decide +kernel, draws⟩

end Generator

end RandomBits
