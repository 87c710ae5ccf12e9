import Mathlib
import RandomBits.Builder
import RandomBits.Entropy.Playback
import RandomBits.Entropy.Pooled
import RandomBits.Proofs.Dependability

/-! # Well-configured generators endure

A healthy generator comes through any run of operations whose additional input fits, at least up to
the first fault of a point operation (`Generator.Healthy.endures`). Settings that pass the checks of
a builder make a healthy generator wherever entropy does not fail. This holds in particular over
pooled randomness, whose blocks are never short of the bits asked for.
-/

namespace RandomBits

/-- The additional input of an operation fits the limit of the mechanisms, together with the
auxiliary bytes that a reseed adds to it. -/
def Operation.Fits (auxiliaryLength : ℕ) : Operation → Prop
  | generate _ additional | fill _ additional => additional.length ≤ maxInputLength
  | reseed additional => additional.length + auxiliaryLength ≤ maxInputLength
  | word _ | properties | describe => True

/-- The bytes that an operation asks for, as they are before. -/
def Operation.buffer : Operation → Bytes
  | generate size _ | word size => Bytes.zeros size
  | fill buffer _ => buffer
  | reseed _ | properties | describe => []

def Operation.additional : Operation → Bytes
  | generate _ additional | fill _ additional | reseed additional => additional
  | word _ | properties | describe => []

namespace Generator

section

variable {μ : Type} [Mechanism μ] [Randomness μ]

/-- All operations of a run succeed, and the generator is usable after it. -/
def Succeeds (operations : List Operation) (g : Generator μ) : Prop :=
  (∀ answer ∈ (run operations g).1, answer.failure? = none) ∧
    (run operations g).2.2.faulted = false

/-- All operations of a run succeed, if need be up to the first that ends in a fault, of which something is
known from the operation and the generator that it leaves. -/
def Endures (stumbles : Operation → Generator μ → Fault → Prop) (operations : List Operation)
    (g : Generator μ) : Prop :=
  Succeeds operations g ∨
    ∃ before operation after fault, operations = before ++ operation :: after ∧
      Succeeds before g ∧
      ((run before g).2.2.apply operation).1.failure? = some (.faulted fault) ∧
      stumbles operation ((run before g).2.2.apply operation).2.2 fault

private theorem succeeds_cons {operation : Operation} {operations : List Operation} {g : Generator μ} :
    Succeeds (operation :: operations) g ↔
      (g.apply operation).1.failure? = none ∧ Succeeds operations (g.apply operation).2.2 := by
  simp only [Succeeds, run, List.mem_cons, forall_eq_or_imp, and_assoc]

/-- A run endures if its first operation succeeds and the others endure. -/
theorem Endures.cons {stumbles : Operation → Generator μ → Fault → Prop} {operation : Operation}
    {operations : List Operation} {g : Generator μ} (success : (g.apply operation).1.failure? = none)
    (later : Endures stumbles operations (g.apply operation).2.2) :
    Endures stumbles (operation :: operations) g := by
  obtain succeeds | ⟨before, last, after, fault, rfl, succeeds, failed, stumbled⟩ := later
  · exact .inl (succeeds_cons.mpr ⟨success, succeeds⟩)
  · have first := succeeds_cons.mpr ⟨success, succeeds⟩
    exact .inr ⟨operation :: before, last, after, fault, rfl, first, failed, stumbled⟩

end

variable {σ ω : Type} [SeedSource σ ω] [Randomness ω] {live : σ → ω → Prop} {auxiliary : Bool}
  {kind : Instantiation} {g : Generator (Within (Seeded σ) ω)}

/-- A fault ends an operation where one of its chunks comes to a scalar that a point operation faults on. -/
def StumblesOn (kind : Instantiation) (operation : Operation) (g : Generator (Within (Seeded σ) ω))
    (fault : Fault) : Prop :=
  Stumbled kind ((operation.buffer.chunks kind.maxRequest).map List.length) operation.additional g fault

/-- An operation whose additional input fits ends well or at a point operation. -/
theorem Healthy.apply (healthy : Healthy live auxiliary kind g)
    (dependable : Dependable kind.securityStrength auxiliary live) {operation : Operation}
    (fits : operation.Fits (if auxiliary then blocksFor kind.securityStrength 8 else 0)) :
    ((g.apply operation).1.failure? = none ∧
        Healthy live auxiliary kind (g.apply operation).2.2) ∨
      ∃ fault, (g.apply operation).1.failure? = some (.faulted fault) ∧
        StumblesOn kind operation (g.apply operation).2.2 fault := by
  have answered {o : Outcome (Within (Seeded σ) ω)} {lengths : List ℕ} {additional : Bytes}
      (ended : Ends live auxiliary kind lengths additional o) :
      (failure? o.result = none ∧ Healthy live auxiliary kind o.generator) ∨
        ∃ fault, failure? o.result = some (.faulted fault) ∧
          Stumbled kind lengths additional o.generator fault := by
    obtain ⟨success, still⟩ | ⟨fault, failed, stumbled⟩ := ended
    · rw [success]
      exact .inl ⟨rfl, still⟩
    · rw [failed]
      exact .inr ⟨fault, rfl, stumbled⟩
  cases operation with
  | generate count additional =>
    simp only [Generator.apply, Answer.failure?, failure?_map]
    exact answered (healthy.fill dependable (Bytes.zeros count) fits)
  | fill buffer additional => exact answered (healthy.fill dependable buffer fits)
  | reseed additional =>
    obtain success | ⟨_, -, stumbled⟩ := answered (healthy.reseed dependable fits)
    · exact .inl success
    · obtain ⟨_, none, -⟩ := stumbled.raised
      exact absurd none List.not_mem_nil
  | word size =>
    simp only [Generator.apply, Answer.failure?, failure?_map]
    exact answered (healthy.fill dependable (Bytes.zeros size) (Nat.zero_le _))
  | properties | describe => exact .inl ⟨rfl, healthy⟩

/-- A healthy generator endures every run of operations whose additional input fits. -/
theorem Healthy.endures (healthy : Healthy live auxiliary kind g)
    (dependable : Dependable kind.securityStrength auxiliary live) {operations : List Operation}
    (fits : ∀ operation ∈ operations,
      operation.Fits (if auxiliary then blocksFor kind.securityStrength 8 else 0)) :
    Endures (StumblesOn kind) operations g := by
  induction operations generalizing g with
  | nil => exact .inl ⟨fun _ none => absurd none List.not_mem_nil, healthy.usable⟩
  | cons operation operations ih =>
    obtain ⟨first, others⟩ := List.forall_mem_cons.mp fits
    obtain ⟨success, still⟩ | ⟨fault, failed, stumbled⟩ := healthy.apply dependable first
    · exact .cons success (ih still others)
    · have none : Succeeds [] g := ⟨fun _ none => absurd none List.not_mem_nil, healthy.usable⟩
      exact .inr ⟨[], operation, operations, fault, rfl, none, failed, stumbled⟩

end Generator

/-- A fault that ends an operation is raised by the point operations of the mechanism that was ordered: it
is Dual_EC_DRBG on the curve for the strength, and a chunk of the operation comes to a scalar that the
point operations of this curve fault on. -/
structure Order.Raises {σ ω : Type} (order : Order) (strength : ℕ) (operation : Operation)
    (g : Generator (Within (Seeded σ) ω)) (fault : Fault) : Prop where
  curve : ∃ d c, order = .dualEc d ∧ Curve.forStrength? strength = some c ∧
    g.mechanism.value.core.algorithm = .dualEc d c
  stumbled : Generator.StumblesOn g.mechanism.value.properties operation g fault

theorem Order.raises_of_stumbled {σ ω : Type} {order : Order} {scheme : Scheme} {strength : ℕ}
    {kind : Instantiation} {operation : Operation} {g : Generator (Within (Seeded σ) ω)} {fault : Fault}
    (asked : order.scheme = .ok scheme) (chosen : scheme.algorithm strength = .ok kind.algorithm)
    (stumbled : Generator.StumblesOn kind operation g fault) :
    order.Raises strength operation g fault := by
  obtain rfl := stumbled.kind
  obtain ⟨_, -, raised⟩ := stumbled.raised
  obtain ⟨core, same⟩ := raised.exists_dualEc
  have algorithm : g.mechanism.value.core.algorithm = .dualEc core.digest core.curve :=
    congrArg Core.algorithm same
  refine ⟨?_, stumbled⟩
  change scheme.algorithm strength = .ok g.mechanism.value.core.algorithm at chosen
  rw [algorithm] at chosen ⊢
  cases order with
  | hash d | hmac d =>
    cases asked
    cases chosen
  | ctr keyBits seedBits =>
    simp only [Order.scheme, bind_eq_ok_iff] at asked
    obtain ⟨_, -, _, -, asked⟩ := asked
    cases asked
    simp only [Scheme.algorithm] at chosen
    split at chosen <;> cases chosen
  | dualEc d =>
    cases asked
    simp only [Scheme.algorithm] at chosen
    split at chosen
    · cases chosen
    next c known =>
      cases chosen
      exact ⟨_, _, rfl, known, rfl⟩

/-- Draws from live randomness fill what they are asked for and leave it live. -/
def Randomness.NeverFails {ρ : Type} [Randomness ρ] (live : ρ → Prop) : Prop :=
  ∀ (r : ρ) (length : ℕ), live r →
    ∃ bytes next, draw r length = (.ok bytes, next) ∧ bytes.length = length ∧ live next

namespace Pooled

variable {ρ : Type} [Randomness ρ] {live : ρ → Prop} {bits strength : ℕ}

/-- Sources over randomness that never fails are dependable: whole bytes hold the bits asked for. -/
theorem dependable (neverFails : Randomness.NeverFails live) (enough : strength ≤ bits)
    (auxiliary : Bool) :
    Dependable strength auxiliary fun (source : PooledSource) (pool : Pooled ρ) =>
      source.bits = bits ∧ live pool.randomness where
  fetch {source pool} alive := by
    obtain ⟨rfl, alive⟩ := alive
    obtain ⟨bytes, next, drawn, length, still⟩ := neverFails pool.randomness (blocksFor source.bits 8) alive
    refine ⟨bytes, source, { pool with randomness := next }, ?_, ?_, rfl, still⟩
    · change Pooled.fetch source pool = _
      simp only [Pooled.fetch, Pooled.draw, drawn]
    · have positive : 0 < 8 := by decide
      have whole : source.bits ≤ blocksFor source.bits 8 * 8 :=
        (blocksFor_le_iff positive).mp le_rfl
      omega
  draw _ {source pool} alive length := by
    obtain ⟨bytes, next, drawn, filled, still⟩ := neverFails pool.randomness length alive.2
    refine ⟨bytes, { pool with randomness := next }, ?_, filled, alive.1, still⟩
    change Pooled.draw pool length = _
    simp only [Pooled.draw, drawn]

end Pooled

/-- A pattern without a failing call never fails. -/
theorem Pattern.neverFails : Randomness.NeverFails fun p : Pattern => p.failOn = none := by
  intro p length endless
  refine ⟨p.bytes length, { p with calls := p.calls + 1 }, ?_, ?_, endless⟩
  · change p.draw length = _
    simp only [Pattern.draw, endless, reduceCtorEq, if_false]
  · simp only [Pattern.bytes, List.length_map, List.length_range]

/-- A recording that counts on is dependable, where no auxiliary bytes are drawn. -/
theorem Player.dependable {length strength : ℕ} (enough : strength ≤ 8 * length) :
    Dependable strength false fun (p : Player) (_ : Playback) =>
      p.failOn = none ∧ p.recording = .counting length where
  fetch {p w} alive := by
    obtain ⟨endless, counting⟩ := alive
    have found : ∃ block, p.next = .ok block ∧ block.length = length := by
      simp only [Player.next, endless, counting, Recording.block?, reduceCtorEq, if_false]
      exact ⟨_, rfl, by simp only [List.length_map, List.length_range]⟩
    obtain ⟨block, found, rfl⟩ := found
    refine ⟨block, { p with position := p.position + 1 }, { w with fetches := w.fetches + 1 }, ?_,
      enough, endless, counting⟩
    change p.fetch w = _
    rw [Player.fetch, found]
  draw drawn := absurd drawn Bool.false_ne_true

namespace Builder

variable {b : Builder} {order : Order} {nonce : Bytes} {plan : Plan}

/-- The number of auxiliary bytes that a reseed on demand adds to its input. -/
def auxiliaryLength (b : Builder) : ℕ :=
  if b.auxiliary then blocksFor b.config.securityStrength 8 else 0

/-- A build succeeds, and the generator endures every run of operations whose additional input fits.
Only a point operation can end a run early. -/
def Unfailing {σ ω : Type} [SeedProvider ω σ] [Randomness ω] (b : Builder) (order : Order)
    (nonce : Bytes) (predictionResistant : Bool) (w : ω) : Prop :=
  ∃ g events world, b.build order nonce predictionResistant w = (.ok g, events, world) ∧
    ∀ operations, (∀ operation ∈ operations, operation.Fits b.auxiliaryLength) →
      (g.map (Within.mk · world)).Endures (order.Raises b.config.securityStrength) operations

/-- Wherever a source can be had and is dependable, a checked builder makes a healthy generator with
its first fetch. -/
theorem build_healthy {σ ω : Type} [SeedProvider ω σ] [Randomness ω] {live : σ → ω → Prop}
    {source : σ} {w world : ω} (checked : b.checkedPlan order nonce = .ok plan)
    (dependable : Dependable b.config.securityStrength b.auxiliary live)
    (got : SeedProvider.get w b.config.entropyBits = (.ok source, world))
    (alive : live source world) (predictionResistant : Bool) :
    ∃ m events entropy rest after scheme a,
      b.build order nonce predictionResistant w =
          (.ok { mechanism := m, auxiliary := b.auxiliary, predictionResistant }, events, after) ∧
        Seeded.fetchSeed b.config.securityStrength source world = (.ok entropy, rest, after) ∧
        order.scheme = .ok scheme ∧ scheme.algorithm b.config.securityStrength = .ok a ∧
        Seeded.Fresh m a (b.plan scheme nonce).parameters scheme.maxReseedInterval ∧
        Generator.Healthy live b.auxiliary m.properties
          { mechanism := Within.mk m after, auxiliary := b.auxiliary, predictionResistant } := by
  obtain ⟨scheme, asked, rfl, valid⟩ := checkedPlan_eq_ok_iff.mp checked
  obtain ⟨entropy, rest, after, fetched, still⟩ := Seeded.fetchSeed_of_live dependable alive
  obtain ⟨m, made, left⟩ := Plan.instantiate_of_valid valid fetched
  obtain ⟨a, chosen, fresh⟩ := Seeded.instantiated made
  have carried : (b.plan scheme nonce).carryOut b.config.entropyBits w = (.ok m, after) := by
    simp only [Plan.carryOut, got, made]
  have built : ∃ events, b.build order nonce predictionResistant w =
      (.ok { mechanism := m, auxiliary := b.auxiliary, predictionResistant }, events, after) := by
    simp only [build, checked, carried]
    exact ⟨_, rfl⟩
  obtain ⟨events, built⟩ := built
  have healthy : Generator.Healthy live b.auxiliary m.properties
      { mechanism := Within.mk m after, auxiliary := b.auxiliary, predictionResistant } :=
    { usable := rfl
      sameAuxiliary := rfl
      kind := rfl
      positive := fresh.positive
      alive := left ▸ still }
  exact ⟨m, events, entropy, rest, after, scheme, a, built, fetched, asked, chosen, fresh, healthy⟩

/-- Wherever a source can be had and is dependable, a checked builder does not fail. -/
theorem unfailing_of_get {σ ω : Type} [SeedProvider ω σ] [Randomness ω] {live : σ → ω → Prop}
    {source : σ} {w world : ω} (checked : b.checkedPlan order nonce = .ok plan)
    (dependable : Dependable b.config.securityStrength b.auxiliary live)
    (got : SeedProvider.get w b.config.entropyBits = (.ok source, world))
    (alive : live source world) (predictionResistant : Bool) :
    b.Unfailing order nonce predictionResistant w := by
  obtain ⟨m, events, _, _, after, scheme, a, built, -, asked, chosen, fresh, healthy⟩ :=
    build_healthy checked dependable got alive predictionResistant
  refine ⟨_, events, after, built, ?_⟩
  intro operations fits
  have strength : m.properties.securityStrength = b.config.securityStrength := fresh.strength
  have algorithm : m.properties.algorithm = a := fresh.algorithm
  rw [← strength] at dependable
  simp only [auxiliaryLength, ← strength] at fits
  refine (healthy.endures dependable fits).imp_right ?_
  rintro ⟨before, operation, later, fault, split, succeeds, failed, stumbled⟩
  refine ⟨before, operation, later, fault, split, succeeds, failed, ?_⟩
  exact Order.raises_of_stumbled asked (algorithm.symm ▸ chosen) stumbled

/-- A builder whose settings are checked does not fail where seed sources can be had and are
dependable, and so not over pooled randomness that never fails, whatever the size of its sources.
No fault but that of a point operation can end a run. -/
theorem checked_unfailing (checked : b.checkedPlan order nonce = .ok plan)
    (predictionResistant : Bool) :
    (∀ {σ ω : Type} [SeedProvider ω σ] [Randomness ω] {live : σ → ω → Prop} {source : σ}
        {w world : ω}, Dependable b.config.securityStrength b.auxiliary live →
      SeedProvider.get w b.config.entropyBits = (.ok source, world) → live source world →
        b.Unfailing order nonce predictionResistant w) ∧
      (∀ {ρ : Type} [Randomness ρ] {live : ρ → Prop} {pool : Pooled ρ},
        Randomness.NeverFails live → live pool.randomness →
          b.Unfailing order nonce predictionResistant pool) ∧
      ∀ {σ ω : Type} (operation : Operation) (g : Generator (Within (Seeded σ) ω)) (fault : Fault),
        order.Raises b.config.securityStrength operation g fault →
          fault = .pointNotOnCurve ∨ fault = .scalarOutOfRange ∨ fault = .pointAtInfinity := by
  refine ⟨?_, ?_, fun _ _ _ raised => raised.stumbled.kinds⟩
  · intro σ ω _ _ live source w world dependable got alive
    exact unfailing_of_get checked dependable got alive predictionResistant
  · intro ρ _ live pool neverFails alive
    obtain ⟨scheme, -, rfl, valid⟩ := checkedPlan_eq_ok_iff.mp checked
    have bits : b.config.entropyBits ≠ 0 := (valid.strength_pos.trans_le valid.enough).ne'
    have got : SeedProvider.get pool b.config.entropyBits =
        (.ok ⟨b.config.entropyBits, pool.predictionResistant⟩, pool) := by
      change Pooled.get pool _ = _
      rw [Pooled.get, if_neg bits]
    have dependable := Pooled.dependable neverFails valid.enough b.auxiliary
    exact unfailing_of_get checked dependable got ⟨rfl, alive⟩ predictionResistant

/-- Dual_EC_DRBG with an interval of a single block, over a recording and over a pool. -/
theorem checked_unfailing_single_block :
    let b (auxiliary : Bool) : Builder :=
      { config := { securityStrength := 128, entropyBits := 129, reseedInterval := some 1 }
        auxiliary }
    let p : Plan :=
      ⟨.dualEc .sha256, { nonce := [7], securityStrength := 128, reseedInterval := some 1 }⟩
    (∀ auxiliary, (b auxiliary).checkedPlan (.dualEc .sha256) [7] = .ok p) ∧
      (b false).Unfailing (.dualEc .sha256) [7] true { recording := .counting 16 : Playback } ∧
      (b true).Unfailing (.dualEc .sha256) [7] false
        { randomness := { seed := 1 } : Pooled Pattern } := by
  intro b p
  have checked (auxiliary : Bool) : (b auxiliary).checkedPlan (.dualEc .sha256) [7] = .ok p := by
    cases auxiliary <;> rfl
  refine ⟨checked, ?_, ?_⟩
  · have enough : 128 ≤ 8 * 16 := by decide
    have dependable := Player.dependable enough
    exact (checked_unfailing (checked false) true).1 dependable rfl ⟨rfl, rfl⟩
  · exact (checked_unfailing (checked true) false).2.1 Pattern.neverFails rfl

end Builder

end RandomBits
