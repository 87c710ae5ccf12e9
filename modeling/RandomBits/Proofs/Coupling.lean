import Mathlib
import RandomBits.Proofs.Likeness
import RandomBits.Proofs.Output
import RandomBits.Proofs.Validation

/-! # Two environments side by side

A `Coupling` of two environments relates them, and the seed sources in them, in such a way that they
answer fetch by fetch alike. Seeded cores over coupled environments are bisimilar mechanisms
(`Coupling.bisimilar`), and builders with the same settings make generators of the same kind in them
(`Coupling.build`).
-/

namespace RandomBits

/-- A view that extends to cores: cores that look alike are of the same algorithm, and they look
alike whatever is mixed into them and put out by them, as long as that looks alike. Only admitted
algorithms have to look alike from the start. -/
structure CoreView extends View where
  admits : Algorithm → Prop
  cores : Core → Core → Prop
  algorithm_eq {c d : Core} : cores c d → d.algorithm = c.algorithm
  instantiate {a : Algorithm} {entropy nonce personalization entropy' nonce' personalization' : Bytes}
    (admitted : admits a) (entropies : like entropy entropy') (nonces : like nonce nonce')
    (strings : like personalization personalization') :
    cores (.instantiate a entropy nonce personalization)
      (.instantiate a entropy' nonce' personalization')
  reseed {c d : Core} {entropy additional entropy' additional' : Bytes} (alike : cores c d)
    (entropies : like entropy entropy') (inputs : like additional additional') :
    cores (c.reseed entropy additional) (d.reseed entropy' additional')
  generate {c d : Core} {additional additional' : Bytes} (alike : cores c d)
    (inputs : like additional additional') (length counter : ℕ) :
    like (c.generate length additional counter).1 (d.generate length additional' counter).1 ∧
      (d.generate length additional' counter).2.1 = (c.generate length additional counter).2.1 ∧
      cores (c.generate length additional counter).2.2 (d.generate length additional' counter).2.2

namespace CoreView

/-- Everything can be seen, of every algorithm. -/
def full : CoreView where
  toView := .full
  admits _ := True
  cores := Eq
  algorithm_eq same := congrArg Core.algorithm same.symm
  instantiate _ entropies nonces strings :=
    congr (congrArg₂ (Core.instantiate _) entropies nonces) strings
  reseed alike entropies inputs := congr (congrArg₂ Core.reseed entropies inputs) alike
  generate {c d additional additional'} alike inputs length counter := by
    obtain rfl : additional = additional' := inputs
    subst alike
    exact ⟨rfl, rfl, rfl⟩

/-- Of the algorithms that count requests, nothing but the algorithm and lengths can be seen. -/
def lengths : CoreView where
  toView := .lengths
  admits := Algorithm.CountsRequests
  cores c d := d.algorithm = c.algorithm ∧ c.algorithm.CountsRequests
  algorithm_eq alike := alike.1
  instantiate admitted _ _ _ := by
    rw [Core.algorithm_instantiate, Core.algorithm_instantiate]
    exact ⟨rfl, admitted⟩
  reseed alike _ _ := by
    rw [Core.algorithm_reseed, Core.algorithm_reseed]
    exact alike
  generate {c d additional additional'} alike _ length counter := by
    obtain ⟨same, counts⟩ := alike
    obtain ⟨written, next, ran, long⟩ := Core.generate_ok length additional counter counts
    obtain ⟨written', next', ran', long'⟩ :=
      Core.generate_ok length additional' counter (same ▸ counts : d.algorithm.CountsRequests)
    have kept := Core.algorithm_of_generate ran
    have kept' := Core.algorithm_of_generate ran'
    rw [ran, ran']
    exact ⟨long.trans long'.symm, rfl, kept'.trans (same.trans kept.symm), kept ▸ counts⟩

/-- Cores that look alike put out what looks alike, and fault alike. -/
theorem output (v : CoreView) {c d next : Core} {a b : Bytes} {length counter : ℕ} {written : Bytes}
    {result : Except Fault Unit} (alike : v.cores c d) (inputs : v.like a b)
    (ran : c.generate length a counter = (written, result, next)) :
    ∃ written' next', d.generate length b counter = (written', result, next') ∧
      v.like written written' ∧ v.cores next next' := by
  obtain ⟨writes, same, cores⟩ := v.generate alike inputs length counter
  rw [ran] at writes same cores
  rcases again : d.generate length b counter with ⟨written', result', next'⟩
  rw [again] at writes same cores
  exact ⟨written', next', congrArg (fun ended => (written', ended, next')) same, writes, cores⟩

end CoreView

/-- Related sources in related environments yield blocks that look alike or fail for the same reason,
fetch by fetch. So do draws of auxiliary randomness, where there is any, and requests for sources. -/
structure Coupling {σ τ ω χ : Type} [SeedProvider ω σ] [SeedProvider χ τ] [Randomness ω]
    [Randomness χ] (v : View) (auxiliary : Bool) (sources : σ → τ → Prop) (worlds : ω → χ → Prop) :
    Prop where
  fetch {source : σ} {other : τ} {w : ω} {x : χ} (related : sources source other)
    (coupled : worlds w x) :
    Agree v.like (SeedSource.fetch source w).1 (SeedSource.fetch other x).1 ∧
      sources (SeedSource.fetch source w).2.1 (SeedSource.fetch other x).2.1 ∧
      worlds (SeedSource.fetch source w).2.2 (SeedSource.fetch other x).2.2
  draw {w : ω} {x : χ} (available : auxiliary = true) (coupled : worlds w x) (length : ℕ) :
    Agree v.like (Randomness.draw w length).1 (Randomness.draw x length).1 ∧
      worlds (Randomness.draw w length).2 (Randomness.draw x length).2
  get {w : ω} {x : χ} (coupled : worlds w x) (bits : ℕ) :
    Agree sources (SeedProvider.get w bits).1 (SeedProvider.get x bits).1 ∧
      worlds (SeedProvider.get w bits).2 (SeedProvider.get x bits).2

namespace Seeded

variable {σ τ ω χ : Type}

/-- Two seeded cores that count alike, whose cores look alike and whose sources are related. -/
structure Alike (v : CoreView) (sources : σ → τ → Prop) (m : Seeded σ) (n : Seeded τ) : Prop where
  core : v.cores m.core n.core
  source : sources m.source n.source
  securityStrength : n.securityStrength = m.securityStrength
  counter : n.counter = m.counter
  interval : n.interval = m.interval

/-- Two seeded cores that are alike, each in its environment. -/
structure LikeStates (v : CoreView) (sources : σ → τ → Prop) (worlds : ω → χ → Prop)
    (s : Within (Seeded σ) ω) (t : Within (Seeded τ) χ) : Prop where
  value : Alike v sources s.value t.value
  world : worlds s.world t.world

variable {v : CoreView} {auxiliary : Bool} {sources : σ → τ → Prop} {worlds : ω → χ → Prop}

section

variable {m value : Seeded σ} {n : Seeded τ} {length : ℕ} {a b : Bytes} {reply : Reply}

theorem Alike.maxRequest (alike : Alike v sources m n) : n.maxRequest = m.maxRequest := by
  rw [Seeded.maxRequest, Seeded.maxRequest, v.algorithm_eq alike.core, alike.interval]

theorem Alike.properties (alike : Alike v sources m n) : n.properties = m.properties := by
  simp only [Seeded.properties, v.algorithm_eq alike.core, alike.interval, alike.securityStrength,
    alike.maxRequest]

/-- Output looks alike, and the interval stops it alike. -/
theorem Produces.alike (produced : Produces m length a reply value) (alike : Alike v sources m n)
    (inputs : v.like a b) :
    ∃ written last, Produces n length b ⟨written, reply.result⟩ last ∧
      v.like reply.written written ∧ Alike v sources value last := by
  have cost : n.counter + n.core.algorithm.requestCost length =
      m.counter + m.core.algorithm.requestCost length := by
    rw [alike.counter, v.algorithm_eq alike.core]
  cases produced with
  | exhausted beyond =>
    rw [← cost, ← alike.interval] at beyond
    exact ⟨[], n, .exhausted beyond, v.nil, alike⟩
  | faulted within ran =>
    rw [← cost, ← alike.interval] at within
    rw [← alike.counter] at ran
    obtain ⟨written, next, again, writes, -⟩ := v.output alike.core inputs ran
    obtain rfl := Core.eq_of_fault again
    exact ⟨written, n, .faulted within again, writes, alike⟩
  | served within ran =>
    rw [← cost, ← alike.interval] at within
    rw [← alike.counter] at ran
    obtain ⟨written, _, again, writes, cores⟩ := v.output alike.core inputs ran
    exact ⟨written, _, .served within again, writes, { alike with core := cores, counter := cost }⟩

end

variable [SeedProvider ω σ] [SeedProvider χ τ] [Randomness ω] [Randomness χ]
  {s next : Within (Seeded σ) ω} {t : Within (Seeded τ) χ} {length : ℕ} {a b : Bytes}
  {predictionResistant : Bool} {reply : Reply} {result : Except Failure Unit}

/-- Blocks are found too short alike. -/
theorem fetchSeed_alike (coupling : Coupling v.toView auxiliary sources worlds) {source rest : σ}
    {other : τ} {w world : ω} {x : χ} {strength : ℕ} {result : Except EntropyFailure Bytes}
    (related : sources source other) (coupled : worlds w x)
    (fetched : fetchSeed strength source w = (result, rest, world)) :
    ∃ again rest' world', fetchSeed strength other x = (again, rest', world') ∧
      Agree v.like result again ∧ sources rest rest' ∧ worlds world world' := by
  have answered := coupling.fetch related coupled
  rcases first : SeedSource.fetch source w with ⟨block, after, moved⟩
  rcases second : SeedSource.fetch other x with ⟨block', rest', world'⟩
  rw [first, second] at answered
  obtain ⟨agree, still, coupled⟩ := answered
  simp only [fetchSeed, first, Prod.mk.injEq] at fetched
  obtain ⟨rfl, rfl, rfl⟩ := fetched
  refine ⟨block'.bind (checkSeed strength), rest', world', ?_, ?_, still, coupled⟩
  · simp only [fetchSeed, second]
  cases agree with
  | error cause => exact .error cause
  | ok blocks =>
    simp only [Except.bind, checkSeed, v.length_eq blocks]
    split
    · exact .error _
    · exact .ok blocks

/-- Reseeds end alike. -/
theorem Reseeds.alike (reseeded : Reseeds s a result next)
    (coupling : Coupling v.toView auxiliary sources worlds) (alike : LikeStates v sources worlds s t)
    (inputs : v.like a b) :
    ∃ last, Reseeds t b result last ∧ LikeStates v sources worlds next last := by
  have length := v.length_eq inputs
  cases reseeded with
  | refused long => exact ⟨t, .refused (length ▸ long), alike⟩
  | unavailable short fetched =>
    rw [← alike.value.securityStrength] at fetched
    obtain ⟨_, source, world, again, agree, still, after⟩ :=
      fetchSeed_alike coupling alike.value.source alike.world fetched
    cases agree
    exact ⟨_, .unavailable (length ▸ short) again, { alike.value with source := still }, after⟩
  | mixed short fetched =>
    rw [← alike.value.securityStrength] at fetched
    obtain ⟨_, source, world, again, agree, still, after⟩ :=
      fetchSeed_alike coupling alike.value.source alike.world fetched
    cases agree with
    | ok entropies =>
      have cores := v.reseed alike.value.core entropies inputs
      refine ⟨_, .mixed (length ▸ short) again, ?_, after⟩
      exact ⟨cores, still, alike.value.securityStrength, rfl, alike.value.interval⟩

/-- Requests end alike, and what they put out looks alike. -/
theorem Serves.alike (served : Serves s length a predictionResistant reply next)
    (coupling : Coupling v.toView auxiliary sources worlds) (alike : LikeStates v sources worlds s t)
    (inputs : v.like a b) :
    ∃ written last, Serves t length b predictionResistant ⟨written, reply.result⟩ last ∧
      v.like reply.written written ∧ LikeStates v sources worlds next last := by
  have inputLength := v.length_eq inputs
  have limit := alike.value.maxRequest
  cases served with
  | tooLong _ beyond => exact ⟨[], t, .tooLong _ (limit ▸ beyond), v.nil, alike⟩
  | refused fits long => exact ⟨[], t, .refused (limit ▸ fits) (inputLength ▸ long), v.nil, alike⟩
  | direct fits short produced =>
    obtain ⟨written, last, produced, writes, after⟩ := produced.alike alike.value inputs
    exact ⟨written, _, .direct (limit ▸ fits) (inputLength ▸ short) produced, writes, after,
      alike.world⟩
  | unseeded fits reseeded =>
    obtain ⟨last, reseeded, after⟩ := reseeded.alike coupling alike inputs
    exact ⟨[], last, .unseeded (limit ▸ fits) reseeded, v.nil, after⟩
  | renewed fits reseeded produced =>
    obtain ⟨middle, reseeded, between⟩ := reseeded.alike coupling alike inputs
    obtain ⟨written, last, produced, writes, after⟩ := produced.alike between.value v.nil
    exact ⟨written, _, .renewed (limit ▸ fits) reseeded produced, writes, after, between.world⟩

end Seeded

namespace Coupling

variable {σ τ ω χ : Type} [SeedProvider ω σ] [SeedProvider χ τ] [Randomness ω] [Randomness χ]
  {v : CoreView} {auxiliary : Bool} {sources : σ → τ → Prop} {worlds : ω → χ → Prop}

/-- Seeded cores in coupled environments answer alike. -/
theorem bisimilar (coupling : Coupling v.toView auxiliary sources worlds) :
    Bisimilar v.toView auxiliary (Seeded.LikeStates v sources worlds) where
  generate related inputs asked := by
    obtain ⟨written, last, served, writes, after⟩ :=
      (Seeded.serves asked).alike coupling related inputs
    exact ⟨written, last, served.eq, writes, after⟩
  reseed related inputs reseeded := by
    obtain ⟨last, again, after⟩ := (Seeded.reseeds reseeded).alike coupling related inputs
    exact ⟨last, again.eq, after⟩
  draw available related found := by
    obtain ⟨agree, after⟩ := coupling.draw available related.world _
    cases found
    exact ⟨_, _, rfl, agree, related.value, after⟩
  blockBits related := by
    change Algorithm.blockBits _ = Algorithm.blockBits _
    rw [v.algorithm_eq related.value.core]
  securityStrength related := related.value.securityStrength
  maxRequest related := related.value.maxRequest

end Coupling

/-- Settings that differ at most in a personalization string that looks alike. -/
structure Config.Alike (v : View) (c d : Config) : Prop where
  personalization : Option.Rel v.like c.personalization d.personalization
  securityStrength : d.securityStrength = c.securityStrength
  entropyBits : d.entropyBits = c.entropyBits
  reseedInterval : d.reseedInterval = c.reseedInterval

/-- Builders that differ at most in a personalization string that looks alike. -/
structure Builder.Alike (v : View) (b c : Builder) : Prop where
  config : Config.Alike v b.config c.config
  auxiliary : c.auxiliary = b.auxiliary

/-- Plans that differ at most in a nonce and a personalization string that look alike. -/
structure Plan.Alike (v : View) (p q : Plan) : Prop where
  scheme : q.scheme = p.scheme
  nonce : v.like p.parameters.nonce q.parameters.nonce
  personalization : Option.Rel v.like p.parameters.personalization q.parameters.personalization
  securityStrength : q.parameters.securityStrength = p.parameters.securityStrength
  reseedInterval : q.parameters.reseedInterval = p.parameters.reseedInterval

/-- A view admits every algorithm that an order may stand for. -/
def CoreView.Admits (v : CoreView) (order : Order) : Prop :=
  ∀ scheme strength a, order.scheme = .ok scheme → scheme.algorithm strength = .ok a → v.admits a

def Order.CountsRequests : Order → Prop
  | dualEc _ => False
  | _ => True

theorem Order.CountsRequests.algorithm {order : Order} {scheme : Scheme} {strength : ℕ}
    {a : Algorithm} (counts : order.CountsRequests) (asked : order.scheme = .ok scheme)
    (chosen : scheme.algorithm strength = .ok a) : a.CountsRequests := by
  cases order with
  | hash d | hmac d =>
    cases asked
    cases chosen
    trivial
  | ctr keyBits seedBits =>
    simp only [Order.scheme, bind_eq_ok_iff] at asked
    obtain ⟨_, -, _, -, asked⟩ := asked
    cases asked
    simp only [Scheme.algorithm] at chosen
    split at chosen
    · cases chosen
    · cases chosen
      trivial
  | dualEc d => exact counts.elim

/-- Lengths are all that can be seen of every mechanism that counts requests. -/
theorem CoreView.lengths_admits {order : Order} (counts : order.CountsRequests) :
    CoreView.lengths.Admits order :=
  fun _ _ _ => counts.algorithm

section

variable {v : View} {p q : Plan} {b c : Builder} {nonce other : Bytes}

/-- An absent string is as good as an empty one. -/
theorem View.getD (v : View) {s t : Option Bytes} (alike : Option.Rel v.like s t) :
    v.like (s.getD []) (t.getD []) := by
  cases alike with
  | some related => exact related
  | none => exact v.nil

theorem Plan.Alike.validate (alike : Plan.Alike v p q) (entropyBits : ℕ) :
    q.validate entropyBits = p.validate entropyBits := by
  have length := v.length_eq (v.getD alike.personalization)
  simp only [Plan.validate, alike.scheme, alike.securityStrength, alike.reseedInterval, length]

theorem Builder.Alike.plan (alike : Builder.Alike v b c) (nonces : v.like nonce other)
    (scheme : Scheme) : Plan.Alike v (b.plan scheme nonce) (c.plan scheme other) where
  scheme := rfl
  nonce := nonces
  personalization := alike.config.personalization
  securityStrength := alike.config.securityStrength
  reseedInterval := alike.config.reseedInterval

/-- The checks of a builder see no more than the length of its personalization string. -/
theorem Builder.Alike.checkedPlan (alike : Builder.Alike v b c) (nonces : v.like nonce other)
    (order : Order) :
    Agree (Plan.Alike v) (b.checkedPlan order nonce) (c.checkedPlan order other) := by
  unfold Builder.checkedPlan
  cases order.scheme with
  | error refusal => exact .error refusal
  | ok scheme =>
    have plans := alike.plan nonces scheme
    have same : (c.plan scheme other).validate c.config.entropyBits =
        (b.plan scheme nonce).validate b.config.entropyBits := by
      rw [plans.validate, alike.config.entropyBits]
    simp only [bind, Except.bind, same]
    cases (b.plan scheme nonce).validate b.config.entropyBits with
    | error refusal => exact .error refusal
    | ok u => exact .ok plans

end

namespace Coupling

variable {σ τ ω χ : Type} [SeedProvider ω σ] [SeedProvider χ τ] [Randomness ω] [Randomness χ]
  {v : CoreView} {auxiliary : Bool} {sources : σ → τ → Prop} {worlds : ω → χ → Prop}
  {p q : Plan} {b c : Builder} {w : ω} {x : χ}

/-- Plans that look alike are carried out alike on related sources. -/
theorem instantiate (coupling : Coupling v.toView auxiliary sources worlds)
    (alike : Plan.Alike v.toView p q) {source : σ} {other : τ} (related : sources source other)
    (coupled : worlds w x)
    (admitted : ∀ a, p.scheme.algorithm p.parameters.securityStrength = .ok a → v.admits a) :
    Agree (Seeded.Alike v sources) (p.instantiate source w).1 (q.instantiate other x).1 ∧
      worlds (p.instantiate source w).2 (q.instantiate other x).2 := by
  have strings := v.getD alike.personalization
  unfold Plan.instantiate
  rw [alike.scheme, alike.securityStrength]
  split
  next refusal _ => exact ⟨.error _, coupled⟩
  next a chosen =>
    simp only [Seeded.instantiate, alike.reseedInterval, alike.securityStrength,
      ← v.length_eq strings]
    split
    · exact ⟨.error _, coupled⟩
    split
    · exact ⟨.error _, coupled⟩
    rcases fetched : Seeded.fetchSeed p.parameters.securityStrength source w with
      ⟨result, rest, world⟩
    obtain ⟨again, rest', world', refetched, agree, still, after⟩ :=
      Seeded.fetchSeed_alike coupling related coupled fetched
    simp only [refetched]
    cases agree with
    | error cause => exact ⟨.error _, after⟩
    | ok entropies =>
      have cores := v.instantiate (admitted a chosen) entropies alike.nonce strings
      exact ⟨.ok ⟨cores, still, rfl, rfl, rfl⟩, after⟩

/-- Plans that look alike are carried out alike on new sources. -/
theorem carryOut (coupling : Coupling v.toView auxiliary sources worlds)
    (alike : Plan.Alike v.toView p q) (coupled : worlds w x)
    (admitted : ∀ a, p.scheme.algorithm p.parameters.securityStrength = .ok a → v.admits a)
    (entropyBits : ℕ) :
    Agree (Seeded.Alike v sources) (p.carryOut entropyBits w).1 (q.carryOut entropyBits x).1 ∧
      worlds (p.carryOut entropyBits w).2 (q.carryOut entropyBits x).2 := by
  obtain ⟨agree, after⟩ := coupling.get coupled entropyBits
  unfold Plan.carryOut
  rcases got : SeedProvider.get w entropyBits with ⟨result, world⟩
  rcases regot : SeedProvider.get x entropyBits with ⟨result', world'⟩
  rw [got, regot] at agree after
  cases agree with
  | error cause => exact ⟨.error _, after⟩
  | ok related => exact coupling.instantiate alike related after admitted

/-- Builders that look alike build generators that are alike, or fail for the same reason, with the
same events. -/
theorem build (coupling : Coupling v.toView auxiliary sources worlds)
    (alike : Builder.Alike v.toView b c) (flag : b.auxiliary = auxiliary) (coupled : worlds w x)
    {nonce other : Bytes} (nonces : v.like nonce other) {order : Order} (admitted : v.Admits order)
    (predictionResistant : Bool) :
    Agree (Generator.Alike auxiliary (Seeded.Alike v sources))
        (b.build order nonce predictionResistant w).1
        (c.build order other predictionResistant x).1 ∧
      (c.build order other predictionResistant x).2.1 =
        (b.build order nonce predictionResistant w).2.1 ∧
      worlds (b.build order nonce predictionResistant w).2.2
        (c.build order other predictionResistant x).2.2 := by
  have plans := alike.checkedPlan nonces order
  unfold Builder.build
  cases checked : b.checkedPlan order nonce with
  | error refusal =>
    rw [checked] at plans
    generalize c.checkedPlan order other = plan at plans
    cases plans
    exact ⟨.error _, rfl, coupled⟩
  | ok p =>
    rw [checked] at plans
    generalize c.checkedPlan order other = plan at plans
    cases plans with
    | @ok _ q same =>
      have chosen (a : Algorithm)
          (chosen : p.scheme.algorithm p.parameters.securityStrength = .ok a) : v.admits a := by
        obtain ⟨scheme, asked, rfl, -⟩ := Builder.checkedPlan_eq_ok_iff.mp checked
        exact admitted _ _ a asked chosen
      obtain ⟨agree, after⟩ := coupling.carryOut same coupled chosen b.config.entropyBits
      simp only [alike.config.entropyBits, alike.config.securityStrength, alike.auxiliary,
        same.scheme]
      rcases carried : p.carryOut b.config.entropyBits w with ⟨result, world⟩
      rcases recarried : q.carryOut b.config.entropyBits x with ⟨result', world'⟩
      rw [carried, recarried] at agree after
      cases agree with
      | error cause => exact ⟨.error cause, rfl, after⟩
      | ok mechanisms => exact ⟨.ok ⟨mechanisms, flag, rfl, rfl, rfl⟩, rfl, after⟩

/-- Generators that are alike are used alike in coupled environments. -/
theorem useGenerator (coupling : Coupling v.toView auxiliary sources worlds)
    {g : Generator (Seeded σ)} {h : Generator (Seeded τ)}
    (alike : Generator.Alike auxiliary (Seeded.Alike v sources) g h) (coupled : worlds w x)
    {operation other : Operation} (operations : operation.Alike v.toView other) :
    (Session.useGenerator g w operation).1.Alike v.toView (Session.useGenerator h x other).1 ∧
      (Session.useGenerator h x other).2.1 = (Session.useGenerator g w operation).2.1 ∧
      Generator.Alike auxiliary (Seeded.Alike v sources)
        (Session.useGenerator g w operation).2.2.1 (Session.useGenerator h x other).2.2.1 ∧
      worlds (Session.useGenerator g w operation).2.2.2
        (Session.useGenerator h x other).2.2.2 := by
  have within : Generator.Alike auxiliary (Seeded.LikeStates v sources worlds)
      (g.map (Within.mk · w)) (h.map (Within.mk · x)) :=
    { alike with mechanism := ⟨alike.mechanism, coupled⟩ }
  obtain ⟨answers, events, after⟩ := within.apply coupling.bisimilar operations
  exact ⟨answers, events, { after with mechanism := after.mechanism.value }, after.mechanism.world⟩

end Coupling

end RandomBits
