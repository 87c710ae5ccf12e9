import Mathlib
import RandomBits.Entropy.Playback
import RandomBits.Proofs.CallProtocol
import RandomBits.Proofs.Endurance
import RandomBits.Proofs.Tally

/-! # The schedule of fetches

Over sources that never fail, a generator whose mechanism counts requests fetches entropy by a fixed
schedule. With prediction resistance it fetches once per chunk. Without, chunks are `Paced` by the
reseed interval: the counter and the number of automatic reseeds tell how many were served since the
last reseed on demand. A whole run fetches as its segments between reseeds on demand demand
(`Builder.entropy_scheduled`).
-/

namespace RandomBits

/-- How a counter that starts over beyond an interval moves on by some chunks: how often it starts
over, and where it is first and last. It never starts over before there is need. -/
structure Paced (interval chunks automatic first last : ℕ) : Prop where
  total : first + chunks = interval * automatic + last
  within : last ≤ interval
  counted : 0 < automatic → 0 < last

namespace Paced

variable {interval chunks later automatic again first middle last : ℕ}

theorem refl (within : first ≤ interval) : Paced interval 0 0 first first where
  total := by omega
  within := within
  counted none := absurd none (Nat.lt_irrefl 0)

theorem trans (front : Paced interval chunks automatic first middle)
    (back : Paced interval later again middle last) :
    Paced interval (chunks + later) (automatic + again) first last where
  total := by
    have := front.total
    have := back.total
    rw [Nat.mul_add]
    omega
  within := back.within
  counted some := by
    have := back.total
    rcases Nat.eq_zero_or_pos again with rfl | reset
    · have := front.counted some
      omega
    · exact back.counted reset

/-- Where the interval is used up, the next chunk starts over. -/
private theorem restart (full : first = interval) (paced : Paced interval chunks 0 0 last)
    (some : 0 < chunks) : Paced interval chunks 1 first last where
  total := by
    have := paced.total
    omega
  within := paced.within
  counted _ := by
    have := paced.total
    omega

/-- From zero on, the counter starts over once per full interval, except at the very end. -/
private theorem automatic_eq (paced : Paced interval chunks automatic 0 last) (positive : 0 < interval) :
    automatic = blocksFor chunks interval - 1 := by
  have total := paced.total
  have within := paced.within
  have enough : blocksFor chunks interval ≤ automatic + 1 := by
    rw [blocksFor_le_iff positive, Nat.succ_mul, Nat.mul_comm]
    omega
  rcases Nat.eq_zero_or_pos automatic with rfl | reset
  · omega
  · have needed : ¬ blocksFor chunks interval ≤ automatic := by
      have := paced.counted reset
      rw [blocksFor_le_iff positive, Nat.mul_comm]
      omega
    omega

end Paced

namespace Operation

def isReseed : Operation → Bool
  | reseed _ => true
  | _ => false

def chunks : Operation → ℕ
  | generate count _ | word count => blocksFor count maxRequestBytes
  | fill buffer _ => blocksFor buffer.length maxRequestBytes
  | reseed _ | properties | describe => 0

instance (auxiliaryLength : ℕ) : DecidablePred (Fits auxiliaryLength)
  | generate _ additional | fill _ additional =>
    inferInstanceAs (Decidable (additional.length ≤ maxInputLength))
  | reseed additional =>
    inferInstanceAs (Decidable (additional.length + auxiliaryLength ≤ maxInputLength))
  | word _ | properties | describe => inferInstanceAs (Decidable True)

/-- The operations whose additional input fits. The others are refused. -/
def accepted (auxiliaryLength : ℕ) (operations : List Operation) : List Operation :=
  operations.filter fun operation => decide (operation.Fits auxiliaryLength)

private theorem accepted_cons_of_fits {auxiliaryLength : ℕ} {operation : Operation}
    (fits : operation.Fits auxiliaryLength) (rest : List Operation) :
    accepted auxiliaryLength (operation :: rest) = operation :: accepted auxiliaryLength rest :=
  List.filter_cons_of_pos (decide_eq_true fits)

private theorem accepted_cons_of_unfit {auxiliaryLength : ℕ} {operation : Operation}
    (unfit : ¬ operation.Fits auxiliaryLength) (rest : List Operation) :
    accepted auxiliaryLength (operation :: rest) = accepted auxiliaryLength rest :=
  List.filter_cons_of_neg (by rwa [decide_eq_true_eq])

private theorem chunks_of_isReseed {operation : Operation} (reseeds : operation.isReseed = true) :
    operation.chunks = 0 := by
  cases operation with
  | reseed _ => rfl
  | generate _ _ | fill _ _ | word _ | properties | describe => cases reseeds

/-- The number of automatic fetches of some operations, where so many chunks were requested since the
last reseed on demand. All fetches since then are counted again. -/
def automaticFetches (interval : ℕ) : (pending : ℕ) → List Operation → ℕ
  | pending, [] => blocksFor pending interval - 1
  | pending, operation :: rest =>
    if operation.isReseed then blocksFor pending interval - 1 + automaticFetches interval 0 rest
    else automaticFetches interval (pending + operation.chunks) rest

variable {interval pending : ℕ}

/-- Every segment between two reseeds on demand fetches by its number of chunks. -/
theorem automaticFetches_eq (operations : List Operation) :
    automaticFetches interval 0 operations =
      ((operations.splitOnP isReseed).map fun segment =>
        blocksFor (segment.map chunks).sum interval - 1).sum := by
  have front (pending : ℕ) (first : List Operation) (others : List (List Operation))
      (split : operations.splitOnP isReseed = first :: others) :
      automaticFetches interval pending operations =
        blocksFor (pending + (first.map chunks).sum) interval - 1 +
          (others.map fun segment => blocksFor (segment.map chunks).sum interval - 1).sum := by
    induction operations generalizing pending first others with
    | nil =>
      cases split
      rfl
    | cons operation rest ih =>
      obtain ⟨next, later, split'⟩ := List.exists_cons_of_ne_nil (List.splitOnP_ne_nil isReseed rest)
      rw [List.splitOnP_cons_eq_if_modifyHead, split'] at split
      cases reseeds : operation.isReseed with
      | true =>
        rw [reseeds, if_pos rfl] at split
        cases split
        simp only [automaticFetches, reseeds, if_true, ih 0 next later split', List.map_nil,
          List.sum_nil, Nat.add_zero, Nat.zero_add, List.map_cons, List.sum_cons]
      | false =>
        rw [reseeds, if_neg Bool.false_ne_true] at split
        cases split
        simp only [automaticFetches, reseeds, Bool.false_eq_true, if_false,
          ih _ next others split', List.map_cons, List.sum_cons, Nat.add_assoc]
  obtain ⟨first, others, split⟩ :=
    List.exists_cons_of_ne_nil (List.splitOnP_ne_nil isReseed operations)
  rw [front 0 first others split, split, List.map_cons, List.sum_cons, Nat.zero_add]

private theorem automaticFetches_of_quiet (operations : List Operation)
    (quiet : ∀ operation ∈ operations, operation.isReseed = false) :
    automaticFetches interval pending operations =
      blocksFor (pending + (operations.map chunks).sum) interval - 1 := by
  induction operations generalizing pending with
  | nil => rfl
  | cons operation rest ih =>
    obtain ⟨first, others⟩ := List.forall_mem_cons.mp quiet
    simp only [automaticFetches, first, Bool.false_eq_true, if_false, ih others, List.map_cons,
      List.sum_cons, Nat.add_assoc]

/-- After a reseed on demand everything starts over. -/
theorem automaticFetches_append (before after : List Operation)
    (fresh : before.getLast?.all isReseed = true) :
    automaticFetches interval 0 (before ++ after) =
      automaticFetches interval 0 before + automaticFetches interval 0 after := by
  have reseeded (earlier : List Operation) (last : Operation) (reseeds : last.isReseed = true)
      (pending : ℕ) : automaticFetches interval pending (earlier ++ last :: after) =
        automaticFetches interval pending (earlier ++ [last]) + automaticFetches interval 0 after := by
    induction earlier generalizing pending with
    | nil => simp [automaticFetches, reseeds]
    | cons operation rest ih =>
      simp only [List.cons_append, automaticFetches, ih]
      split
      · rw [Nat.add_assoc]
      · rfl
  rcases List.eq_nil_or_concat before with rfl | ⟨earlier, last, rfl⟩
  · simp [automaticFetches]
  · have reseeds : last.isReseed = true := by simpa using fresh
    rw [List.concat_eq_append, List.append_assoc]
    exact reseeded earlier last reseeds 0

/-- Behind a reseed on demand, a segment adds no more than its own automatic fetches. -/
private theorem fetches_append (before segment : List Operation)
    (fresh : before.getLast?.all isReseed = true)
    (quiet : ∀ operation ∈ segment, operation.isReseed = false) :
    (before ++ segment).countP isReseed + automaticFetches interval 0 (before ++ segment) =
      before.countP isReseed + automaticFetches interval 0 before +
        (blocksFor (segment.map chunks).sum interval - 1) := by
  have none : segment.countP isReseed = 0 := by
    rw [List.countP_eq_zero]
    exact fun operation member => Bool.eq_false_iff.mp (quiet operation member)
  rw [List.countP_append, none, Nat.add_zero, automaticFetches_append before segment fresh,
    automaticFetches_of_quiet segment quiet, Nat.zero_add, Nat.add_assoc]

end Operation

/-- The number of fetches and of automatic reseeds that chunks lead to, with and without prediction
resistance, while the counter moves on. -/
inductive Due (interval chunks first last : ℕ) : Bool → (fetched automatic : ℕ) → Prop
  | direct {automatic : ℕ} (paced : Paced interval chunks automatic first last) :
      Due interval chunks first last false automatic automatic
  | resistant (within : last ≤ interval) : Due interval chunks first last true chunks 0

namespace Due

variable {interval chunks later first middle last fetched again automatic reset : ℕ}
  {predictionResistant : Bool}

theorem refl (within : first ≤ interval) (predictionResistant : Bool) :
    Due interval 0 first first predictionResistant 0 0 := by
  cases predictionResistant with
  | false => exact .direct (.refl within)
  | true => exact .resistant within

theorem trans (front : Due interval chunks first middle predictionResistant fetched automatic)
    (back : Due interval later middle last predictionResistant again reset) :
    Due interval (chunks + later) first last predictionResistant (fetched + again)
      (automatic + reset) := by
  cases front with
  | direct paced =>
    cases back with
    | direct paced' => exact .direct (paced.trans paced')
  | resistant _ =>
    cases back with
    | resistant within => exact .resistant within

theorem within (due : Due interval chunks first last predictionResistant fetched automatic) :
    last ≤ interval := by
  cases due with
  | direct paced => exact paced.within
  | resistant within => exact within

end Due

namespace Seeded

variable {σ ω : Type} [SeedSource σ ω] {s next : Within (Seeded σ) (Tallied ω)} {length : ℕ}
  {additional : Bytes} {reply : Reply} {predictionResistant : Bool}

theorem fetchSeed_tally {strength : ℕ} {source rest : σ} {w world : Tallied ω}
    {result : Except EntropyFailure Bytes}
    (fetched : fetchSeed strength source w = (result, rest, world)) :
    world.fetches = w.fetches + 1 := by
  simp only [fetchSeed, SeedSource.fetch, Prod.mk.injEq] at fetched
  obtain ⟨-, -, rfl⟩ := fetched
  rfl

/-- A reseed is one fetch. -/
theorem Reseeds.tally (reseeded : Reseeds s additional (.ok ()) next) :
    next.world.fetches = s.world.fetches + 1 ∧ next.value.counter = 0 := by
  cases reseeded with
  | mixed _ fetched => exact ⟨fetchSeed_tally fetched, rfl⟩

/-- A request that succeeds counts as one, after a fetch if it is prediction resistant. -/
theorem Serves.due (served : Serves s length additional predictionResistant reply next)
    (counts : s.value.core.algorithm.CountsRequests) (success : reply.result = .ok ()) :
    ∃ fetched, next.world.fetches = s.world.fetches + fetched ∧
      Due s.value.interval 1 s.value.counter next.value.counter predictionResistant fetched 0 := by
  cases served with
  | tooLong _ _ | refused _ _ | unseeded _ _ => cases success
  | direct _ _ produced =>
    cases produced with
    | exhausted _ | faulted _ _ => cases success
    | served within _ =>
      rw [counts.requestCost] at within
      refine ⟨0, rfl, .direct ⟨?_, ?_, nofun⟩⟩
      · simp only [counts.requestCost, Nat.mul_zero, Nat.zero_add]
      · simpa only [counts.requestCost] using within
  | renewed _ reseeded produced =>
    have same := properties_eq_iff.mp reseeded.properties
    cases produced with
    | exhausted _ | faulted _ _ => cases success
    | served within _ =>
      rw [same.2.1] at within
      exact ⟨1, reseeded.tally.1, .resistant within⟩

/-- The interval stops a request only if it is used up, and only without prediction resistance. -/
theorem Serves.used_up (served : Serves s length additional predictionResistant reply next)
    (counts : s.value.core.algorithm.CountsRequests) (positive : 0 < s.value.interval)
    (within : s.value.counter ≤ s.value.interval) (required : reply.result = .error .reseedRequired) :
    predictionResistant = false ∧ next = s ∧ s.value.counter = s.value.interval := by
  cases served with
  | tooLong _ _ | refused _ _ | unseeded _ _ => cases required
  | direct _ _ produced =>
    cases produced with
    | exhausted beyond =>
      rw [counts.requestCost] at beyond
      exact ⟨rfl, rfl, by omega⟩
    | faulted _ _ | served _ _ => cases required
  | renewed fits reseeded produced =>
    obtain ⟨-, ⟨direct, -⟩ | ⟨-, costly⟩⟩ := (Serves.renewed fits reseeded produced).exhausted required
    · cases direct
    · have cost := counts.requestCost length
      have interval : s.value.interval < s.value.core.algorithm.requestCost length := costly
      omega

end Seeded

namespace Generator

private theorem run_cons {μ : Type} [Mechanism μ] [Randomness μ] (operation : Operation)
    (rest : List Operation) (g : Generator μ) :
    run (operation :: rest) g =
      ((g.apply operation).1 :: (run rest (g.apply operation).2.2).1,
        (g.apply operation).2.1 ++ (run rest (g.apply operation).2.2).2.1,
        (run rest (g.apply operation).2.2).2.2) := rfl

variable {σ ω : Type}

def fetches (g : Generator (Within (Seeded σ) (Tallied ω))) : ℕ := g.mechanism.world.fetches

def counter (g : Generator (Within (Seeded σ) (Tallied ω))) : ℕ := g.mechanism.value.counter

/-- What some chunks cost: the fetches, the automatic reseeds that are reported, and what is due for
them. -/
structure Bill (interval : ℕ) (g h : Generator (Within (Seeded σ) (Tallied ω))) (events : List Event)
    (chunks fetched automatic : ℕ) : Prop where
  fetches : h.fetches = g.fetches + fetched
  reported : events.count .intervalExhausted = automatic
  resistance : h.predictionResistant = g.predictionResistant
  due : Due interval chunks g.counter h.counter g.predictionResistant fetched automatic

/-- What a reseed on demand does: one fetch, after which the counter starts over. -/
structure Renews (g h : Generator (Within (Seeded σ) (Tallied ω))) (events : List Event) : Prop where
  fetches : h.fetches = g.fetches + 1
  counter : h.counter = 0
  reported : events.count .intervalExhausted = 0
  resistance : h.predictionResistant = g.predictionResistant

/-- What an operation costs, given the number of auxiliary bytes that a reseed adds to its input. -/
inductive Charges (interval auxiliaryLength : ℕ) (g h : Generator (Within (Seeded σ) (Tallied ω)))
    (events : List Event) (operation : Operation) : Prop
  | refused (unfit : ¬ operation.Fits auxiliaryLength) (bill : Bill interval g h events 0 0 0)
  | reseeded (fits : operation.Fits auxiliaryLength) (reseeds : operation.isReseed = true)
      (renews : Renews g h events)
  | billed {fetched automatic : ℕ} (fits : operation.Fits auxiliaryLength)
      (request : operation.isReseed = false)
      (bill : Bill interval g h events operation.chunks fetched automatic)

section

variable {interval chunks later fetched again automatic reset : ℕ} {events more : List Event}
  {g h k : Generator (Within (Seeded σ) (Tallied ω))}

theorem Bill.refl (within : g.counter ≤ interval) : Bill interval g g [] 0 0 0 :=
  ⟨rfl, rfl, rfl, .refl within _⟩

theorem Bill.trans (front : Bill interval g h events chunks fetched automatic)
    (back : Bill interval h k more later again reset) :
    Bill interval g k (events ++ more) (chunks + later) (fetched + again) (automatic + reset) where
  fetches := by rw [back.fetches, front.fetches, Nat.add_assoc]
  reported := by rw [List.count_append, front.reported, back.reported]
  resistance := back.resistance.trans front.resistance
  due := front.due.trans (front.resistance ▸ back.due)

theorem Bill.paced (bill : Bill interval g h events chunks fetched automatic)
    (direct : g.predictionResistant = false) :
    fetched = automatic ∧ Paced interval chunks automatic g.counter h.counter := by
  have due := bill.due
  rw [direct] at due
  cases due with
  | direct paced => exact ⟨rfl, paced⟩

theorem Bill.renewed (bill : Bill interval g h events chunks fetched automatic)
    (resistant : g.predictionResistant = true) : fetched = chunks ∧ automatic = 0 := by
  have due := bill.due
  rw [resistant] at due
  cases due with
  | resistant _ => exact ⟨rfl, rfl⟩

end

variable [SeedSource σ ω] {g : Generator (Within (Seeded σ) (Tallied ω))} {additional chunk : Bytes}
  {calls : List Exchange} {o : Outcome (Within (Seeded σ) (Tallied ω))}

/-- A chunk that is served takes a single automatic reseed if the interval is used up, and none
otherwise. -/
theorem Attempts.billed (attempted : Attempts g additional chunk calls o)
    (counts : g.mechanism.value.core.algorithm.CountsRequests)
    (positive : 0 < g.mechanism.value.interval) (within : g.counter ≤ g.mechanism.value.interval)
    (success : o.result = .ok ()) :
    ∃ fetched automatic,
      Bill g.mechanism.value.interval g o.generator o.events 1 fetched automatic := by
  cases attempted with
  | failed _ => simp at success
  | unseeded _ _ ended => simp [ended] at success
  | served asked =>
    obtain ⟨fetched, fetches, due⟩ := (Seeded.serves asked).due counts rfl
    exact ⟨fetched, 0, fetches, rfl, rfl, due⟩
  | @retried _ m middle _ _ asked reseeded retried =>
    obtain ⟨direct, rfl, full⟩ := (Seeded.serves asked).used_up counts positive within rfl
    have renewed := Seeded.reseeds reseeded
    obtain ⟨once, reset⟩ := renewed.tally
    obtain ⟨algorithm, interval, -⟩ := Seeded.properties_eq_iff.mp renewed.properties
    cases retried with
    | failed _ | looped _ => simp at success
    | served again =>
      obtain ⟨fetched, fetches, due⟩ := (Seeded.serves again).due (algorithm ▸ counts) rfl
      dsimp only at due
      rw [direct] at due
      cases due with
      | direct paced =>
        rw [reset, interval] at paced
        refine ⟨1, 1, fetches.trans once, rfl, rfl, ?_⟩
        rw [direct]
        exact .direct (paced.restart full one_pos)

variable [Randomness ω] {live : σ → Tallied ω → Prop} {auxiliary : Bool} {kind : Instantiation}
  {chunks : List Bytes}

omit [SeedSource σ ω] [Randomness ω] in
theorem not_stumbled {lengths : List ℕ} {fault : Fault} (counts : kind.algorithm.CountsRequests) :
    ¬ Stumbled kind lengths additional g fault := by
  rintro ⟨rfl, length, -, raised⟩
  exact Core.not_raises length _ counts fault raised

omit [SeedSource σ ω] [Randomness ω] in
/-- Where no point operation can fail, calls end well. -/
theorem Ends.success {lengths : List ℕ} (ended : Ends live auxiliary kind lengths additional o)
    (counts : kind.algorithm.CountsRequests) :
    o.result = .ok () ∧ Healthy live auxiliary kind o.generator := by
  rcases ended with success | ⟨fault, -, stumbled⟩
  · exact success
  · exact absurd stumbled (not_stumbled counts)

omit [Randomness ω] in
theorem Healthy.billed (healthy : Healthy live auxiliary kind g)
    (counts : kind.algorithm.CountsRequests) (within : g.counter ≤ kind.reseedInterval)
    (attempted : Attempts g additional chunk calls o) (success : o.result = .ok ()) :
    ∃ fetched automatic, Bill kind.reseedInterval g o.generator o.events 1 fetched automatic := by
  obtain rfl := healthy.kind
  exact attempted.billed counts healthy.positive within success

/-- Chunks in order are billed together. -/
theorem Fills.billed (filled : Fills additional g chunks calls o)
    (healthy : Healthy live auxiliary kind g)
    (dependable : Dependable kind.securityStrength auxiliary live)
    (counts : kind.algorithm.CountsRequests) (within : g.counter ≤ kind.reseedInterval)
    (fits : ∀ chunk ∈ chunks, chunk.length ≤ kind.maxRequest)
    (short : additional.length ≤ maxInputLength) :
    ∃ fetched automatic,
      Bill kind.reseedInterval g o.generator o.events chunks.length fetched automatic := by
  induction filled with
  | nil g => exact ⟨0, 0, .refl within⟩
  | stopped attempted failure =>
    have first := fits _ (List.mem_cons_self ..)
    have ended := (attempted.ends healthy dependable first short).success counts
    cases failure.symm.trans ended.1
  | @cons g chunk rest calls later o last attempted success _ ih =>
    have first := fits _ (List.mem_cons_self ..)
    have still := ((attempted.ends healthy dependable first short).success counts).2
    obtain ⟨fetched, automatic, front⟩ := healthy.billed counts within attempted success
    obtain ⟨again, reset, back⟩ := ih still front.due.within fun chunk member =>
      fits chunk (List.mem_cons_of_mem _ member)
    rw [List.length_cons, Nat.add_comm]
    exact ⟨_, _, front.trans back⟩

theorem Healthy.fill_billed (healthy : Healthy live auxiliary kind g)
    (dependable : Dependable kind.securityStrength auxiliary live)
    (counts : kind.algorithm.CountsRequests) (within : g.counter ≤ kind.reseedInterval)
    (buffer : Bytes) (short : additional.length ≤ maxInputLength) :
    ∃ fetched automatic, Bill kind.reseedInterval g (g.fill buffer additional).generator
      (g.fill buffer additional).events (blocksFor buffer.length maxRequestBytes) fetched automatic := by
  have size : g.chunkLength = maxRequestBytes := by
    obtain rfl := healthy.kind
    exact healthy.chunkLength.trans (counts.maxRequest _)
  rw [fill_of_usable healthy.usable]
  obtain ⟨calls, filled⟩ := fills additional (buffer.chunks g.chunkLength) g
  have billed := filled.billed healthy dependable counts within
    (fun chunk member => healthy.chunkLength ▸ Bytes.length_le_of_mem_chunks member) short
  rw [Bytes.length_chunks, size] at billed
  rw [size]
  exact billed

omit [Randomness ω] in
/-- Additional input that is too long is refused before anything happens. -/
theorem Healthy.fill_unfit (healthy : Healthy live auxiliary kind g) (buffer : Bytes)
    (long : maxInputLength < additional.length) :
    (g.fill buffer additional).generator = g ∧ (g.fill buffer additional).events = [] := by
  have positive : 0 < g.chunkLength := lt_max_of_lt_right one_pos
  rw [fill_of_usable healthy.usable]
  by_cases empty : buffer = []
  · rw [empty, Bytes.chunks_nil]
    exact ⟨rfl, rfl⟩
  · have fits : (buffer.take g.chunkLength).length ≤ g.mechanism.value.maxRequest := by
      have limit : g.chunkLength = g.mechanism.value.maxRequest := by
        obtain rfl := healthy.kind
        exact healthy.chunkLength
      rw [← limit]
      exact List.length_take_le ..
    have refused : Mechanism.generate g.mechanism (buffer.take g.chunkLength).length additional
        g.predictionResistant = (.refusal (.refused .additionalInputTooLong), g.mechanism) := by
      cases g.predictionResistant with
      | false => exact (Seeded.Serves.refused fits long).eq
      | true => exact (Seeded.Serves.unseeded fits (.refused long)).eq
    have failed : (g.fillChunk additional (buffer.take g.chunkLength)).result =
        .error (.refused .additionalInputTooLong) := by
      rw [fillChunk_of_failed refused, result_fail]
    rw [Bytes.chunks_of_ne_nil positive empty, fillChunks_cons_of_error failed,
      fillChunk_of_failed refused]
    exact ⟨rfl, rfl⟩

omit [Randomness ω] in
/-- A reseed that is refused changes nothing. -/
theorem reseedMechanism_unfit (long : maxInputLength < additional.length) :
    (g.reseedMechanism additional).generator = g ∧ (g.reseedMechanism additional).events = [] := by
  have refused := (Seeded.Reseeds.refused (s := g.mechanism) long).eq
  simp only [reseedMechanism, refused]
  exact ⟨rfl, rfl⟩

/-- What is drawn on the way to a reseed is not fetched. -/
private theorem fetches_of_drawn {w world : Tallied ω}
    (drawn : world = w ∨ ∃ length, world = (Randomness.draw w length).2) :
    world.fetches = w.fetches := by
  rcases drawn with rfl | ⟨length, rfl⟩
  · rfl
  · rfl

theorem Healthy.reseed_renews (healthy : Healthy live auxiliary kind g)
    (dependable : Dependable kind.securityStrength auxiliary live)
    (short : additional.length + (if auxiliary then blocksFor kind.securityStrength 8 else 0) ≤
      maxInputLength) :
    Renews g (g.reseed additional).generator (g.reseed additional).events := by
  obtain ⟨drawn, world, same, still, length, unfetched⟩ := healthy.reseed_drawn dependable additional
  have fits : (additional ++ drawn).length ≤ maxInputLength := by
    rw [List.length_append, length]
    exact short
  rcases reseeded : Mechanism.reseed { g.mechanism with world } (additional ++ drawn) with
    ⟨result, m⟩
  obtain ⟨rfl, -, -⟩ := still.reseeded dependable fits reseeded
  obtain ⟨once, reset⟩ := (Seeded.reseeds reseeded).tally
  have fetched : m.world.fetches = g.mechanism.world.fetches + 1 := by
    rw [once, fetches_of_drawn unfetched]
  rw [same]
  simp only [reseedMechanism, reseeded]
  exact ⟨fetched, reset, rfl, rfl⟩

/-- An operation whose additional input does not fit costs nothing. -/
theorem Healthy.apply_unfit (healthy : Healthy live auxiliary kind g)
    (dependable : Dependable kind.securityStrength auxiliary live)
    (within : g.counter ≤ kind.reseedInterval) {operation : Operation}
    (unfit : ¬ operation.Fits (if auxiliary then blocksFor kind.securityStrength 8 else 0)) :
    Healthy live auxiliary kind (g.apply operation).2.2 ∧
      Bill kind.reseedInterval g (g.apply operation).2.2 (g.apply operation).2.1 0 0 0 := by
  have filled (buffer : Bytes) {additional : Bytes} (long : maxInputLength < additional.length) :
      Healthy live auxiliary kind (g.fill buffer additional).generator ∧
        Bill kind.reseedInterval g (g.fill buffer additional).generator
          (g.fill buffer additional).events 0 0 0 := by
    obtain ⟨same, events⟩ := healthy.fill_unfit buffer long
    rw [same, events]
    exact ⟨healthy, .refl within⟩
  cases operation with
  | generate count additional => exact filled (Bytes.zeros count) (not_le.mp unfit)
  | fill buffer additional => exact filled buffer (not_le.mp unfit)
  | reseed additional =>
    obtain ⟨drawn, world, same, still, length, unfetched⟩ :=
      healthy.reseed_drawn dependable additional
    have long : maxInputLength < (additional ++ drawn).length := by
      rw [List.length_append, length]
      exact not_le.mp unfit
    obtain ⟨after, events⟩ := reseedMechanism_unfit
      (g := { g with mechanism := { g.mechanism with world } }) long
    simp only [Generator.apply, same, after, events]
    exact ⟨still, fetches_of_drawn unfetched, rfl, rfl, .refl within _⟩
  | word _ | properties | describe => exact absurd trivial unfit

/-- A request whose additional input fits is billed by its chunks. -/
theorem Healthy.apply_billed (healthy : Healthy live auxiliary kind g)
    (dependable : Dependable kind.securityStrength auxiliary live)
    (counts : kind.algorithm.CountsRequests) (within : g.counter ≤ kind.reseedInterval)
    {operation : Operation}
    (fits : operation.Fits (if auxiliary then blocksFor kind.securityStrength 8 else 0))
    (request : operation.isReseed = false) :
    ∃ fetched automatic, Bill kind.reseedInterval g (g.apply operation).2.2
      (g.apply operation).2.1 operation.chunks fetched automatic := by
  cases operation with
  | generate count additional =>
    have billed := healthy.fill_billed dependable counts within (Bytes.zeros count) fits
    rwa [Bytes.length_zeros] at billed
  | fill buffer additional => exact healthy.fill_billed dependable counts within buffer fits
  | reseed additional => cases request
  | word size =>
    have short : ([] : Bytes).length ≤ maxInputLength := Nat.zero_le _
    have billed := healthy.fill_billed dependable counts within (Bytes.zeros size) short
    rwa [Bytes.length_zeros] at billed
  | properties | describe => exact ⟨0, 0, .refl within⟩

/-- An operation leaves a healthy generator, and it is charged for. -/
theorem Healthy.apply_charges (healthy : Healthy live auxiliary kind g)
    (dependable : Dependable kind.securityStrength auxiliary live)
    (counts : kind.algorithm.CountsRequests) (within : g.counter ≤ kind.reseedInterval)
    (operation : Operation) :
    Healthy live auxiliary kind (g.apply operation).2.2 ∧
      Charges kind.reseedInterval (if auxiliary then blocksFor kind.securityStrength 8 else 0) g
        (g.apply operation).2.2 (g.apply operation).2.1 operation := by
  by_cases fits : operation.Fits (if auxiliary then blocksFor kind.securityStrength 8 else 0)
  · have still : Healthy live auxiliary kind (g.apply operation).2.2 := by
      obtain ⟨-, still⟩ | ⟨fault, -, stumbled⟩ := healthy.apply dependable fits
      · exact still
      · exact absurd stumbled (not_stumbled counts)
    refine ⟨still, ?_⟩
    cases reseeds : operation.isReseed with
    | false =>
      obtain ⟨fetched, automatic, bill⟩ :=
        healthy.apply_billed dependable counts within fits reseeds
      exact .billed fits reseeds bill
    | true =>
      cases operation with
      | reseed additional =>
        exact .reseeded fits reseeds (healthy.reseed_renews dependable fits)
      | generate _ _ | fill _ _ | word _ | properties | describe => cases reseeds
  · obtain ⟨still, bill⟩ := healthy.apply_unfit dependable within fits
    exact ⟨still, .refused fits bill⟩

/-- Without prediction resistance, a run fetches once per reseed on demand, and otherwise as the
chunks between them demand. Each of these fetches is reported. What was pending at first is counted
along. -/
theorem Healthy.run_direct (healthy : Healthy live auxiliary kind g)
    (dependable : Dependable kind.securityStrength auxiliary live)
    (counts : kind.algorithm.CountsRequests) (direct : g.predictionResistant = false)
    {pending automatic extra : ℕ}
    (extra_eq : extra = if auxiliary then blocksFor kind.securityStrength 8 else 0)
    (paced : Paced kind.reseedInterval pending automatic 0 g.counter) (operations : List Operation) :
    (run operations g).2.2.fetches + automatic =
        g.fetches + (Operation.accepted extra operations).countP Operation.isReseed +
          Operation.automaticFetches kind.reseedInterval pending
            (Operation.accepted extra operations) ∧
      (run operations g).2.1.count .intervalExhausted + automatic =
        Operation.automaticFetches kind.reseedInterval pending
          (Operation.accepted extra operations) := by
  have positive : 0 < kind.reseedInterval := by
    obtain rfl := healthy.kind
    exact healthy.positive
  induction operations generalizing g pending automatic with
  | nil =>
    have done := paced.automatic_eq positive
    exact ⟨congrArg (g.fetches + ·) done, (Nat.zero_add _).trans done⟩
  | cons operation rest ih =>
    obtain ⟨still, charged⟩ := healthy.apply_charges dependable counts paced.within operation
    rw [← extra_eq] at charged
    simp only [run_cons, List.count_append]
    cases charged with
    | refused unfit bill =>
      obtain ⟨-, none⟩ := bill.paced direct
      obtain ⟨fetched, later⟩ := ih still (bill.resistance.trans direct) (paced.trans none)
      have fetches := bill.fetches
      have reported := bill.reported
      rw [Operation.accepted_cons_of_unfit unfit]
      simp only [Nat.add_zero] at fetched later
      omega
    | reseeded fits reseeds renews =>
      have start : Paced kind.reseedInterval 0 0 0 (g.apply operation).2.2.counter := by
        rw [renews.counter]
        exact .refl (Nat.zero_le _)
      obtain ⟨fetched, later⟩ := ih still (renews.resistance.trans direct) start
      have done := paced.automatic_eq positive
      have fetches := renews.fetches
      have reported := renews.reported
      rw [Operation.accepted_cons_of_fits fits, List.countP_cons]
      simp only [Operation.automaticFetches, reseeds, if_true]
      omega
    | billed fits request bill =>
      obtain ⟨rfl, more⟩ := bill.paced direct
      obtain ⟨fetched, later⟩ := ih still (bill.resistance.trans direct) (paced.trans more)
      have fetches := bill.fetches
      have reported := bill.reported
      rw [Operation.accepted_cons_of_fits fits, List.countP_cons]
      simp only [Operation.automaticFetches, request, Bool.false_eq_true, if_false]
      omega

/-- With prediction resistance, a run fetches once per reseed on demand and once per chunk. None of
the fetches is due to the interval. -/
theorem Healthy.run_resistant (healthy : Healthy live auxiliary kind g)
    (dependable : Dependable kind.securityStrength auxiliary live)
    (counts : kind.algorithm.CountsRequests) (resistant : g.predictionResistant = true)
    (within : g.counter ≤ kind.reseedInterval) {extra : ℕ}
    (extra_eq : extra = if auxiliary then blocksFor kind.securityStrength 8 else 0)
    (operations : List Operation) :
    (run operations g).2.2.fetches =
        g.fetches + (Operation.accepted extra operations).countP Operation.isReseed +
          ((Operation.accepted extra operations).map Operation.chunks).sum ∧
      (run operations g).2.1.count .intervalExhausted = 0 := by
  induction operations generalizing g with
  | nil => exact ⟨rfl, rfl⟩
  | cons operation rest ih =>
    obtain ⟨still, charged⟩ := healthy.apply_charges dependable counts within operation
    rw [← extra_eq] at charged
    simp only [run_cons, List.count_append]
    cases charged with
    | refused unfit bill =>
      obtain ⟨fetched, later⟩ := ih still (bill.resistance.trans resistant) bill.due.within
      have fetches := bill.fetches
      have reported := bill.reported
      rw [Operation.accepted_cons_of_unfit unfit]
      omega
    | reseeded fits reseeds renews =>
      have restart : (g.apply operation).2.2.counter ≤ kind.reseedInterval :=
        renews.counter ▸ Nat.zero_le _
      obtain ⟨fetched, later⟩ := ih still (renews.resistance.trans resistant) restart
      have fetches := renews.fetches
      have reported := renews.reported
      rw [Operation.accepted_cons_of_fits fits, List.countP_cons, List.map_cons, List.sum_cons,
        Operation.chunks_of_isReseed reseeds, if_pos reseeds]
      omega
    | billed fits request bill =>
      obtain ⟨rfl, rfl⟩ := bill.renewed resistant
      obtain ⟨fetched, later⟩ := ih still (bill.resistance.trans resistant) bill.due.within
      have fetches := bill.fetches
      have reported := bill.reported
      rw [Operation.accepted_cons_of_fits fits, List.countP_cons, List.map_cons, List.sum_cons,
        if_neg (Bool.eq_false_iff.mp request)]
      omega

end Generator

theorem Algorithm.CountsRequests.maxReseedInterval {a : Algorithm} (counts : a.CountsRequests) :
    a.maxReseedInterval = maxRequestCount := by
  cases a with
  | dualEc _ _ => exact counts.elim
  | hash _ | hmac _ | ctr _ => rfl

/-- Sources that are dependable are dependable when they are tallied. -/
theorem Dependable.tallied {σ ω : Type} [SeedSource σ ω] [Randomness ω] {strength : ℕ}
    {auxiliary : Bool} {live : σ → ω → Prop} (dependable : Dependable strength auxiliary live) :
    Dependable strength auxiliary fun source (w : Tallied ω) => live source w.world where
  fetch {source w} alive := by
    obtain ⟨block, next, world, fetched, enough, still⟩ := dependable.fetch alive
    refine ⟨block, next, { w with world, fetches := w.fetches + 1 }, ?_, enough, still⟩
    simp only [SeedSource.fetch, fetched]
  draw drawn {source w} alive length := by
    obtain ⟨bytes, world, found, long, still⟩ := dependable.draw drawn alive length
    refine ⟨bytes, { w with world, draws := w.draws + 1 }, ?_, long, still⟩
    simp only [Randomness.draw, found]

namespace Builder

variable {b : Builder} {order : Order} {nonce : Bytes} {plan : Plan}

/-- A checked builder makes a healthy generator that has counted no request yet, with a single
fetch. -/
theorem build_tallied {σ ω : Type} [SeedProvider ω σ] [Randomness ω] {live : σ → ω → Prop}
    {source : σ} {w middle : ω} (checked : b.checkedPlan order nonce = .ok plan)
    (counts : order.CountsRequests)
    (dependable : Dependable b.config.securityStrength b.auxiliary live)
    (got : SeedProvider.get w b.config.entropyBits = (.ok source, middle))
    (alive : live source middle) (predictionResistant : Bool) :
    ∃ (m : Seeded σ) (events : List Event) (world : Tallied ω),
      b.build order nonce predictionResistant ({ world := w } : Tallied ω) =
          (.ok { mechanism := m, auxiliary := b.auxiliary, predictionResistant }, events, world) ∧
        world.fetches = 1 ∧ m.counter = 0 ∧
        m.properties.securityStrength = b.config.securityStrength ∧
        m.properties.reseedInterval = b.config.reseedInterval.getD maxRequestCount ∧
        m.properties.algorithm.CountsRequests ∧
        Generator.Healthy (fun source (w : Tallied ω) => live source w.world) b.auxiliary m.properties
          { mechanism := Within.mk m world, auxiliary := b.auxiliary, predictionResistant } := by
  have handed : SeedProvider.get ({ world := w } : Tallied ω) b.config.entropyBits =
      (.ok source, { world := middle, requested := [b.config.entropyBits] }) := by
    simp only [SeedProvider.get, got, List.nil_append]
  obtain ⟨m, events, entropy, rest, world, scheme, a, built, fetched, asked, chosen, fresh, healthy⟩ :=
    build_healthy checked dependable.tallied handed alive predictionResistant
  have counted : a.CountsRequests := counts.algorithm asked chosen
  have algorithm : m.properties.algorithm = a := fresh.algorithm
  have interval : m.properties.reseedInterval = b.config.reseedInterval.getD maxRequestCount := by
    rw [← counted.maxReseedInterval, Scheme.maxReseedInterval_of_algorithm chosen]
    exact fresh.interval
  exact ⟨m, events, world, built, Seeded.fetchSeed_tally fetched, fresh.counter, fresh.strength,
    interval, algorithm ▸ counted, healthy⟩

/-- The schedule of fetches, over sources that never fail, of a generator that counts requests. Let
the operations that are refused for their additional input be left out. There is one fetch for the
build and one for each reseed on demand. With prediction resistance there is one more for each chunk,
and the interval never takes effect. Without, a segment between two reseeds on demand takes one
automatic reseed less than its chunks begin intervals, and none if it has no chunks. -/
theorem entropy_scheduled {σ ω : Type} [SeedProvider ω σ] [Randomness ω] {live : σ → ω → Prop}
    {source : σ} {w middle : ω} (checked : b.checkedPlan order nonce = .ok plan)
    (counts : order.CountsRequests)
    (dependable : Dependable b.config.securityStrength b.auxiliary live)
    (got : SeedProvider.get w b.config.entropyBits = (.ok source, middle))
    (alive : live source middle) (predictionResistant : Bool) :
    ∃ g events world,
      b.build order nonce predictionResistant ({ world := w } : Tallied ω) =
          (.ok g, events, world) ∧ world.fetches = 1 ∧
        let interval := b.config.reseedInterval.getD maxRequestCount
        let accepted := Operation.accepted b.auxiliaryLength
        let last (operations : List Operation) :=
          (Generator.run operations (g.map (Within.mk · world))).2
        (predictionResistant = false →
          (∀ operations,
            let automatic := ((accepted operations).splitOnP Operation.isReseed).map fun segment =>
              blocksFor (segment.map Operation.chunks).sum interval - 1
            (last operations).2.fetches =
                1 + (accepted operations).countP Operation.isReseed + automatic.sum ∧
              (last operations).1.count .intervalExhausted = automatic.sum) ∧
          ∀ before segment, (accepted before).getLast?.all Operation.isReseed = true →
            (∀ operation ∈ accepted segment, operation.isReseed = false) →
              (last (before ++ segment)).2.fetches = (last before).2.fetches +
                (blocksFor ((accepted segment).map Operation.chunks).sum interval - 1)) ∧
        (predictionResistant = true → ∀ operations,
          (last operations).2.fetches = 1 + (accepted operations).countP Operation.isReseed +
              ((accepted operations).map Operation.chunks).sum ∧
            .intervalExhausted ∉ (last operations).1) := by
  obtain ⟨m, events, world, built, once, unused, strength, interval, counted, healthy⟩ :=
    build_tallied checked counts dependable got alive predictionResistant
  have extra : b.auxiliaryLength =
      if b.auxiliary then blocksFor m.properties.securityStrength 8 else 0 := by
    rw [strength, auxiliaryLength]
  rw [← strength] at dependable
  refine ⟨_, events, world, built, once, ?_⟩
  rw [← interval]
  intro interval accepted last
  have within : m.counter ≤ interval := unused.trans_le (Nat.zero_le _)
  refine ⟨?_, ?_⟩
  · rintro rfl
    have start : Paced interval 0 0 0 m.counter := by
      rw [unused] at within ⊢
      exact .refl within
    have ran (operations : List Operation) :
        (last operations).2.fetches = 1 + (accepted operations).countP Operation.isReseed +
            Operation.automaticFetches interval 0 (accepted operations) ∧
          (last operations).1.count .intervalExhausted =
            Operation.automaticFetches interval 0 (accepted operations) := by
      have ran := healthy.run_direct dependable.tallied counted rfl extra start operations
      exact ⟨once ▸ ran.1, ran.2⟩
    constructor
    · intro operations automatic
      rw [← Operation.automaticFetches_eq]
      exact ran operations
    · intro before segment fresh quiet
      have joined : accepted (before ++ segment) = accepted before ++ accepted segment :=
        List.filter_append ..
      rw [(ran before).1, (ran (before ++ segment)).1, joined, Nat.add_assoc,
        Operation.fetches_append _ _ fresh quiet]
      simp only [Nat.add_assoc]
  · rintro rfl operations
    obtain ⟨fetched, none⟩ :=
      healthy.run_resistant dependable.tallied counted rfl within extra operations
    exact ⟨once ▸ fetched, List.count_eq_zero.mp none⟩

/-- An interval of a single request, over a recording: three requests of four chunks take three
automatic reseeds, and none directly after the one on demand. -/
theorem entropy_scheduled_single_request :
    let b : Builder :=
      { config := { securityStrength := 128, reseedInterval := some 1 }, auxiliary := false }
    let p : Plan :=
      ⟨.hmac .sha256, { nonce := [7], securityStrength := 128, reseedInterval := some 1 }⟩
    let w : Tallied Playback := { world := { recording := .counting 16 } }
    let operations : List Operation :=
      [.fill [0, 0, 0] [1], .word 4, .generate 70000 [], .reseed [2], .fill [] [3], .word 8]
    b.checkedPlan (.hmac .sha256) [7] = .ok p ∧
      (∃ g events world, b.build (.hmac .sha256) [7] false w = (.ok g, events, world) ∧
        (Generator.run operations (g.map (Within.mk · world))).2.2.fetches = 1 + 1 + 3) ∧
      ∃ g events world, b.build (.hmac .sha256) [7] true w = (.ok g, events, world) ∧
        (Generator.run operations (g.map (Within.mk · world))).2.2.fetches = 1 + 1 + 5 := by
  intro b p w operations
  have checked : b.checkedPlan (.hmac .sha256) [7] = .ok p := rfl
  have counts : (Order.hmac .sha256).CountsRequests := trivial
  have enough : 128 ≤ 8 * 16 := by decide
  have dependable := Player.dependable enough
  refine ⟨checked, ?_, ?_⟩
  · obtain ⟨g, events, world, built, -, direct, -⟩ :=
      entropy_scheduled (w := w.world) checked counts dependable rfl ⟨rfl, rfl⟩ false
    exact ⟨g, events, world, built, ((direct rfl).1 operations).1.trans (by decide +kernel)⟩
  · obtain ⟨g, events, world, built, -, -, resistant⟩ :=
      entropy_scheduled (w := w.world) checked counts dependable rfl ⟨rfl, rfl⟩ true
    exact ⟨g, events, world, built, (resistant rfl operations).1.trans (by decide +kernel)⟩

end Builder

end RandomBits
