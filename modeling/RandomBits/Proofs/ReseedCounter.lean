import Mathlib
import RandomBits.Proofs.Seeding

/-! # The reseed counter over whole runs

The counter of a seeded core is compared with the history of the calls that were made to it: it is
the output since the last seed, whatever succeeded, failed or fell short in between. The invariant
`Seeded.Counted` ties both together and is kept by every call (`Seeded.Counted.serve`); what a call
does next then depends on the history alone (`Seeded.Counted.disciplined`).
-/

namespace RandomBits

inductive Call
  | generate (length : ℕ) (additional : Bytes) (predictionResistant : Bool)
  | reseed (additional : Bytes)

namespace Call

variable {μ : Type} [Mechanism μ]

def serve (m : μ) : Call → μ
  | generate length additional predictionResistant =>
    (Mechanism.generate m length additional predictionResistant).2
  | reseed additional => (Mechanism.reseed m additional).2

def exchange (m : μ) : Call → Exchange
  | generate length additional predictionResistant =>
    .generate length additional predictionResistant
      (Mechanism.generate m length additional predictionResistant).1.result
  | reseed additional => .reseed additional (Mechanism.reseed m additional).1

def serveAll (calls : List Call) (m : μ) : μ := calls.foldl serve m

/-- A log takes up every call. -/
theorem serve_logged (m : Logged μ) (call : Call) :
    call.serve m = ⟨call.serve m.mechanism, m.exchanges ++ [call.exchange m.mechanism]⟩ := by
  cases call <;> rfl

end Call

namespace Exchange

/-- Whether fresh entropy was mixed into the state. A successful reseed mixes it in, and so does a
request with prediction resistance that gets as far as the output, where only the core fails. -/
def seeds : Exchange → Bool
  | reseed _ (.ok _) => true
  | generate _ _ true (.ok _) => true
  | generate _ _ true (.error .reseedRequired) => true
  | generate _ _ true (.error (.failed (.faulted cause))) => cause ≠ .requestTooLong
  | _ => false

/-- What an exchange puts out: a successful request counts as one where requests are counted, and
as its number of blocks where blocks are. -/
def output (a : Algorithm) : Exchange → ℕ
  | generate length _ _ (.ok _) =>
    match a with
    | .dualEc _ c => blocksFor length c.outputLength
    | _ => 1
  | _ => 0

/-- The exchanges from the last one on that mixed in fresh entropy, or all if none did. -/
def sinceSeed (history : List Exchange) : List Exchange :=
  history.foldl (fun recent e => if e.seeds then [e] else recent ++ [e]) []

end Exchange

def Algorithm.outputSinceSeed (a : Algorithm) (history : List Exchange) : ℕ :=
  ((Exchange.sinceSeed history).map (Exchange.output a)).sum

theorem Algorithm.outputSinceSeed_append (a : Algorithm) (history : List Exchange) (e : Exchange) :
    a.outputSinceSeed (history ++ [e]) =
      (if e.seeds then 0 else a.outputSinceSeed history) + e.output a := by
  unfold outputSinceSeed Exchange.sinceSeed
  rw [List.foldl_append]
  cases seeded : e.seeds <;> simp [seeded]

/-- The output of a successful request is what the algorithm charges for it. -/
theorem Algorithm.output_served (a : Algorithm) (length : ℕ) (additional : Bytes)
    (predictionResistant : Bool) :
    (Exchange.generate length additional predictionResistant (.ok ())).output a =
      a.requestCost length := by
  cases a <;> rfl

/-- A core that is asked for output with a counter gives a reply and moves on. After a fault it
stays where it was. -/
def Core.Answers (c : Core) (length : ℕ) (additional : Bytes) (counter : ℕ) (reply : Reply)
    (next : Core) : Prop :=
  match c.generate length additional counter with
  | (written, .ok (), moved) => reply = { written, result := .ok () } ∧ next = moved
  | (written, .error fault, _) =>
    reply = { written, result := .error (.failed (.faulted fault)) } ∧ next = c

namespace Seeded

variable {σ ω : Type} [SeedSource σ ω]

/-- A call fetches a long enough block of entropy and mixes it in: a reseed, or a request with
prediction resistance, with arguments within their limits. -/
inductive Mixes (s : Within (Seeded σ) ω) (entropy : Bytes) : Call → Prop
  | reseed {additional : Bytes} {source : σ} {world : ω}
      (short : additional.length ≤ maxInputLength)
      (fetched : fetchSeed s.value.securityStrength s.value.source s.world =
        (.ok entropy, source, world)) :
      Mixes s entropy (.reseed additional)
  | generate {length : ℕ} {additional : Bytes} {source : σ} {world : ω}
      (fits : length ≤ s.value.maxRequest) (short : additional.length ≤ maxInputLength)
      (fetched : fetchSeed s.value.securityStrength s.value.source s.world =
        (.ok entropy, source, world)) :
      Mixes s entropy (.generate length additional true)

/-- How a logged mechanism relates its counter to its history. -/
structure CounterDiscipline (s : Logged (Within (Seeded σ) ω)) (a : Algorithm) (interval : ℕ) :
    Prop where
  sameAlgorithm : s.mechanism.value.core.algorithm = a
  sameInterval : s.mechanism.value.interval = interval
  /-- The counter stays within the interval, and the interval within its maximum. -/
  bounded : s.mechanism.value.counter ≤ interval ∧ interval ≤ a.maxReseedInterval
  /-- The counter is the output since the last seed. -/
  counted : s.mechanism.value.counter = a.outputSinceSeed s.exchanges
  /-- An exchange counts as a seed exactly if its call mixes in entropy. -/
  seeds_iff (call : Call) :
    (call.exchange s.mechanism).seeds = true ↔ ∃ entropy, Mixes s.mechanism entropy call
  /-- A reseed is required exactly if the request would lead beyond the interval. -/
  exhausted_iff (length : ℕ) (additional : Bytes) (fits : length ≤ s.mechanism.value.maxRequest)
    (short : additional.length ≤ maxInputLength) :
    (Mechanism.generate s.mechanism length additional false).1.result = .error .reseedRequired ↔
      interval < a.outputSinceSeed s.exchanges + a.requestCost length
  /-- The core is given the output since the last seed and one more, which is a number up to the
  interval where requests are counted. -/
  handed (length : ℕ) (additional : Bytes) (fits : length ≤ s.mechanism.value.maxRequest)
    (short : additional.length ≤ maxInputLength)
    (within : a.outputSinceSeed s.exchanges + a.requestCost length ≤ interval) :
    s.mechanism.value.core.Answers length additional (a.outputSinceSeed s.exchanges + 1)
      (Mechanism.generate s.mechanism length additional false).1
      (Mechanism.generate s.mechanism length additional false).2.value.core ∧
    ((∀ d c, a ≠ .dualEc d c) → a.outputSinceSeed s.exchanges + 1 ≤ interval)
  /-- With prediction resistance the core is seeded first, and then given a one. -/
  handed_renewed (length : ℕ) (additional entropy : Bytes)
    (mixes : Mixes s.mechanism entropy (.generate length additional true)) :
    (s.mechanism.value.core.reseed entropy additional).Answers length [] 1
      (Mechanism.generate s.mechanism length additional true).1
      (Mechanism.generate s.mechanism length additional true).2.value.core
  /-- A reseed puts the entropy and the additional input into the core. -/
  reseeded (additional entropy : Bytes) (mixes : Mixes s.mechanism entropy (.reseed additional)) :
    (Mechanism.reseed s.mechanism additional).2.value.core =
      s.mechanism.value.core.reseed entropy additional

/-- The invariant of runs: the counter is the output since the last seed and stays within a
positive interval. -/
structure Counted (s : Logged (Within (Seeded σ) ω)) (a : Algorithm) (interval : ℕ) : Prop where
  sameAlgorithm : s.mechanism.value.core.algorithm = a
  sameInterval : s.mechanism.value.interval = interval
  positive : 0 < interval
  capped : interval ≤ a.maxReseedInterval
  within : s.mechanism.value.counter ≤ interval
  counted : s.mechanism.value.counter = a.outputSinceSeed s.exchanges

section

variable {m next : Seeded σ} {s : Within (Seeded σ) ω} {last : Within (Seeded σ) ω} {length : ℕ}
  {additional : Bytes} {predictionResistant : Bool} {reply : Reply} {result : Except Failure Unit}

omit [SeedSource σ ω] in
/-- What is put out is added to the counter. -/
theorem Produces.counter (produced : Produces m length additional reply next) (input : Bytes)
    (predictionResistant : Bool) :
    next.counter = m.counter +
      (Exchange.generate length input predictionResistant reply.result).output m.core.algorithm := by
  cases produced with
  | exhausted _ | faulted _ _ => rfl
  | served _ _ => rw [Algorithm.output_served]

omit [SeedSource σ ω] in
theorem Produces.counter_le (produced : Produces m length additional reply next)
    (within : m.counter ≤ m.interval) : next.counter ≤ m.interval := by
  cases produced with
  | exhausted _ | faulted _ _ => exact within
  | served reaches _ => exact reaches

omit [SeedSource σ ω] in
/-- Behind a seed, a request only fails in the core. -/
theorem Produces.seeds (produced : Produces m length [] reply next) (input : Bytes) :
    (Exchange.generate length input true reply.result).seeds = true := by
  cases produced with
  | exhausted _ | served _ _ => rfl
  | faulted _ ran =>
    obtain rfl | rfl | rfl := (Core.raises_of_generate ran).kind <;> rfl

/-- A reseed that fails leaves the counter and seeds nothing. -/
theorem Reseeds.counter (reseeded : Reseeds s additional result last) :
    last.value.counter =
      if (Exchange.reseed additional result).seeds then 0 else s.value.counter := by
  cases reseeded <;> rfl

theorem Reseeds.not_seeds {cause : Failure} (reseeded : Reseeds s additional (.error cause) last)
    (length : ℕ) : (Exchange.generate length additional true (.error (.failed cause))).seeds = false := by
  cases reseeded <;> rfl

/-- How a request moves the counter. -/
theorem Serves.counter (served : Serves s length additional predictionResistant reply last) :
    last.value.counter =
      (if (Exchange.generate length additional predictionResistant reply.result).seeds then 0
        else s.value.counter) +
      (Exchange.generate length additional predictionResistant reply.result).output
        s.value.core.algorithm := by
  cases served with
  | tooLong _ _ => cases predictionResistant <;> rfl
  | refused _ _ => rfl
  | direct _ _ produced => exact produced.counter additional false
  | unseeded _ reseeded =>
    rw [reseeded.counter, Reply.refusal, reseeded.not_seeds]
    cases reseeded <;> rfl
  | renewed _ reseeded produced =>
    obtain ⟨algorithm, -, -⟩ := properties_eq_iff.mp reseeded.properties
    rw [produced.seeds, produced.counter additional true, reseeded.counter, algorithm]
    rfl

theorem Serves.counter_le (served : Serves s length additional predictionResistant reply last)
    (within : s.value.counter ≤ s.value.interval) : last.value.counter ≤ s.value.interval := by
  cases served with
  | tooLong _ _ | refused _ _ => exact within
  | direct _ _ produced => exact produced.counter_le within
  | unseeded _ reseeded =>
    rw [reseeded.counter]
    split
    · exact Nat.zero_le _
    · exact within
  | renewed _ reseeded produced =>
    obtain ⟨-, interval, -⟩ := properties_eq_iff.mp reseeded.properties
    refine (produced.counter_le ?_).trans_eq interval
    rw [reseeded.counter]
    exact Nat.zero_le _

theorem mixes_generate_iff {entropy : Bytes} :
    Mixes s entropy (.generate length additional predictionResistant) ↔
      predictionResistant = true ∧ length ≤ s.value.maxRequest ∧
        Mixes s entropy (.reseed additional) := by
  constructor
  · intro mixes
    cases mixes with
    | generate fits short fetched => exact ⟨rfl, fits, .reseed short fetched⟩
  · rintro ⟨rfl, fits, mixes⟩
    cases mixes with
    | reseed short fetched => exact .generate fits short fetched

/-- Entropy that a reseed can mix in is mixed in. -/
theorem Reseeds.of_mixes {entropy : Bytes} (reseeded : Reseeds s additional result last)
    (mixes : Mixes s entropy (.reseed additional)) :
    ∃ source world, result = .ok () ∧ last = ⟨s.value.renewed entropy additional source, world⟩ := by
  cases mixes with
  | reseed short fetched =>
    cases reseeded with
    | refused long => exact absurd short (not_le.mpr long)
    | unavailable _ failed => cases fetched.symm.trans failed
    | mixed _ again =>
      cases fetched.symm.trans again
      exact ⟨_, _, rfl, rfl⟩

theorem Reseeds.mixes_iff (reseeded : Reseeds s additional result last) :
    (∃ entropy, Mixes s entropy (.reseed additional)) ↔ result = .ok () := by
  constructor
  · rintro ⟨entropy, mixes⟩
    obtain ⟨_, _, success, _⟩ := reseeded.of_mixes mixes
    exact success
  · rintro rfl
    cases reseeded with
    | mixed short fetched => exact ⟨_, .reseed short fetched⟩

/-- A reseed counts as a seed exactly if it can mix in entropy. -/
theorem Reseeds.seeds_iff (reseeded : Reseeds s additional result last) :
    (Exchange.reseed additional result).seeds = true ↔
      ∃ entropy, Mixes s entropy (.reseed additional) := by
  rw [reseeded.mixes_iff]
  rcases result with cause | ⟨⟩ <;> simp [Exchange.seeds]

/-- A request counts as a seed exactly if it can mix in entropy. -/
theorem Serves.seeds_iff (served : Serves s length additional predictionResistant reply last) :
    (Exchange.generate length additional predictionResistant reply.result).seeds = true ↔
      ∃ entropy, Mixes s entropy (.generate length additional predictionResistant) := by
  simp only [mixes_generate_iff]
  cases served with
  | tooLong _ beyond =>
    cases predictionResistant <;> simp [not_le.mpr beyond, Exchange.seeds, Reply.refusal]
  | refused _ _ | direct _ _ _ => simp [Exchange.seeds]
  | unseeded fits reseeded =>
    have none := reseeded.mixes_iff
    simp only [reduceCtorEq, iff_false] at none
    simp [Reply.refusal, reseeded.not_seeds, none]
  | renewed fits reseeded produced =>
    have some := reseeded.mixes_iff.mpr rfl
    simp [produced.seeds, fits, some]

/-- A request within the limits and without prediction resistance comes down to output. -/
theorem Serves.produces (served : Serves s length additional false reply last)
    (fits : length ≤ s.value.maxRequest) (short : additional.length ≤ maxInputLength) :
    Produces s.value length additional reply last.value := by
  cases served with
  | tooLong _ beyond => exact absurd fits (not_le.mpr beyond)
  | refused _ long => exact absurd short (not_le.mpr long)
  | direct _ _ produced => exact produced

/-- A request that can mix in entropy comes down to output of the renewed core. -/
theorem Serves.produces_renewed {entropy : Bytes} (served : Serves s length additional true reply last)
    (mixes : Mixes s entropy (.generate length additional true)) :
    ∃ source, Produces (s.value.renewed entropy additional source) length [] reply last.value := by
  obtain ⟨-, fits, mixes⟩ := mixes_generate_iff.mp mixes
  cases served with
  | tooLong _ beyond => exact absurd fits (not_le.mpr beyond)
  | unseeded _ reseeded =>
    obtain ⟨_, _, success, _⟩ := reseeded.of_mixes mixes
    cases success
  | renewed _ reseeded produced =>
    obtain ⟨source, _, -, rfl⟩ := reseeded.of_mixes mixes
    exact ⟨source, produced⟩

theorem Produces.answers (produced : Produces m length additional reply next)
    (within : m.counter + m.core.algorithm.requestCost length ≤ m.interval) :
    m.core.Answers length additional (m.counter + 1) reply next.core := by
  cases produced with
  | exhausted beyond => exact absurd within (not_le.mpr beyond)
  | faulted _ ran | served _ ran =>
    rw [Core.Answers, ran]
    exact ⟨rfl, rfl⟩

end

variable {s : Logged (Within (Seeded σ) ω)} {a : Algorithm} {interval : ℕ}

/-- Every call keeps the counter and the history in step. -/
theorem Counted.serve (counted : Counted s a interval) (call : Call) :
    Counted (call.serve s) a interval := by
  rw [Call.serve_logged]
  have reach := counted.within.trans_eq counted.sameInterval.symm
  cases call with
  | generate length additional predictionResistant =>
    rcases ran : Mechanism.generate s.mechanism length additional predictionResistant with
      ⟨reply, last⟩
    have served := serves ran
    obtain ⟨algorithm, interval, -⟩ := properties_eq_iff.mp served.properties
    simp only [Call.serve, Call.exchange, ran]
    refine ⟨?_, ?_, counted.positive, counted.capped, ?_, ?_⟩
    · exact algorithm.trans counted.sameAlgorithm
    · exact interval.trans counted.sameInterval
    · exact (served.counter_le reach).trans_eq counted.sameInterval
    · rw [Algorithm.outputSinceSeed_append, ← counted.counted, ← counted.sameAlgorithm]
      exact served.counter
  | reseed additional =>
    rcases ran : Mechanism.reseed s.mechanism additional with ⟨result, last⟩
    have reseeded := reseeds ran
    obtain ⟨algorithm, interval, -⟩ := properties_eq_iff.mp reseeded.properties
    simp only [Call.serve, Call.exchange, ran]
    refine ⟨?_, ?_, counted.positive, counted.capped, ?_, ?_⟩
    · exact algorithm.trans counted.sameAlgorithm
    · exact interval.trans counted.sameInterval
    · rw [reseeded.counter]
      split
      · exact Nat.zero_le _
      · exact counted.within
    · rw [Algorithm.outputSinceSeed_append, ← counted.counted]
      exact reseeded.counter

/-- A run keeps the invariant, as each of its calls does. -/
theorem Counted.serveAll (counted : Counted s a interval) (calls : List Call) :
    Counted (Call.serveAll calls s) a interval := by
  induction calls generalizing s with
  | nil => exact counted
  | cons call rest ih => exact ih (counted.serve call)

/-- What the invariant says of the next call. -/
theorem Counted.disciplined (counted : Counted s a interval) : CounterDiscipline s a interval where
  sameAlgorithm := counted.sameAlgorithm
  sameInterval := counted.sameInterval
  bounded := ⟨counted.within, counted.capped⟩
  counted := counted.counted
  seeds_iff call := by
    cases call with
    | reseed additional =>
      rcases ran : Mechanism.reseed s.mechanism additional with ⟨result, last⟩
      rw [Call.exchange, ran]
      exact (reseeds ran).seeds_iff
    | generate length additional predictionResistant =>
      rcases ran : Mechanism.generate s.mechanism length additional predictionResistant with
        ⟨reply, last⟩
      rw [Call.exchange, ran]
      exact (serves ran).seeds_iff
  exhausted_iff length additional fits short := by
    rcases ran : Mechanism.generate s.mechanism length additional false with ⟨reply, value, world⟩
    rw [← counted.counted, ← counted.sameAlgorithm, ← counted.sameInterval]
    cases (serves ran).produces fits short with
    | exhausted beyond => exact iff_of_true rfl beyond
    | faulted within _ | served within _ => simp [not_lt.mpr within]
  handed length additional fits short within := by
    rcases ran : Mechanism.generate s.mechanism length additional false with ⟨reply, last⟩
    refine ⟨?_, fun countsRequests => ?_⟩
    · rw [← counted.counted, ← counted.sameAlgorithm, ← counted.sameInterval] at within
      rw [← counted.counted]
      exact ((serves ran).produces fits short).answers within
    · cases a with
      | dualEc d c => exact absurd rfl (countsRequests d c)
      | hash _ | hmac _ | ctr _ => exact within
  handed_renewed length additional entropy mixes := by
    rcases ran : Mechanism.generate s.mechanism length additional true with ⟨reply, last⟩
    obtain ⟨-, fits, -⟩ := mixes_generate_iff.mp mixes
    obtain ⟨source, produced⟩ := (serves ran).produces_renewed mixes
    refine produced.answers ?_
    have positive := counted.positive.trans_eq counted.sameInterval.symm
    simpa [renewed] using Algorithm.requestCost_le positive fits
  reseeded additional entropy mixes := by
    rcases ran : Mechanism.reseed s.mechanism additional with ⟨result, last⟩
    obtain ⟨_, _, -, rfl⟩ := (reseeds ran).of_mixes mixes
    rfl

/-- After every run of calls on a mechanism that was instantiated, the counter is the output since
the last seed, within the interval that was asked for, and the next call goes by it. -/
theorem reseed_counter_disciplined {p : Plan} {source : σ} {w world : ω} {m : Seeded σ}
    (made : p.instantiate source w = (.ok m, world)) (calls : List Call) :
    p.scheme.algorithm p.parameters.securityStrength = .ok m.core.algorithm ∧
      CounterDiscipline (Call.serveAll calls { mechanism := ⟨m, world⟩ }) m.core.algorithm
        (p.parameters.reseedInterval.getD p.scheme.maxReseedInterval) := by
  obtain ⟨a, chosen, fresh⟩ := instantiated made
  refine ⟨fresh.algorithm ▸ chosen, ?_⟩
  have counted : Counted { mechanism := Within.mk m world } m.core.algorithm
      (p.parameters.reseedInterval.getD p.scheme.maxReseedInterval) :=
    { sameAlgorithm := rfl
      sameInterval := fresh.interval
      positive := fresh.interval ▸ fresh.positive
      capped := fresh.interval ▸ fresh.algorithm ▸ fresh.capped
      within := fresh.counter ▸ Nat.zero_le _
      counted := fresh.counter }
  exact (counted.serveAll calls).disciplined

/-- Under an interval of two, three requests succeed, two fetches fail and two seed the core. -/
theorem reseed_counter_disciplined_interval_two :
    let p : Plan := ⟨.hash .sha256, { securityStrength := 256, reseedInterval := some 2 }⟩
    let later : List (Except EntropyFailure Bytes) :=
      [.error .exhausted, .ok [7], .ok (Bytes.zeros 32)]
    let m : Seeded (List (Except EntropyFailure Bytes)) :=
      { core := .instantiate (.hash .sha256) (Bytes.zeros 32) [] []
        source := later
        securityStrength := 256
        counter := 0
        interval := 2 }
    let calls : List Call :=
      [.generate 10 [1] false, .generate 65537 [] true, .generate 0 [] false, .generate 1 [] false,
        .reseed [], .generate 3 [] true, .generate 3 [2] true]
    let s := Call.serveAll calls (Logged.mk (Within.mk m ()) [])
    p.instantiate (.ok (Bytes.zeros 32) :: later) () = (.ok m, ()) ∧
      s.mechanism.value.counter = 1 ∧ CounterDiscipline s (.hash .sha256) 2 := by
  intro p later m calls s
  have made : p.instantiate (.ok (Bytes.zeros 32) :: later) () = (.ok m, ()) := rfl
  have counter : s.mechanism.value.counter = 1 := by decide +kernel
  exact ⟨made, counter, (reseed_counter_disciplined made calls).2⟩

end Seeded

end RandomBits
