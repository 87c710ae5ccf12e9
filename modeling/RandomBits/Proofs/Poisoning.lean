import Mathlib
import RandomBits.Entropy.Pattern
import RandomBits.Mechanism.Scripted
import RandomBits.Proofs.Attempts

/-! # When a generator is disabled, for good

A generator over any mechanism is compared with the log of the calls that it has made: it is
disabled exactly if a call in it returned a fault, or if a chunk required a reseed directly after a
successful one (`Condemned`). Chunks, calls and runs each agree with their part of the log in the
sense of `Agrees`, from which the history of a whole run follows by induction.
-/

namespace RandomBits

def Exchange.faults : Exchange → Bool
  | .generate _ _ _ (.error (.failed (.faulted _))) => true
  | .reseed _ (.error (.faulted _)) => true
  | _ => false

/-- A log holds a fault, or a chunk that required a reseed again directly after a successful one. -/
def Condemned (log : List Exchange) : Prop :=
  (∃ e ∈ log, e.faults = true) ∨
    ∃ length additional predictionResistant,
      [.generate length additional predictionResistant (.error .reseedRequired),
        .reseed [] (.ok ()),
        .generate length additional predictionResistant (.error .reseedRequired)] <:+: log

/-- A log begins with a chunk that required a reseed again directly after a successful one. -/
def loops : List Exchange → Bool
  | .generate n a p (.error .reseedRequired) :: .reseed [] (.ok _) ::
      .generate n' a' p' (.error .reseedRequired) :: _ => n = n' && a = a' && p = p'
  | _ => false

def condemned : List Exchange → Bool
  | [] => false
  | e :: rest => e.faults || loops (e :: rest) || condemned rest

def Failure.isFault : Failure → Bool
  | .faulted _ => true
  | _ => false

namespace Exchange

variable (length : ℕ) (additional : Bytes) (predictionResistant : Bool) (cause : Failure) (u : Unit)

@[simp] theorem faults_generate_ok :
    (generate length additional predictionResistant (.ok u)).faults = false := rfl

@[simp] theorem faults_generate_required :
    (generate length additional predictionResistant (.error .reseedRequired)).faults = false := rfl

@[simp] theorem faults_generate_failed :
    (generate length additional predictionResistant (.error (.failed cause))).faults =
      cause.isFault := by
  cases cause <;> rfl

@[simp] theorem faults_reseed_ok : (reseed additional (.ok u)).faults = false := rfl

@[simp] theorem faults_reseed_failed :
    (reseed additional (.error cause)).faults = cause.isFault := by
  cases cause <;> rfl

end Exchange

private theorem loops_iff (log : List Exchange) :
    loops log = true ↔ ∃ length additional predictionResistant,
      [.generate length additional predictionResistant (.error .reseedRequired),
        .reseed [] (.ok ()),
        .generate length additional predictionResistant (.error .reseedRequired)] <+: log := by
  constructor
  · intro looping
    unfold loops at looping
    split at looping
    next n a p _ n' a' p' rest =>
      simp only [Bool.and_eq_true, decide_eq_true_eq] at looping
      obtain ⟨⟨rfl, rfl⟩, rfl⟩ := looping
      exact ⟨n, a, p, rest, rfl⟩
    next => cases looping
  · rintro ⟨n, a, p, rest, rfl⟩
    simp [loops]

theorem condemned_iff (log : List Exchange) : condemned log = true ↔ Condemned log := by
  induction log with
  | nil => simp [condemned, Condemned]
  | cons e rest ih =>
    simp only [condemned, Bool.or_eq_true, ih, Condemned, loops_iff, List.mem_cons,
      exists_eq_or_imp, List.infix_cons_iff, exists_or]
    exact or_or_or_comm

/-- Part of a run agrees with the calls that it made to the mechanism: it disables the generator,
reports a fault and warns, each exactly if the calls are condemned, and none of them leaves a retry
open to the calls behind them. -/
structure Agrees (calls : List Exchange) (faulted : Bool) (failure : Option Failure)
    (events : List Event) : Prop where
  disabled : faulted = condemned calls
  reported : (∃ fault, failure = some (.faulted fault)) ↔ condemned calls = true
  warned : (events.countP fun e => e.level = "WARN") = if condemned calls then 1 else 0
  closed (later : List Exchange) :
    condemned (calls ++ later) = (condemned calls || condemned later)

/-- Nothing agrees with no calls. -/
theorem Agrees.idle {failure : Option Failure} (benign : ∀ fault, failure ≠ some (.faulted fault)) :
    Agrees [] false failure [] where
  disabled := rfl
  reported := by simp [condemned, benign]
  warned := rfl
  closed _ := rfl

/-- The report of an exhausted interval is no warning. -/
theorem Agrees.intervalExhausted {calls : List Exchange} {faulted : Bool}
    {failure : Option Failure} {events : List Event} (agrees : Agrees calls faulted failure events) :
    Agrees calls faulted failure (.intervalExhausted :: events) :=
  { agrees with warned := agrees.warned }

/-- A part that reports no failure leaves the generator usable. -/
theorem Agrees.usable {calls : List Exchange} {faulted : Bool} {events : List Event}
    (agrees : Agrees calls faulted none events) : faulted = false := by
  rw [agrees.disabled, Bool.eq_false_iff, Ne, ← agrees.reported]
  rintro ⟨_, same⟩
  cases same

/-- Parts in a row agree if nothing in the first one disables the generator. -/
theorem Agrees.append {calls later : List Exchange} {faulted : Bool}
    {first second : Option Failure} {events rest : List Event}
    (agrees : Agrees calls false first events) (follows : Agrees later faulted second rest) :
    Agrees (calls ++ later) faulted second (events ++ rest) := by
  have benign := agrees.disabled.symm
  have same : condemned (calls ++ later) = condemned later := by
    rw [agrees.closed, benign, Bool.false_or]
  refine ⟨?_, ?_, ?_, fun behind => ?_⟩
  · rw [same, follows.disabled]
  · rw [same, follows.reported]
  · rw [List.countP_append, agrees.warned, benign, same, follows.warned]
    simp
  · rw [List.append_assoc, agrees.closed, benign, Bool.false_or, follows.closed, same]

namespace Generator

variable {μ : Type}

/-- The end of a call agrees with the calls that lead to its cause, if these condemn the log exactly
for a fault and begin no retry. -/
theorem fail_agrees {g : Generator μ} (usable : g.faulted = false) (buffer : Bytes) (cause : Failure)
    {calls : List Exchange}
    (condemns : ∀ later, condemned (calls ++ later) = (cause.isFault || condemned later)) :
    Agrees calls (g.fail buffer cause).generator.faulted (failure? (g.fail buffer cause).result)
      (g.fail buffer cause).events := by
  have alone : condemned calls = cause.isFault := by
    have done := condemns []
    rwa [List.append_nil, condemned, Bool.or_false] at done
  have closed (later : List Exchange) :
      condemned (calls ++ later) = (condemned calls || condemned later) := by
    rw [condemns, alone]
  refine ⟨?_, ?_, ?_, closed⟩
  · rw [alone]
    cases cause with
    | faulted _ => rfl
    | refused _ | entropyUnavailable _ => exact usable
  · rw [alone, result_fail]
    cases cause <;> simp [failure?, Failure.isFault]
  · rw [alone]
    cases cause <;> rfl

section

variable [Mechanism μ] {g : Generator μ} {additional chunk : Bytes} {chunks : List Bytes}
  {calls : List Exchange} {result : Except RequestError Unit} {o : Outcome μ}

/-- What a chunk does agrees with its calls. -/
theorem Attempts.agrees (usable : g.faulted = false)
    (attempted : Attempts g additional chunk calls o) :
    Agrees calls o.generator.faulted (failure? o.result) o.events := by
  cases attempted with
  | served asked =>
    refine ⟨usable, ?_, rfl, fun later => rfl⟩
    simp [failure?, condemned, loops]
  | failed asked =>
    apply fail_agrees
    · exact usable
    · intro later
      simp [condemned, loops]
  | unseeded asked reseeded ended =>
    subst ended
    apply Agrees.intervalExhausted
    apply fail_agrees
    · exact usable
    · intro later
      simp [condemned, loops]
  | retried asked reseeded retried =>
    apply Agrees.intervalExhausted
    cases retried with
    | served again =>
      refine ⟨usable, ?_, rfl, fun later => rfl⟩
      simp [failure?, condemned, loops]
    | failed again =>
      apply fail_agrees
      · exact usable
      · intro later
        simp [condemned, loops]
    | looped again =>
      apply fail_agrees
      · exact usable
      · intro later
        simp [condemned, loops, Failure.isFault]

/-- What the chunks of a request do agrees with their calls. -/
theorem Fills.agrees (filled : Fills additional g chunks calls o) (usable : g.faulted = false) :
    Agrees calls o.generator.faulted (failure? o.result) o.events := by
  induction filled with
  | nil g => exact usable ▸ Agrees.idle (by simp [failure?])
  | stopped attempted _ =>
    have agrees := attempted.agrees usable
    exact agrees
  | cons attempted success _ ih =>
    have agrees := attempted.agrees usable
    rw [success] at agrees
    have still := agrees.usable
    rw [still] at agrees
    exact agrees.append (ih still)

variable {log : μ → List Exchange}

/-- A reseed of the mechanism agrees with its one call. -/
theorem reseedMechanism_agrees (records : Records log) (usable : g.faulted = false)
    (additional : Bytes) :
    ∃ calls, log (g.reseedMechanism additional).generator.mechanism = log g.mechanism ++ calls ∧
      Agrees calls (g.reseedMechanism additional).generator.faulted
        (failure? (g.reseedMechanism additional).result) (g.reseedMechanism additional).events := by
  unfold reseedMechanism
  rcases reseeded : Mechanism.reseed g.mechanism additional with ⟨result, last⟩
  refine ⟨[.reseed additional result], ?_⟩
  rcases result with cause | ⟨⟩
  · refine ⟨?_, ?_⟩
    · dsimp only
      rw [mechanism_fail]
      exact records.of_reseed reseeded
    · apply fail_agrees
      · exact usable
      · intro later
        simp [condemned, loops]
  · refine ⟨records.of_reseed reseeded, usable, ?_, rfl, fun later => rfl⟩
    simp [failure?, condemned, loops]

variable [Randomness μ]

/-- A reseed on demand agrees with its calls, of which there are none without auxiliary bytes. -/
theorem reseed_agrees (records : Records log)
    (draws : ∀ m length, log (Randomness.draw m length).2 = log m) (usable : g.faulted = false)
    (additional : Bytes) :
    ∃ calls, log (g.reseed additional).generator.mechanism = log g.mechanism ++ calls ∧
      Agrees calls (g.reseed additional).generator.faulted
        (failure? (g.reseed additional).result) (g.reseed additional).events := by
  rw [reseed, if_neg (Bool.eq_false_iff.mp usable)]
  split
  · have unchanged := draws g.mechanism g.auxiliaryLength
    rcases drawn : Randomness.draw g.mechanism g.auxiliaryLength with ⟨result, middle⟩
    rw [drawn] at unchanged
    dsimp only at unchanged ⊢
    rcases result with cause | bytes
    · refine ⟨[], ?_, ?_⟩
      · rw [List.append_nil]
        exact unchanged
      · exact usable ▸ Agrees.idle (by simp [failure?])
    · rw [← unchanged]
      have usable : { g with mechanism := middle }.faulted = false := usable
      exact reseedMechanism_agrees records usable (additional ++ bytes)
  · exact reseedMechanism_agrees records usable additional

/-- What a call on a usable generator does agrees with what the log takes up. -/
theorem apply_agrees (records : Records log)
    (draws : ∀ m length, log (Randomness.draw m length).2 = log m) (usable : g.faulted = false)
    (operation : Operation) :
    ∃ calls, log (g.apply operation).2.2.mechanism = log g.mechanism ++ calls ∧
      Agrees calls (g.apply operation).2.2.faulted (g.apply operation).1.failure?
        (g.apply operation).2.1 := by
  have fill (buffer additional : Bytes) :
      ∃ calls, log (g.fill buffer additional).generator.mechanism = log g.mechanism ++ calls ∧
        Agrees calls (g.fill buffer additional).generator.faulted
          (failure? (g.fill buffer additional).result) (g.fill buffer additional).events := by
    rw [fill_of_usable usable]
    obtain ⟨calls, filled⟩ := fills additional (buffer.chunks g.chunkLength) g
    exact ⟨calls, filled.logged records, filled.agrees usable⟩
  cases operation with
  | generate count additional =>
    simp only [apply, Answer.failure?, failure?_map]
    exact fill _ additional
  | fill buffer additional => exact fill buffer additional
  | word size =>
    simp only [apply, Answer.failure?, failure?_map]
    exact fill _ []
  | reseed additional => exact reseed_agrees records draws usable additional
  | properties | describe =>
    refine ⟨[], (List.append_nil _).symm, ?_⟩
    simp only [apply, usable]
    exact Agrees.idle (by simp [Answer.failure?])

omit [Randomness μ] in
/-- The answer of a disabled generator. Its properties can still be asked for. -/
def disabledAnswer (g : Generator μ) : Operation → Answer
  | .generate _ _ => .bytes (.error (.faulted .poisoned))
  | .fill buffer _ => .buffer (.error (.faulted .poisoned)) buffer
  | .reseed _ => .done (.error (.faulted .poisoned))
  | .word size => .word size (.error (.faulted .poisoned))
  | .properties => .properties g.properties
  | .describe => .text g.describe

private theorem apply_of_faulted (faulted : g.faulted = true) (operation : Operation) :
    g.apply operation = (g.disabledAnswer operation, [], g) := by
  cases operation with
  | generate _ _ | fill _ _ | word _ =>
    simp only [apply, fill, faulted, ↓reduceIte]
    rfl
  | reseed _ =>
    simp only [apply, reseed, faulted, ↓reduceIte]
    rfl
  | properties | describe => rfl

/-- A disabled generator answers on and on, but makes no call and does not change. -/
private theorem run_of_faulted (faulted : g.faulted = true) (operations : List Operation) :
    run operations g = (operations.map g.disabledAnswer, [], g) := by
  induction operations with
  | nil => rfl
  | cons operation rest ih => simp only [run, apply_of_faulted faulted, ih, List.map_cons, List.nil_append]

/-- What a run on a usable generator does agrees with what the log takes up. -/
theorem run_agrees (records : Records log)
    (draws : ∀ m length, log (Randomness.draw m length).2 = log m) (operations : List Operation)
    (usable : g.faulted = false) :
    ∃ calls failure, log (run operations g).2.2.mechanism = log g.mechanism ++ calls ∧
      Agrees calls (run operations g).2.2.faulted failure (run operations g).2.1 := by
  induction operations generalizing g with
  | nil => exact ⟨[], none, (List.append_nil _).symm, usable ▸ Agrees.idle (by simp)⟩
  | cons operation rest ih =>
    obtain ⟨calls, logged, agrees⟩ := apply_agrees records draws usable operation
    simp only [run]
    cases after : (g.apply operation).2.2.faulted with
    | true =>
      rw [run_of_faulted after, List.append_nil]
      exact ⟨calls, _, logged, agrees⟩
    | false =>
      obtain ⟨later, failure, followed, follows⟩ := ih after
      rw [after] at agrees
      refine ⟨calls ++ later, failure, ?_, agrees.append follows⟩
      rw [followed, logged, List.append_assoc]

end

/-- A generator over any mechanism, beside any randomness, after any run: it is disabled exactly if
the calls that it has made are condemned, with one warning. From then on it answers every call with
the fault of a disabled generator, leaves its buffer, and touches neither the mechanism nor the
randomness. Until then a call disables it exactly if it reports a fault. -/
theorem disabled_iff_condemned {μ ρ : Type} [Mechanism μ] [Randomness ρ] (mechanism : μ)
    (randomness : ρ) (auxiliary predictionResistant : Bool) (operations : List Operation) :
    let start : Generator (Beside (Logged μ) ρ) :=
      { mechanism := { mechanism := { mechanism }, randomness }, auxiliary, predictionResistant }
    let events := (run operations start).2.1
    let g := (run operations start).2.2
    (g.faulted = true ↔ Condemned g.mechanism.mechanism.exchanges) ∧
      (events.countP fun e => e.level = "WARN") = (if g.faulted then 1 else 0) ∧
      (g.faulted = true →
        (∀ later, run later g = (later.map g.disabledAnswer, [], g)) ∧
          Fault.poisoned.message = "generator disabled after an earlier mechanism fault") ∧
      (g.faulted = false → ∀ operation, (g.apply operation).2.2.faulted = true ↔
        ∃ fault, (g.apply operation).1.failure? = some (.faulted fault)) := by
  intro start events g
  let log (m : Beside (Logged μ) ρ) : List Exchange := m.mechanism.exchanges
  have records : Records log := ⟨fun _ _ _ _ => rfl, fun _ _ => rfl⟩
  have draws (m : Beside (Logged μ) ρ) (length : ℕ) : log (Randomness.draw m length).2 = log m := rfl
  obtain ⟨calls, failure, logged, agrees⟩ := run_agrees records draws operations (g := start) rfl
  have history : g.mechanism.mechanism.exchanges = calls := logged
  refine ⟨?_, ?_, fun faulted => ⟨run_of_faulted faulted, rfl⟩, fun usable operation => ?_⟩
  · rw [history, ← condemned_iff, ← agrees.disabled]
  · rw [agrees.warned, ← agrees.disabled]
  · obtain ⟨_, _, next⟩ := apply_agrees records draws usable operation
    rw [next.reported, next.disabled]

/-- Auxiliary randomness fails first, which is harmless; then a chunk requires two reseeds. -/
theorem disabled_iff_condemned_reseed_loop :
    let script : Scripted :=
      { requests := [.ok (), .error .reseedRequired, .error .reseedRequired], maxRequest := 2 }
    let start : Generator (Beside (Logged Scripted) Pattern) :=
      { mechanism := { mechanism := { mechanism := script }, randomness := { failOn := some 1 } }
        auxiliary := true
        predictionResistant := false }
    let operations : List Operation := [.reseed [], .fill [0, 0, 0] [5], .reseed [], .fill [] []]
    let events := (run operations start).2.1
    let g := (run operations start).2.2
    g.faulted = true ∧ Condemned g.mechanism.mechanism.exchanges ∧
      (events.countP fun e => e.level = "WARN") = 1 ∧
      run [.fill [] [], .word 4] g = ([.buffer (.error (.faulted .poisoned)) [],
        .word 4 (.error (.faulted .poisoned))], [], g) := by
  intro script start operations events g
  obtain ⟨disabled, warned, after, _⟩ :=
    disabled_iff_condemned script { failOn := some 1 : Pattern } true false operations
  have faulted : g.faulted = true := by decide +kernel
  refine ⟨faulted, disabled.mp faulted, ?_, (after faulted).1 _⟩
  exact warned.trans (if_pos faulted)

end Generator

end RandomBits
