import Mathlib
import RandomBits.Generator.Operation

/-! # The calls that a generator makes for a chunk

`Generator.Attempts` lists everything that one chunk can lead to, with the calls that are made to
the mechanism for it: a request, and after a required reseed a second one. `Generator.Fills` puts
the chunks of a request together, up to the first that fails. Nothing is assumed of the mechanism.
-/

namespace RandomBits

def failure? {α : Type} : Except Failure α → Option Failure
  | .error cause => some cause
  | .ok _ => none

def Answer.failure? : Answer → Option Failure
  | bytes result => RandomBits.failure? result
  | buffer result _ | done result => RandomBits.failure? result
  | word _ result => RandomBits.failure? result
  | properties _ | text _ => none

theorem failure?_map {α β : Type} (f : α → β) (result : Except Failure α) :
    failure? (result.map f) = failure? result := by
  cases result <;> rfl

namespace Generator

variable {μ : Type}

@[simp] theorem buffer_fail (g : Generator μ) (buffer : Bytes) (cause : Failure) :
    (g.fail buffer cause).buffer = buffer := by
  cases cause <;> rfl

@[simp] theorem result_fail (g : Generator μ) (buffer : Bytes) (cause : Failure) :
    (g.fail buffer cause).result = .error cause := by
  cases cause <;> rfl

@[simp] theorem mechanism_fail (g : Generator μ) (buffer : Bytes) (cause : Failure) :
    (g.fail buffer cause).generator.mechanism = g.mechanism := by
  cases cause <;> rfl

variable [Mechanism μ]

/-- Everything that the second request for a chunk can lead to, with the result that the mechanism
gives. -/
inductive Retries (g : Generator μ) (additional chunk : Bytes) :
    Except RequestError Unit → Outcome μ → Prop
  | served {written : Bytes} {m : μ}
      (asked : Mechanism.generate g.mechanism chunk.length additional g.predictionResistant =
        (⟨written, .ok ()⟩, m)) :
      Retries g additional chunk (.ok ())
        ⟨chunk.overwrite written, .ok (), [], { g with mechanism := m }⟩
  | failed {written : Bytes} {cause : Failure} {m : μ}
      (asked : Mechanism.generate g.mechanism chunk.length additional g.predictionResistant =
        (⟨written, .error (.failed cause)⟩, m)) :
      Retries g additional chunk (.error (.failed cause))
        ({ g with mechanism := m }.fail (chunk.overwrite written) cause)
  | looped {written : Bytes} {m : μ}
      (asked : Mechanism.generate g.mechanism chunk.length additional g.predictionResistant =
        (⟨written, .error .reseedRequired⟩, m)) :
      Retries g additional chunk (.error .reseedRequired)
        ({ g with mechanism := m }.fail (chunk.overwrite written) (.faulted .reseedLoop))

theorem retries (g : Generator μ) (additional chunk : Bytes) :
    ∃ result, Retries g additional chunk result (g.retryChunk additional chunk) := by
  unfold retryChunk
  rcases asked : Mechanism.generate g.mechanism chunk.length additional g.predictionResistant with
    ⟨⟨written, result⟩, m⟩
  refine ⟨result, ?_⟩
  rcases result with (_ | cause) | ⟨⟩
  · exact .looped asked
  · exact .failed asked
  · exact .served asked

/-- Everything that a chunk can lead to, with the calls that are made for it in order. -/
inductive Attempts (g : Generator μ) (additional chunk : Bytes) :
    List Exchange → Outcome μ → Prop
  | served {written : Bytes} {m : μ}
      (asked : Mechanism.generate g.mechanism chunk.length additional g.predictionResistant =
        (⟨written, .ok ()⟩, m)) :
      Attempts g additional chunk
        [.generate chunk.length additional g.predictionResistant (.ok ())]
        ⟨chunk.overwrite written, .ok (), [], { g with mechanism := m }⟩
  | failed {written : Bytes} {cause : Failure} {m : μ}
      (asked : Mechanism.generate g.mechanism chunk.length additional g.predictionResistant =
        (⟨written, .error (.failed cause)⟩, m)) :
      Attempts g additional chunk
        [.generate chunk.length additional g.predictionResistant (.error (.failed cause))]
        ({ g with mechanism := m }.fail (chunk.overwrite written) cause)
  | unseeded {written : Bytes} {m last : μ} {cause : Failure} {o : Outcome μ}
      (asked : Mechanism.generate g.mechanism chunk.length additional g.predictionResistant =
        (⟨written, .error .reseedRequired⟩, m))
      (reseeded : Mechanism.reseed m [] = (.error cause, last))
      (ended : o = { g with mechanism := last }.fail (chunk.overwrite written) cause) :
      Attempts g additional chunk
        [.generate chunk.length additional g.predictionResistant (.error .reseedRequired),
          .reseed [] (.error cause)]
        { o with events := .intervalExhausted :: o.events }
  | retried {written : Bytes} {m middle : μ} {result : Except RequestError Unit} {o : Outcome μ}
      (asked : Mechanism.generate g.mechanism chunk.length additional g.predictionResistant =
        (⟨written, .error .reseedRequired⟩, m))
      (reseeded : Mechanism.reseed m [] = (.ok (), middle))
      (retried : Retries { g with mechanism := middle } additional (chunk.overwrite written)
        result o) :
      Attempts g additional chunk
        [.generate chunk.length additional g.predictionResistant (.error .reseedRequired),
          .reseed [] (.ok ()), .generate chunk.length additional g.predictionResistant result]
        { o with events := .intervalExhausted :: o.events }

theorem attempts (g : Generator μ) (additional chunk : Bytes) :
    ∃ calls, Attempts g additional chunk calls (g.fillChunk additional chunk) := by
  unfold fillChunk
  rcases asked : Mechanism.generate g.mechanism chunk.length additional g.predictionResistant with
    ⟨⟨written, result⟩, m⟩
  rcases result with (_ | cause) | ⟨⟩
  · rcases reseeded : Mechanism.reseed m [] with ⟨result, middle⟩
    dsimp only
    rw [reseeded]
    rcases result with cause | ⟨⟩
    · exact ⟨_, .unseeded asked reseeded rfl⟩
    · obtain ⟨result, retried⟩ :=
        retries { g with mechanism := middle } additional (chunk.overwrite written)
      exact ⟨_, .retried asked reseeded retried⟩
  · exact ⟨_, .failed asked⟩
  · exact ⟨_, .served asked⟩

theorem fillChunk_of_served {g : Generator μ} {additional chunk written : Bytes} {m : μ}
    (asked : Mechanism.generate g.mechanism chunk.length additional g.predictionResistant =
      (⟨written, .ok ()⟩, m)) :
    g.fillChunk additional chunk =
      ⟨chunk.overwrite written, .ok (), [], { g with mechanism := m }⟩ := by
  simp only [fillChunk, asked]

theorem fillChunk_of_failed {g : Generator μ} {additional chunk written : Bytes} {cause : Failure}
    {m : μ} (asked : Mechanism.generate g.mechanism chunk.length additional g.predictionResistant =
      (⟨written, .error (.failed cause)⟩, m)) :
    g.fillChunk additional chunk =
      { g with mechanism := m }.fail (chunk.overwrite written) cause := by
  simp only [fillChunk, asked]

theorem fillChunk_of_retried {g : Generator μ} {additional chunk written : Bytes} {m middle : μ}
    (asked : Mechanism.generate g.mechanism chunk.length additional g.predictionResistant =
      (⟨written, .error .reseedRequired⟩, m))
    (reseeded : Mechanism.reseed m [] = (.ok (), middle)) :
    g.fillChunk additional chunk =
      { { g with mechanism := middle }.retryChunk additional (chunk.overwrite written) with
        events := .intervalExhausted ::
          ({ g with mechanism := middle }.retryChunk additional (chunk.overwrite written)).events } := by
  simp only [fillChunk, asked, reseeded]

theorem retryChunk_of_served {g : Generator μ} {additional chunk written : Bytes} {m : μ}
    (asked : Mechanism.generate g.mechanism chunk.length additional g.predictionResistant =
      (⟨written, .ok ()⟩, m)) :
    g.retryChunk additional chunk =
      ⟨chunk.overwrite written, .ok (), [], { g with mechanism := m }⟩ := by
  simp only [retryChunk, asked]

/-- What is left in a chunk has its length. -/
theorem Attempts.length_buffer {g : Generator μ} {additional chunk : Bytes} {calls : List Exchange}
    {o : Outcome μ} (attempted : Attempts g additional chunk calls o) :
    o.buffer.length = chunk.length := by
  cases attempted with
  | served _ => exact Bytes.length_overwrite ..
  | failed _ => simp
  | unseeded _ _ ended => simp [ended]
  | retried _ _ retried => cases retried <;> simp

/-- A chunk that is served leaves the generator as usable as it was. -/
theorem Attempts.faulted_of_ok {g : Generator μ} {additional chunk : Bytes} {calls : List Exchange}
    {o : Outcome μ} (attempted : Attempts g additional chunk calls o)
    (success : o.result = .ok ()) : o.generator.faulted = g.faulted := by
  cases attempted with
  | served _ => rfl
  | failed _ => simp at success
  | unseeded _ _ ended => simp [ended] at success
  | retried _ _ retried =>
    cases retried with
    | served _ => rfl
    | failed _ | looped _ => simp at success

/-- Everything that chunks in order can lead to, with the calls that are made for them. -/
inductive Fills (additional : Bytes) : Generator μ → List Bytes → List Exchange → Outcome μ → Prop
  | nil (g : Generator μ) : Fills additional g [] [] ⟨[], .ok (), [], g⟩
  | stopped {g : Generator μ} {chunk : Bytes} {rest : List Bytes} {calls : List Exchange}
      {o : Outcome μ} {cause : Failure} (attempted : Attempts g additional chunk calls o)
      (failure : o.result = .error cause) :
      Fills additional g (chunk :: rest) calls { o with buffer := o.buffer ++ rest.flatten }
  | cons {g : Generator μ} {chunk : Bytes} {rest : List Bytes} {calls later : List Exchange}
      {o last : Outcome μ} (attempted : Attempts g additional chunk calls o)
      (success : o.result = .ok ()) (filled : Fills additional o.generator rest later last) :
      Fills additional g (chunk :: rest) (calls ++ later)
        { last with buffer := o.buffer ++ last.buffer, events := o.events ++ last.events }

theorem fills (additional : Bytes) (chunks : List Bytes) (g : Generator μ) :
    ∃ calls, Fills additional g chunks calls (fillChunks additional chunks g) := by
  induction chunks generalizing g with
  | nil => exact ⟨[], .nil g⟩
  | cons chunk rest ih =>
    obtain ⟨calls, attempted⟩ := g.attempts additional chunk
    simp only [fillChunks]
    split
    next cause failure => exact ⟨calls, .stopped attempted failure⟩
    next success =>
      obtain ⟨later, filled⟩ := ih (g.fillChunk additional chunk).generator
      exact ⟨calls ++ later, .cons attempted success filled⟩

section

variable {g : Generator μ} {additional chunk : Bytes} {rest : List Bytes}

theorem fillChunks_cons_of_ok (success : (g.fillChunk additional chunk).result = .ok ()) :
    fillChunks additional (chunk :: rest) g =
      { fillChunks additional rest (g.fillChunk additional chunk).generator with
        buffer := (g.fillChunk additional chunk).buffer ++
          (fillChunks additional rest (g.fillChunk additional chunk).generator).buffer
        events := (g.fillChunk additional chunk).events ++
          (fillChunks additional rest (g.fillChunk additional chunk).generator).events } := by
  simp only [fillChunks, success]

theorem fillChunks_cons_of_error {cause : Failure}
    (failure : (g.fillChunk additional chunk).result = .error cause) :
    fillChunks additional (chunk :: rest) g =
      { g.fillChunk additional chunk with
        buffer := (g.fillChunk additional chunk).buffer ++ rest.flatten } := by
  simp only [fillChunks, failure]

/-- A request is served from its first chunk on. -/
theorem fillChunk_ok_of_fillChunks (success : (fillChunks additional (chunk :: rest) g).result = .ok ()) :
    (g.fillChunk additional chunk).result = .ok () := by
  cases first : (g.fillChunk additional chunk).result with
  | ok u => rfl
  | error cause =>
    rw [fillChunks_cons_of_error first] at success
    exact first.symm.trans success

end

/-- A relation between states of a mechanism that every call establishes, and that calls in a row
establish together. -/
structure Accrues (R : μ → μ → Prop) : Prop where
  generate (m : μ) (length : ℕ) (additional : Bytes) (predictionResistant : Bool) :
    R m (Mechanism.generate m length additional predictionResistant).2
  reseed (m : μ) (additional : Bytes) : R m (Mechanism.reseed m additional).2
  trans {first middle last : μ} : R first middle → R middle last → R first last

section

variable {R : μ → μ → Prop} {g : Generator μ} {additional chunk : Bytes} {chunks : List Bytes}
  {calls : List Exchange} {result : Except RequestError Unit} {o : Outcome μ}

theorem Accrues.of_generate (accrues : Accrues R) {m last : μ} {length : ℕ}
    {predictionResistant : Bool} {reply : Reply}
    (asked : Mechanism.generate m length additional predictionResistant = (reply, last)) :
    R m last := by
  have done := accrues.generate m length additional predictionResistant
  rwa [asked] at done

theorem Accrues.of_reseed (accrues : Accrues R) {m last : μ} {result : Except Failure Unit}
    (reseeded : Mechanism.reseed m additional = (result, last)) : R m last := by
  have done := accrues.reseed m additional
  rwa [reseeded] at done

theorem Retries.accrues (accrues : Accrues R) (retried : Retries g additional chunk result o) :
    R g.mechanism o.generator.mechanism := by
  cases retried with
  | served asked => exact accrues.of_generate asked
  | failed asked | looped asked =>
    rw [mechanism_fail]
    exact accrues.of_generate asked

/-- What every call establishes, a chunk does. -/
theorem Attempts.accrues (accrues : Accrues R) (attempted : Attempts g additional chunk calls o) :
    R g.mechanism o.generator.mechanism := by
  cases attempted with
  | served asked => exact accrues.of_generate asked
  | failed asked =>
    rw [mechanism_fail]
    exact accrues.of_generate asked
  | unseeded asked reseeded ended =>
    subst ended
    rw [mechanism_fail]
    exact accrues.trans (accrues.of_generate asked) (accrues.of_reseed reseeded)
  | retried asked reseeded retried =>
    have before := accrues.trans (accrues.of_generate asked) (accrues.of_reseed reseeded)
    exact accrues.trans before (retried.accrues accrues)

end

/-- A usable generator fills a buffer chunk by chunk. -/
theorem fill_of_usable {g : Generator μ} (usable : g.faulted = false) (buffer additional : Bytes) :
    g.fill buffer additional = fillChunks additional (buffer.chunks g.chunkLength) g := by
  rw [fill, if_neg (Bool.eq_false_iff.mp usable)]

theorem usable_of_fill {g : Generator μ} {buffer additional : Bytes}
    (success : (g.fill buffer additional).result = .ok ()) : g.faulted = false := by
  refine Bool.eq_false_iff.mpr fun faulted => ?_
  rw [fill, if_pos faulted] at success
  cases success

/-- A function that reads off a mechanism which calls were made to it. -/
structure Records (log : μ → List Exchange) : Prop where
  generate (m : μ) (length : ℕ) (additional : Bytes) (predictionResistant : Bool) :
    log (Mechanism.generate m length additional predictionResistant).2 =
      log m ++ [.generate length additional predictionResistant
        (Mechanism.generate m length additional predictionResistant).1.result]
  reseed (m : μ) (additional : Bytes) :
    log (Mechanism.reseed m additional).2 =
      log m ++ [.reseed additional (Mechanism.reseed m additional).1]

section

variable {log : μ → List Exchange} {g : Generator μ} {additional chunk : Bytes}
  {chunks : List Bytes} {calls : List Exchange} {result : Except RequestError Unit} {o : Outcome μ}

theorem Records.of_generate (records : Records log) {m last : μ} {length : ℕ}
    {predictionResistant : Bool} {reply : Reply}
    (asked : Mechanism.generate m length additional predictionResistant = (reply, last)) :
    log last = log m ++ [.generate length additional predictionResistant reply.result] := by
  have recorded := records.generate m length additional predictionResistant
  rwa [asked] at recorded

theorem Records.of_reseed (records : Records log) {m last : μ} {result : Except Failure Unit}
    (reseeded : Mechanism.reseed m additional = (result, last)) :
    log last = log m ++ [.reseed additional result] := by
  have recorded := records.reseed m additional
  rwa [reseeded] at recorded

theorem Retries.logged (records : Records log) (retried : Retries g additional chunk result o) :
    log o.generator.mechanism =
      log g.mechanism ++ [.generate chunk.length additional g.predictionResistant result] := by
  cases retried with
  | served asked => exact records.of_generate asked
  | failed asked | looped asked =>
    rw [mechanism_fail]
    exact records.of_generate asked

/-- The calls of a chunk are what the log takes up. -/
theorem Attempts.logged (records : Records log) (attempted : Attempts g additional chunk calls o) :
    log o.generator.mechanism = log g.mechanism ++ calls := by
  cases attempted with
  | served asked => exact records.of_generate asked
  | failed asked =>
    rw [mechanism_fail]
    exact records.of_generate asked
  | unseeded asked reseeded ended =>
    subst ended
    rw [mechanism_fail, records.of_reseed reseeded, records.of_generate asked, List.append_assoc]
    rfl
  | retried asked reseeded retried =>
    rw [retried.logged records, records.of_reseed reseeded, records.of_generate asked]
    simp [Bytes.length_overwrite]

/-- The calls of all chunks are what the log takes up. -/
theorem Fills.logged (records : Records log) (filled : Fills additional g chunks calls o) :
    log o.generator.mechanism = log g.mechanism ++ calls := by
  induction filled with
  | nil g => exact (List.append_nil _).symm
  | stopped attempted _ =>
    have logged := attempted.logged records
    exact logged
  | cons attempted _ _ ih => rw [ih, attempted.logged records, List.append_assoc]

end

end Generator

end RandomBits
