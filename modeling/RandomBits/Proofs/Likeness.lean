import Mathlib
import RandomBits.Proofs.Attempts
import RandomBits.Proofs.Chunks

/-! # Two generators side by side

A `View` says which byte strings look alike: those of one length to somebody who must not see
secrets, and equal ones to somebody who sees everything. Two mechanisms are `Bisimilar` if calls
that look alike are answered alike. Generators over bisimilar mechanisms then stay alike, and every
operation on them has answers that look alike and the same events (`Generator.Alike.apply`).
-/

namespace RandomBits

/-- Two results agree if both succeed, with related values, or both fail for the same reason. -/
inductive Agree {ε α β : Type} (R : α → β → Prop) : Except ε α → Except ε β → Prop
  | ok {a : α} {b : β} (related : R a b) : Agree R (.ok a) (.ok b)
  | error (cause : ε) : Agree R (.error cause) (.error cause)

namespace Agree

variable {ε α β : Type} {R : α → β → Prop}

theorem eq {r s : Except ε α} (agree : Agree Eq r s) : r = s := by
  cases agree with
  | ok same => rw [same]
  | error cause => rfl

/-- Results that are the same up to their values agree on whatever is related. -/
private theorem of_map_eq {result : Except ε Unit} {a : α} {b : β} (related : R a b) :
    Agree R (result.map fun _ => a) (result.map fun _ => b) := by
  cases result with
  | ok u => exact .ok related
  | error cause => exact .error cause

end Agree

/-- What can be seen of byte strings: a relation between those that look alike. Their length can
always be seen, and parts and compositions of what looks alike look alike. -/
structure View where
  like : Bytes → Bytes → Prop
  length_eq {a b : Bytes} : like a b → a.length = b.length
  zeros (length : ℕ) : like (Bytes.zeros length) (Bytes.zeros length)
  append {a b c d : Bytes} : like a b → like c d → like (a ++ c) (b ++ d)
  take {a b : Bytes} (count : ℕ) : like a b → like (a.take count) (b.take count)
  drop {a b : Bytes} (count : ℕ) : like a b → like (a.drop count) (b.drop count)

namespace View

def full : View where
  like := Eq
  length_eq := congrArg List.length
  zeros _ := rfl
  append := congrArg₂ (· ++ ·)
  take count := congrArg (List.take count)
  drop count := congrArg (List.drop count)

/-- Nothing but lengths can be seen. -/
def lengths : View where
  like a b := a.length = b.length
  length_eq := id
  zeros _ := rfl
  append first second := by rw [List.length_append, List.length_append, first, second]
  take count same := by rw [List.length_take, List.length_take, same]
  drop count same := by rw [List.length_drop, List.length_drop, same]

variable (v : View) {a b c d : Bytes}

theorem nil : v.like [] [] := v.zeros 0

theorem overwrite (buffers : v.like a b) (writes : v.like c d) :
    v.like (a.overwrite c) (b.overwrite d) := by
  rw [Bytes.overwrite, Bytes.overwrite, v.length_eq buffers, v.length_eq writes]
  exact v.append (v.take _ writes) (v.drop _ buffers)

theorem pieces (size count : ℕ) (alike : v.like a b) :
    List.Forall₂ v.like (Bytes.pieces size count a) (Bytes.pieces size count b) := by
  induction count generalizing a b with
  | zero => exact .nil
  | succ count ih => exact .cons (v.take size alike) (ih (v.drop size alike))

/-- Byte strings that look alike are cut alike. -/
theorem chunks (size : ℕ) (alike : v.like a b) :
    List.Forall₂ v.like (a.chunks size) (b.chunks size) := by
  rw [Bytes.chunks, Bytes.chunks, v.length_eq alike]
  exact v.pieces size _ alike

theorem flatten {first second : List Bytes} (alike : List.Forall₂ v.like first second) :
    v.like first.flatten second.flatten := by
  induction alike with
  | nil => exact v.nil
  | cons head _ ih => exact v.append head ih

end View

/-- Calls that look alike, on related states, have replies that look alike and lead to related
states. Auxiliary randomness plays a part only where there is any. -/
structure Bisimilar {μ ν : Type} [Mechanism μ] [Mechanism ν] [Randomness μ] [Randomness ν]
    (v : View) (auxiliary : Bool) (R : μ → ν → Prop) : Prop where
  generate {m next : μ} {n : ν} {length : ℕ} {a b : Bytes} {predictionResistant : Bool}
    {reply : Reply} (related : R m n) (inputs : v.like a b)
    (asked : Mechanism.generate m length a predictionResistant = (reply, next)) :
    ∃ written last, Mechanism.generate n length b predictionResistant =
        (⟨written, reply.result⟩, last) ∧ v.like reply.written written ∧ R next last
  reseed {m next : μ} {n : ν} {a b : Bytes} {result : Except Failure Unit} (related : R m n)
    (inputs : v.like a b) (reseeded : Mechanism.reseed m a = (result, next)) :
    ∃ last, Mechanism.reseed n b = (result, last) ∧ R next last
  draw {m next : μ} {n : ν} {length : ℕ} {drawn : Except EntropyFailure Bytes}
    (available : auxiliary = true) (related : R m n)
    (found : Randomness.draw m length = (drawn, next)) :
    ∃ again last, Randomness.draw n length = (again, last) ∧ Agree v.like drawn again ∧ R next last
  blockBits {m : μ} {n : ν} (related : R m n) : Mechanism.blockBits n = Mechanism.blockBits m
  securityStrength {m : μ} {n : ν} (related : R m n) :
    Mechanism.securityStrength n = Mechanism.securityStrength m
  maxRequest {m : μ} {n : ν} (related : R m n) : Mechanism.maxRequest n = Mechanism.maxRequest m

/-- Operations of the same kind whose arguments look alike. -/
inductive Operation.Alike (v : View) : Operation → Operation → Prop
  | generate (count : ℕ) {a b : Bytes} (inputs : v.like a b) :
      Alike v (.generate count a) (.generate count b)
  | fill {a b buffer other : Bytes} (buffers : v.like buffer other) (inputs : v.like a b) :
      Alike v (.fill buffer a) (.fill other b)
  | reseed {a b : Bytes} (inputs : v.like a b) : Alike v (.reseed a) (.reseed b)
  | word (size : ℕ) : Alike v (.word size) (.word size)
  | properties : Alike v .properties .properties
  | describe : Alike v .describe .describe

theorem Operation.Alike.refl (operation : Operation) : operation.Alike View.full operation := by
  cases operation with
  | generate count _ => exact .generate count rfl
  | fill _ _ => exact .fill rfl rfl
  | reseed _ => exact .reseed rfl
  | word size => exact .word size
  | properties => exact .properties
  | describe => exact .describe

/-- Numbers that are read off byte strings that look alike. -/
def View.likeWords (v : View) (m n : ℕ) : Prop :=
  ∃ a b, v.like a b ∧ a.toNatLE = m ∧ b.toNatLE = n

/-- Answers that differ at most in output bytes that look alike. -/
inductive Answer.Alike (v : View) : Answer → Answer → Prop
  | bytes {r s : Except Failure Bytes} (agree : Agree v.like r s) : Alike v (.bytes r) (.bytes s)
  | buffer (result : Except Failure Unit) {after other : Bytes} (buffers : v.like after other) :
      Alike v (.buffer result after) (.buffer result other)
  | done (result : Except Failure Unit) : Alike v (.done result) (.done result)
  | word (size : ℕ) {r s : Except Failure ℕ} (agree : Agree v.likeWords r s) :
      Alike v (.word size r) (.word size s)
  | properties (value : Properties) : Alike v (.properties value) (.properties value)
  | text (value : String) : Alike v (.text value) (.text value)

/-- To somebody who sees everything, answers look alike only if they are the same. -/
theorem Answer.Alike.eq {first second : Answer} (alike : Alike View.full first second) :
    first = second := by
  cases alike with
  | bytes agree => exact congrArg Answer.bytes agree.eq
  | buffer result buffers => exact congrArg (Answer.buffer result) buffers
  | done result | properties value | text value => rfl
  | word size agree =>
    cases agree with
    | error cause => rfl
    | ok related =>
      obtain ⟨a, b, same, rfl, rfl⟩ := related
      obtain rfl : a = b := same
      rfl

namespace Generator

variable {μ ν : Type}

/-- Two generators that agree on all flags and are over related mechanisms. -/
structure Alike (auxiliary : Bool) (R : μ → ν → Prop) (g : Generator μ) (h : Generator ν) : Prop where
  mechanism : R g.mechanism h.mechanism
  auxiliary : g.auxiliary = auxiliary
  sameAuxiliary : h.auxiliary = g.auxiliary
  predictionResistant : h.predictionResistant = g.predictionResistant
  faulted : h.faulted = g.faulted

/-- Two calls that report the same, leave buffers that look alike and generators that are alike. -/
structure LikeOutcomes (v : View) (auxiliary : Bool) (R : μ → ν → Prop) (o : Outcome μ)
    (p : Outcome ν) : Prop where
  buffer : v.like o.buffer p.buffer
  result : p.result = o.result
  events : p.events = o.events
  generator : Alike auxiliary R o.generator p.generator

variable {v : View} {auxiliary : Bool} {R : μ → ν → Prop} {g : Generator μ} {h : Generator ν}
  {m : μ} {n : ν} {a b chunk piece : Bytes} {chunks pieces : List Bytes}

theorem Alike.moved (alike : Alike auxiliary R g h) (related : R m n) :
    Alike auxiliary R { g with mechanism := m } { h with mechanism := n } :=
  { alike with mechanism := related }

/-- What is done after the same events is done after the same events. -/
theorem LikeOutcomes.after {o : Outcome μ} {p : Outcome ν} (alike : LikeOutcomes v auxiliary R o p)
    (e : Event) :
    LikeOutcomes v auxiliary R { o with events := e :: o.events } { p with events := e :: p.events } :=
  { alike with events := congrArg (e :: ·) alike.events }

theorem Alike.fail (alike : Alike auxiliary R g h) (buffers : v.like a b) (cause : Failure) :
    LikeOutcomes v auxiliary R (g.fail a cause) (h.fail b cause) := by
  cases cause with
  | faulted reason => exact ⟨buffers, rfl, rfl, { alike with faulted := rfl }⟩
  | refused _ | entropyUnavailable _ => exact ⟨buffers, rfl, rfl, alike⟩

theorem Alike.refuse (alike : Alike auxiliary R g h) (buffers : v.like a b) :
    LikeOutcomes v auxiliary R (g.refuse a) (h.refuse b) :=
  ⟨buffers, rfl, rfl, alike⟩

theorem Alike.describe (alike : Alike auxiliary R g h) : h.describe = g.describe := by
  unfold Generator.describe
  rw [alike.sameAuxiliary, alike.predictionResistant, alike.faulted]

variable [Mechanism μ] [Mechanism ν] [Randomness μ] [Randomness ν]

theorem Alike.properties (alike : Alike auxiliary R g h) (bisimilar : Bisimilar v auxiliary R) :
    h.properties = g.properties := by
  simp only [Generator.properties, alike.predictionResistant, alike.faulted,
    bisimilar.securityStrength alike.mechanism, bisimilar.blockBits alike.mechanism,
    bisimilar.maxRequest alike.mechanism]

/-- A request for a chunk is answered alike. -/
theorem Alike.asked (alike : Alike auxiliary R g h) (bisimilar : Bisimilar v auxiliary R)
    (inputs : v.like a b) (buffers : v.like chunk piece) {reply : Reply}
    (asked : Mechanism.generate g.mechanism chunk.length a g.predictionResistant = (reply, m)) :
    ∃ written n, Mechanism.generate h.mechanism piece.length b h.predictionResistant =
        (⟨written, reply.result⟩, n) ∧
      v.like (chunk.overwrite reply.written) (piece.overwrite written) ∧ R m n := by
  obtain ⟨written, n, again, writes, related⟩ := bisimilar.generate alike.mechanism inputs asked
  rw [v.length_eq buffers, ← alike.predictionResistant] at again
  exact ⟨written, n, again, v.overwrite buffers writes, related⟩

/-- The second request for a chunk ends alike. -/
theorem Alike.retryChunk (alike : Alike auxiliary R g h) (bisimilar : Bisimilar v auxiliary R)
    (inputs : v.like a b) (buffers : v.like chunk piece) :
    LikeOutcomes v auxiliary R (g.retryChunk a chunk) (h.retryChunk b piece) := by
  rcases asked : Mechanism.generate g.mechanism chunk.length a g.predictionResistant with
    ⟨⟨written, result⟩, m⟩
  obtain ⟨other, n, again, filled, related⟩ := alike.asked bisimilar inputs buffers asked
  have moved := alike.moved related
  simp only [Generator.retryChunk, asked, again]
  rcases result with (_ | cause) | ⟨⟩
  · exact moved.fail filled _
  · exact moved.fail filled cause
  · exact ⟨filled, rfl, rfl, moved⟩

/-- A chunk ends alike, whether or not it takes a reseed. -/
theorem Alike.fillChunk (alike : Alike auxiliary R g h) (bisimilar : Bisimilar v auxiliary R)
    (inputs : v.like a b) (buffers : v.like chunk piece) :
    LikeOutcomes v auxiliary R (g.fillChunk a chunk) (h.fillChunk b piece) := by
  rcases asked : Mechanism.generate g.mechanism chunk.length a g.predictionResistant with
    ⟨⟨written, result⟩, m⟩
  obtain ⟨other, n, again, filled, related⟩ := alike.asked bisimilar inputs buffers asked
  have moved := alike.moved related
  simp only [Generator.fillChunk, asked, again]
  rcases result with (_ | cause) | ⟨⟩
  · rcases reseeded : Mechanism.reseed m [] with ⟨result, middle⟩
    obtain ⟨last, followed, still⟩ := bisimilar.reseed related v.nil reseeded
    simp only [followed]
    rcases result with cause | ⟨⟩
    · exact ((moved.moved still).fail filled cause).after _
    · exact ((moved.moved still).retryChunk bisimilar inputs filled).after _
  · exact moved.fail filled cause
  · exact ⟨filled, rfl, rfl, moved⟩

/-- Chunks in order end alike, and so does what a failure leaves of them. -/
theorem Alike.fillChunks (alike : Alike auxiliary R g h) (bisimilar : Bisimilar v auxiliary R)
    (inputs : v.like a b) (buffers : List.Forall₂ v.like chunks pieces) :
    LikeOutcomes v auxiliary R (Generator.fillChunks a chunks g) (Generator.fillChunks b pieces h) := by
  induction buffers generalizing g h with
  | nil => exact ⟨v.nil, rfl, rfl, alike⟩
  | cons head tail ih =>
    have first := alike.fillChunk bisimilar inputs head
    simp only [Generator.fillChunks, first.result]
    split
    next => exact ⟨v.append first.buffer (v.flatten tail), rfl, first.events, first.generator⟩
    next =>
      have rest := ih first.generator
      exact
        { rest with
          buffer := v.append first.buffer rest.buffer
          events := congrArg₂ (· ++ ·) first.events rest.events }

theorem Alike.fill (alike : Alike auxiliary R g h) (bisimilar : Bisimilar v auxiliary R)
    (inputs : v.like a b) {buffer other : Bytes} (buffers : v.like buffer other) :
    LikeOutcomes v auxiliary R (g.fill buffer a) (h.fill other b) := by
  have length : h.chunkLength = g.chunkLength := by
    rw [chunkLength, chunkLength, bisimilar.maxRequest alike.mechanism]
  rw [Generator.fill, Generator.fill, alike.faulted, length]
  split
  · exact alike.refuse buffers
  · exact alike.fillChunks bisimilar inputs (v.chunks _ buffers)

theorem Alike.reseedMechanism (alike : Alike auxiliary R g h) (bisimilar : Bisimilar v auxiliary R)
    (inputs : v.like a b) :
    LikeOutcomes v auxiliary R (g.reseedMechanism a) (h.reseedMechanism b) := by
  rcases reseeded : Mechanism.reseed g.mechanism a with ⟨result, m⟩
  obtain ⟨n, again, related⟩ := bisimilar.reseed alike.mechanism inputs reseeded
  simp only [Generator.reseedMechanism, reseeded, again]
  rcases result with cause | ⟨⟩
  · exact (alike.moved related).fail v.nil cause
  · rw [bisimilar.securityStrength related]
    exact ⟨v.nil, rfl, rfl, alike.moved related⟩

/-- A reseed on demand ends alike, with and without auxiliary randomness. -/
theorem Alike.reseed (alike : Alike auxiliary R g h) (bisimilar : Bisimilar v auxiliary R)
    (inputs : v.like a b) : LikeOutcomes v auxiliary R (g.reseed a) (h.reseed b) := by
  have length : h.auxiliaryLength = g.auxiliaryLength := by
    rw [auxiliaryLength, auxiliaryLength, bisimilar.securityStrength alike.mechanism]
  unfold Generator.reseed
  simp only [alike.faulted, alike.sameAuxiliary, length]
  split
  next => exact alike.refuse v.nil
  next usable =>
    split
    next drawn =>
      have available : auxiliary = true := alike.auxiliary.symm.trans drawn
      rcases found : Randomness.draw g.mechanism g.auxiliaryLength with ⟨drawn, m⟩
      obtain ⟨again, n, other, agree, related⟩ := bisimilar.draw available alike.mechanism found
      have moved := alike.moved related
      rw [alike.sameAuxiliary, alike.faulted] at moved
      simp only [other]
      cases agree with
      | ok bytes => exact moved.reseedMechanism bisimilar (v.append inputs bytes)
      | error cause => exact ⟨v.nil, rfl, rfl, moved⟩
    next => exact alike.reseedMechanism bisimilar inputs

/-- Operations that look alike, on generators that are alike, have answers that look alike, the same
events, and leave generators that are alike. -/
theorem Alike.apply (alike : Alike auxiliary R g h) (bisimilar : Bisimilar v auxiliary R)
    {operation other : Operation} (operations : operation.Alike v other) :
    (g.apply operation).1.Alike v (h.apply other).1 ∧
      (h.apply other).2.1 = (g.apply operation).2.1 ∧
      Alike auxiliary R (g.apply operation).2.2 (h.apply other).2.2 := by
  cases operations with
  | generate count inputs =>
    have filled := alike.fill bisimilar inputs (v.zeros count)
    simp only [Generator.apply, filled.result]
    exact ⟨.bytes (.of_map_eq filled.buffer), filled.events, filled.generator⟩
  | fill buffers inputs =>
    have filled := alike.fill bisimilar inputs buffers
    simp only [Generator.apply, filled.result]
    exact ⟨.buffer _ filled.buffer, filled.events, filled.generator⟩
  | reseed inputs =>
    have reseeded := alike.reseed bisimilar inputs
    simp only [Generator.apply, reseeded.result]
    exact ⟨.done _, reseeded.events, reseeded.generator⟩
  | word size =>
    have filled := alike.fill bisimilar v.nil (v.zeros size)
    simp only [Generator.apply, filled.result]
    have words : v.likeWords _ _ := ⟨_, _, filled.buffer, rfl, rfl⟩
    exact ⟨.word size (.of_map_eq words), filled.events, filled.generator⟩
  | properties =>
    simp only [Generator.apply, alike.properties bisimilar]
    exact ⟨.properties _, trivial, alike⟩
  | describe =>
    simp only [Generator.apply, alike.describe]
    exact ⟨.text _, trivial, alike⟩

end Generator

end RandomBits
