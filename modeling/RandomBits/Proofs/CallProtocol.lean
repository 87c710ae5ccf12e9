import Mathlib
import RandomBits.Mechanism.Scripted
import RandomBits.Proofs.Attempts
import RandomBits.Proofs.Chunks

/-! # The protocol between a generator and its mechanism

A generator takes one turn per chunk. A turn is a request for the chunk, and after a required reseed
that reseed and at most one more request for the same chunk (`Turn.Proper`). Turns follow one
another up to the first that fails (`Conversation`), whatever the mechanism replies. The transcript
of a whole request is such a conversation, and the chunks that it does not reach stay as they are
(`Generator.fill_conducted`).
-/

namespace RandomBits

/-- A call to a mechanism, how it ended, and what it wrote at the front of its chunk. -/
structure Entry where
  exchange : Exchange
  written : Bytes := []

def Entry.request (length : ℕ) (additional : Bytes) (predictionResistant : Bool)
    (result : Except RequestError Unit) (written : Bytes) : Entry where
  exchange := .generate length additional predictionResistant result
  written := written

/-- A mechanism with everything that passed between it and its user, in order. -/
structure Transcribed (μ : Type) where
  mechanism : μ
  transcript : List Entry := []

instance {μ : Type} [Mechanism μ] : Mechanism (Transcribed μ) where
  generate m length additional predictionResistant :=
    let (reply, mechanism) :=
      Mechanism.generate m.mechanism length additional predictionResistant
    let exchange := Exchange.generate length additional predictionResistant reply.result
    let transcript := m.transcript ++ [{ exchange, written := reply.written }]
    (reply, { mechanism, transcript })
  reseed m additional :=
    let (result, mechanism) := Mechanism.reseed m.mechanism additional
    let transcript := m.transcript ++ [{ exchange := .reseed additional result }]
    (result, { mechanism, transcript })
  blockBits m := Mechanism.blockBits m.mechanism
  securityStrength m := Mechanism.securityStrength m.mechanism
  maxRequest m := Mechanism.maxRequest m.mechanism

namespace Exchange

def isReseed : Exchange → Bool
  | reseed _ _ => true
  | generate _ _ _ _ => false

/-- Whether a call is a request that succeeded. -/
def grants : Exchange → Bool
  | generate _ _ _ (.ok _) => true
  | _ => false

/-- How a call ends the turn that it is the last of. -/
def ending : Exchange → Except Failure Unit
  | generate _ _ _ (.ok _) => .ok ()
  | generate _ _ _ (.error (.failed cause)) => .error cause
  | generate _ _ _ (.error .reseedRequired) => .error (.faulted .reseedLoop)
  | reseed _ result => result

end Exchange

/-- A chunk and the calls that are made for it. -/
structure Turn where
  chunk : Bytes
  entries : List Entry

namespace Turn

def after (t : Turn) : Bytes := t.entries.foldl (fun chunk e => chunk.overwrite e.written) t.chunk

/-- How the last call of a turn ends it. -/
def ending (t : Turn) : Option (Except Failure Unit) :=
  t.entries.getLast?.map fun e => e.exchange.ending

/-- Whether the last call of a turn is a request that succeeded. -/
def granted (t : Turn) : Bool := t.entries.getLast?.any fun e => e.exchange.grants

/-- The calls that a turn may consist of. All its requests are for the whole chunk, with the same
additional input, and its reseed takes none. -/
inductive Proper (additional : Bytes) (predictionResistant : Bool) : Turn → Prop
  /-- The mechanism requires no reseed. -/
  | once {chunk written : Bytes} {result : Except RequestError Unit}
      (settled : result ≠ .error .reseedRequired) :
      Proper additional predictionResistant
        ⟨chunk, [.request chunk.length additional predictionResistant result written]⟩
  /-- The mechanism requires a reseed, which fails. -/
  | unseeded {chunk written : Bytes} {cause : Failure} :
      Proper additional predictionResistant
        ⟨chunk,
          [.request chunk.length additional predictionResistant (.error .reseedRequired) written,
            ⟨.reseed [] (.error cause), []⟩]⟩
  /-- The mechanism requires a reseed, and is asked for the chunk again directly after it. -/
  | twice {chunk written again : Bytes} {result : Except RequestError Unit} :
      Proper additional predictionResistant
        ⟨chunk,
          [.request chunk.length additional predictionResistant (.error .reseedRequired) written,
            ⟨.reseed [] (.ok ()), []⟩,
            .request chunk.length additional predictionResistant result again]⟩

variable {additional : Bytes} {predictionResistant : Bool} {t : Turn}

/-- A proper turn makes at most two requests and at most one reseed. -/
private theorem Proper.count_le (proper : t.Proper additional predictionResistant) :
    (t.entries.countP fun e => e.exchange.isReseed) ≤ 1 ∧
      (t.entries.countP fun e => !e.exchange.isReseed) ≤ 2 := by
  cases proper <;> simp [Entry.request, Exchange.isReseed]

/-- A proper turn ends well exactly if its chunk was granted. -/
theorem Proper.granted_iff (proper : t.Proper additional predictionResistant) :
    t.granted = true ↔ t.ending = some (.ok ()) := by
  cases proper with
  | @once _ _ result _ | @twice _ _ _ result =>
    rcases result with (_ | _) | ⟨⟩ <;>
      simp [granted, ending, Entry.request, Exchange.grants, Exchange.ending]
  | unseeded => simp [granted, ending, Entry.request, Exchange.grants, Exchange.ending]

/-- A chunk is granted by one call. -/
theorem Proper.count_grants (proper : t.Proper additional predictionResistant)
    (success : t.granted = true) : (t.entries.countP fun e => e.exchange.grants) = 1 := by
  cases proper with
  | @once _ _ result _ | @twice _ _ _ result =>
    rcases result with cause | ⟨⟩
    · cases success
    · rfl
  | unseeded => cases success

end Turn

/-- Proper turns for chunks in order, and how the last of them ends. There is none after a turn that
fails. -/
inductive Conversation (additional : Bytes) (predictionResistant : Bool) :
    List Bytes → List Turn → Except Failure Unit → Prop
  | done : Conversation additional predictionResistant [] [] (.ok ())
  | stopped {t : Turn} {rest : List Bytes} {cause : Failure}
      (proper : t.Proper additional predictionResistant)
      (failed : t.ending = some (.error cause)) :
      Conversation additional predictionResistant (t.chunk :: rest) [t] (.error cause)
  | next {t : Turn} {rest : List Bytes} {later : List Turn} {result : Except Failure Unit}
      (proper : t.Proper additional predictionResistant) (success : t.ending = some (.ok ()))
      (follows : Conversation additional predictionResistant rest later result) :
      Conversation additional predictionResistant (t.chunk :: rest) (t :: later) result

namespace Conversation

variable {additional : Bytes} {predictionResistant : Bool} {chunks : List Bytes} {turns : List Turn}
  {result : Except Failure Unit}

private theorem isPrefix (conversation : Conversation additional predictionResistant chunks turns result) :
    turns.map Turn.chunk <+: chunks := by
  induction conversation with
  | done => exact List.nil_prefix
  | stopped _ _ => exact (List.prefix_cons_inj _).mpr List.nil_prefix
  | next _ _ _ ih => exact (List.prefix_cons_inj _).mpr ih

theorem proper (conversation : Conversation additional predictionResistant chunks turns result) :
    ∀ t ∈ turns, t.Proper additional predictionResistant := by
  induction conversation with
  | done => exact fun _ none => absurd none List.not_mem_nil
  | stopped proper _ => exact List.forall_mem_singleton.mpr proper
  | next proper _ _ ih => exact List.forall_mem_cons.mpr ⟨proper, ih⟩

/-- A conversation ends well exactly if all chunks had their turn and were granted. -/
theorem ok_iff (conversation : Conversation additional predictionResistant chunks turns result) :
    result = .ok () ↔ turns.length = chunks.length ∧ ∀ t ∈ turns, t.granted = true := by
  induction conversation with
  | done => simp
  | stopped proper failed => simp [proper.granted_iff, failed]
  | next proper success _ ih => simp [ih, proper.granted_iff.mpr success]

/-- A conversation that fails does so in its last turn, up to which all chunks were granted. -/
private theorem eq_append_of_error {cause : Failure}
    (conversation : Conversation additional predictionResistant chunks turns (.error cause)) :
    ∃ earlier t, turns = earlier ++ [t] ∧ (∀ t ∈ earlier, t.granted = true) ∧
      t.ending = some (.error cause) := by
  -- The rest of a conversation ends as the whole does, so the cause has to stay fixed.
  generalize same : Except.error cause = result at conversation
  induction conversation with
  | done => cases same
  | @stopped t rest cause proper failed =>
    cases same
    exact ⟨[], t, rfl, fun _ none => absurd none List.not_mem_nil, failed⟩
  | @next t rest later result proper success follows ih =>
    obtain ⟨earlier, last, rfl, granted, failed⟩ := ih same
    have first := proper.granted_iff.mpr success
    exact ⟨t :: earlier, last, rfl, List.forall_mem_cons.mpr ⟨first, granted⟩, failed⟩

/-- Every chunk that is granted is granted by one call. -/
theorem count_grants
    (conversation : Conversation additional predictionResistant chunks turns result)
    (success : result = .ok ()) :
    ((turns.flatMap Turn.entries).countP fun e => e.exchange.grants) = chunks.length := by
  induction conversation with
  | done => rfl
  | stopped _ _ => cases success
  | next proper went _ ih =>
    rw [List.flatMap_cons, List.countP_append, ih success,
      proper.count_grants (proper.granted_iff.mpr went), List.length_cons, Nat.add_comm]

end Conversation

section

variable {μ : Type} [Mechanism μ] {m next : Transcribed μ}

theorem Transcribed.of_generate {length : ℕ} {additional : Bytes} {predictionResistant : Bool}
    {reply : Reply}
    (asked : Mechanism.generate m length additional predictionResistant = (reply, next)) :
    next.transcript = m.transcript ++
      [.request length additional predictionResistant reply.result reply.written] := by
  cases asked
  rfl

theorem Transcribed.of_reseed {additional : Bytes} {result : Except Failure Unit}
    (reseeded : Mechanism.reseed m additional = (result, next)) :
    next.transcript = m.transcript ++ [⟨.reseed additional result, []⟩] := by
  cases reseeded
  rfl

end

namespace Generator

@[simp] private theorem predictionResistant_fail {μ : Type} (g : Generator μ) (buffer : Bytes)
    (cause : Failure) :
    (g.fail buffer cause).generator.predictionResistant = g.predictionResistant := by
  cases cause <;> rfl

theorem Attempts.predictionResistant {μ : Type} [Mechanism μ] {g : Generator μ}
    {additional chunk : Bytes} {calls : List Exchange} {o : Outcome μ}
    (attempted : Attempts g additional chunk calls o) :
    o.generator.predictionResistant = g.predictionResistant := by
  cases attempted with
  | served _ => rfl
  | failed _ => exact predictionResistant_fail ..
  | unseeded _ _ ended => exact ended ▸ predictionResistant_fail ..
  | retried _ _ retried =>
    cases retried with
    | served _ => rfl
    | failed _ | looped _ => exact predictionResistant_fail ..

variable {μ : Type} [Mechanism μ] {g : Generator (Transcribed μ)} {additional chunk : Bytes}
  {chunks : List Bytes} {calls : List Exchange} {result : Except RequestError Unit}
  {o : Outcome (Transcribed μ)}

/-- How the second request for a chunk ends a turn. -/
theorem Retries.entry (retried : Retries g additional chunk result o) :
    ∃ again, o.buffer = chunk.overwrite again ∧
      o.result =
        (Entry.request chunk.length additional g.predictionResistant result again).exchange.ending ∧
      o.generator.mechanism.transcript = g.mechanism.transcript ++
        [.request chunk.length additional g.predictionResistant result again] := by
  cases retried with
  | @served again _ asked => exact ⟨again, rfl, rfl, Transcribed.of_generate asked⟩
  | @failed again _ _ asked | @looped again _ asked =>
    refine ⟨again, buffer_fail .., result_fail .., ?_⟩
    rw [mechanism_fail]
    exact Transcribed.of_generate asked

/-- What a chunk leads to is a proper turn. -/
theorem Attempts.turn (attempted : Attempts g additional chunk calls o) :
    ∃ t : Turn, t.chunk = chunk ∧ t.Proper additional g.predictionResistant ∧
      o.generator.mechanism.transcript = g.mechanism.transcript ++ t.entries ∧
      o.buffer = t.after ∧ t.ending = some o.result := by
  cases attempted with
  | @served written _ asked =>
    let e := Entry.request chunk.length additional g.predictionResistant (.ok ()) written
    exact ⟨⟨chunk, [e]⟩, rfl, .once nofun, Transcribed.of_generate asked, rfl, rfl⟩
  | @failed written cause _ asked =>
    let e :=
      Entry.request chunk.length additional g.predictionResistant (.error (.failed cause)) written
    refine ⟨⟨chunk, [e]⟩, rfl, .once nofun, ?_, buffer_fail .., congrArg some (result_fail ..).symm⟩
    rw [mechanism_fail]
    exact Transcribed.of_generate asked
  | @unseeded written _ _ cause _ asked reseeded ended =>
    subst ended
    let required :=
      Entry.request chunk.length additional g.predictionResistant (.error .reseedRequired) written
    refine ⟨⟨chunk, [required, _]⟩, rfl, .unseeded, ?_, ?_, congrArg some (result_fail ..).symm⟩
    · rw [mechanism_fail, Transcribed.of_reseed reseeded, Transcribed.of_generate asked,
        List.append_assoc]
      rfl
    · rw [buffer_fail]
      exact (Bytes.overwrite_nil _).symm
  | @retried written _ _ result _ asked reseeded retried =>
    obtain ⟨again, buffer, ended, transcript⟩ := retried.entry
    rw [Bytes.length_overwrite] at ended transcript
    let required :=
      Entry.request chunk.length additional g.predictionResistant (.error .reseedRequired) written
    refine ⟨⟨chunk, [required, _, _]⟩, rfl, .twice, ?_, ?_, congrArg some ended.symm⟩
    · rw [transcript, Transcribed.of_reseed reseeded, Transcribed.of_generate asked,
        List.append_assoc, List.append_assoc]
      rfl
    · exact buffer.trans (congrArg (·.overwrite again) (Bytes.overwrite_nil _).symm)

/-- What the chunks of a request lead to is a conversation. It leaves the chunks that it does not
reach as they are. -/
theorem Fills.conversation (filled : Fills additional g chunks calls o) :
    ∃ turns, Conversation additional g.predictionResistant chunks turns o.result ∧
      o.generator.mechanism.transcript =
        g.mechanism.transcript ++ turns.flatMap Turn.entries ∧
      o.buffer = turns.flatMap Turn.after ++ (chunks.drop turns.length).flatten := by
  induction filled with
  | nil g => exact ⟨[], .done, (List.append_nil _).symm, rfl⟩
  | @stopped g chunk rest calls o cause attempted failure =>
    obtain ⟨t, rfl, proper, transcript, buffer, ended⟩ := attempted.turn
    refine ⟨[t], ?_, ?_, ?_⟩
    · dsimp only
      rw [failure] at ended ⊢
      exact .stopped proper ended
    · rw [List.flatMap_singleton]
      exact transcript
    · rw [List.flatMap_singleton]
      exact congrArg (· ++ rest.flatten) buffer
  | @cons g chunk rest calls later o last attempted success filled ih =>
    obtain ⟨t, rfl, proper, transcript, buffer, ended⟩ := attempted.turn
    obtain ⟨turns, follows, added, rest⟩ := ih
    rw [attempted.predictionResistant] at follows
    rw [success] at ended
    refine ⟨t :: turns, .next proper ended follows, ?_, ?_⟩
    · rw [List.flatMap_cons, added, transcript, List.append_assoc]
    · rw [List.flatMap_cons, List.append_assoc, ← buffer]
      exact congrArg (o.buffer ++ ·) rest

/-- A request does not change the length of its buffer. -/
theorem Fills.length_buffer (filled : Fills additional g chunks calls o) :
    o.buffer.length = chunks.flatten.length := by
  induction filled with
  | nil g => rfl
  | stopped attempted _ =>
    rw [List.flatten_cons, List.length_append, List.length_append, attempted.length_buffer]
  | cons attempted _ _ ih =>
    rw [List.flatten_cons, List.length_append, List.length_append, attempted.length_buffer, ih]

/-- A request is carried out in turns, one per chunk of the buffer in order. -/
structure Conducted (g : Generator (Transcribed μ)) (buffer additional : Bytes) (turns : List Turn)
    (o : Outcome (Transcribed μ)) : Prop where
  /-- The mechanism receives the calls of the turns and no others. -/
  calls : o.generator.mechanism.transcript = g.mechanism.transcript ++ turns.flatMap Turn.entries
  /-- Each turn is for the chunk that stands at its place in the buffer. -/
  inOrder (i : ℕ) (t : Turn) (found : turns[i]? = some t) :
    t.chunk = (buffer.drop (i * g.chunkLength)).take g.chunkLength
  proper (t : Turn) (member : t ∈ turns) : t.Proper additional g.predictionResistant
  /-- No turn makes more than one reseed and two requests. -/
  sparing (t : Turn) (member : t ∈ turns) :
    (t.entries.countP fun e => e.exchange.isReseed) ≤ 1 ∧
      (t.entries.countP fun e => !e.exchange.isReseed) ≤ 2
  /-- The request succeeds exactly if all chunks had their turn and were granted. -/
  ok_iff : o.result = .ok () ↔
    turns.length = blocksFor buffer.length g.chunkLength ∧ ∀ t ∈ turns, t.granted = true
  /-- A request that succeeds takes as many granted calls as there are chunks. -/
  grants (success : o.result = .ok ()) :
    ((turns.flatMap Turn.entries).countP fun e => e.exchange.grants) =
      blocksFor buffer.length g.chunkLength
  /-- A request that fails does so with the last call, up to which all chunks were granted. -/
  failed (cause : Failure) (failure : o.result = .error cause) :
    ∃ earlier t, turns = earlier ++ [t] ∧ (∀ t ∈ earlier, t.granted = true) ∧
      t.ending = some (.error cause)
  /-- The chunks hold what their calls wrote, and nothing is written behind the last of them. -/
  filled : o.buffer = turns.flatMap Turn.after ++ buffer.drop (turns.length * g.chunkLength)
  untouched :
    o.buffer.drop (turns.length * g.chunkLength) = buffer.drop (turns.length * g.chunkLength)

/-- Whatever the mechanism replies, a usable generator carries a request out in turns. -/
theorem fill_conducted (usable : g.faulted = false) (buffer additional : Bytes) :
    ∃ turns, Conducted g buffer additional turns (g.fill buffer additional) := by
  have positive : 0 < g.chunkLength := lt_max_of_lt_right one_pos
  obtain ⟨calls, filled⟩ := fills additional (buffer.chunks g.chunkLength) g
  rw [← fill_of_usable usable] at filled
  have length := filled.length_buffer
  obtain ⟨turns, conversation, transcript, written⟩ := filled.conversation
  rw [Bytes.drop_chunks positive, Bytes.flatten_chunks positive] at written
  rw [Bytes.flatten_chunks positive] at length
  have count := Bytes.length_chunks g.chunkLength buffer
  refine ⟨turns, transcript, ?_, conversation.proper, ?_, ?_, ?_, ?_, written, ?_⟩
  · intro i t found
    obtain ⟨reached, -⟩ := List.getElem?_eq_some_iff.mp found
    obtain ⟨rest, same⟩ := conversation.isPrefix
    apply Bytes.eq_take_drop_of_getElem?_chunks positive
    rw [← same, List.getElem?_append_left (by simpa using reached), List.getElem?_map, found,
      Option.map_some]
  · exact fun t member => (conversation.proper t member).count_le
  · rw [conversation.ok_iff, count]
  · intro success
    rw [conversation.count_grants success, count]
  · intro cause failure
    rw [failure] at conversation
    exact conversation.eq_append_of_error
  · exact Bytes.drop_eq_of_eq_append written length

/-- A mechanism that requires a second reseed for the third of four chunks. -/
theorem fill_conducted_second_requirement :
    let script : Scripted :=
      { maxRequest := 2
        requests := [.ok (), .error .reseedRequired, .ok (), .error .reseedRequired,
          .error .reseedRequired] }
    let g : Generator (Transcribed Scripted) :=
      { mechanism := { mechanism := script }, auxiliary := false, predictionResistant := true }
    let o := g.fill [9, 9, 9, 9, 9, 9, 9] [5]
    g.faulted = false ∧ o.result = .error (.faulted .reseedLoop) ∧
      o.buffer = [1, 1, 2, 2, 9, 9, 9] ∧ o.generator.mechanism.transcript.length = 7 ∧
      ∃ turns, Conducted g [9, 9, 9, 9, 9, 9, 9] [5] turns o := by
  intro script g o
  have usable : g.faulted = false := rfl
  refine ⟨usable, ?_, ?_, ?_, fill_conducted usable _ _⟩ <;> decide +kernel

end Generator

end RandomBits
