import Mathlib
import RandomBits.Proofs.BlockPermutation
import RandomBits.Proofs.Inquiry
import RandomBits.Proofs.KeyedCounter

/-! # Requests do not repeat themselves

A request to CTR_DRBG counts on in its closing update where output has ended, so nothing that is put
out is key stream behind the next state; and what Hash_DRBG hashes for output is never what it hashes
to move on. Both requests are written as inquiries of their primitive, which say what it is used for.
Main statement: in any state that can be reached, a request within the limit uses its primitive on
distinct inputs (`Core.inputs_distinct`).
-/

namespace RandomBits

open Inquiry

/-- No request within the limit has more blocks than bytes. -/
private theorem blocksFor_le_maxRequestBytes {size length : ℕ} (positive : 0 < size)
    (within : length ≤ maxRequestBytes) : blocksFor length size ≤ maxRequestBytes :=
  (blocksFor_le_iff positive).mpr (within.trans (Nat.le_mul_of_pos_right _ positive))

/-- The whole blocks at the front of a stream are its first pieces. -/
private theorem Bytes.pieces_take_flatten {size length count : ℕ} {blocks : List Bytes}
    (whole : ∀ b ∈ blocks, b.length = size) (enough : count ≤ blocks.length)
    (within : count * size ≤ length) :
    pieces size count (blocks.flatten.take length) = blocks.take count := by
  induction count generalizing blocks length with
  | zero => rfl
  | succ count ih =>
    match blocks with
    | [] => cases enough
    | block :: blocks =>
      obtain ⟨first, rest⟩ := List.forall_mem_cons.mp whole
      rw [Nat.succ_mul] at within
      have fits : size ≤ length := (Nat.le_add_left ..).trans within
      have front : (block ++ blocks.flatten).take size = block := by rw [← first, List.take_left]
      have behind : (block ++ blocks.flatten).drop size = blocks.flatten := by
        rw [← first, List.drop_left]
      rw [pieces, List.flatten_cons, List.take_take, min_eq_left fits, front, List.drop_take, behind,
        ih rest (Nat.le_of_succ_le_succ enough) (Nat.le_sub_of_add_le within), List.take_succ_cons]

namespace CtrDrbg

/-! ## Blocks that are encrypted -/

def cipher (s : CtrDrbg) : Bytes → Bytes := (Aes.RoundKeys.ofKey s.size s.key).encrypt

/-- Key stream of `length` bytes: a block cipher is asked about the increments of a counter. -/
def streamInquiry (length : ℕ) (v : Bytes) : Inquiry (Bytes × Bytes) :=
  (along Bytes.increment Bytes.increment (blocksFor length Aes.blockLength) v).bind
    fun (stream, last) => done (stream.take length, last)

/-- An update, which asks the cipher under the key that it replaces. -/
def updateInquiry (s : CtrDrbg) (data : Bytes) : Inquiry CtrDrbg :=
  (streamInquiry s.size.seedLength s.v).bind fun (stream, _) =>
    let mixed := stream.xor data
    done { s with key := mixed.take s.size.keyLength, v := mixed.drop s.size.keyLength }

/-- Output and the closing update, which ask the cipher under the key that output starts with. -/
def requestInquiry (s : CtrDrbg) (length : ℕ) (additional : Bytes) : Inquiry (Bytes × CtrDrbg) :=
  let start := s.start additional
  (streamInquiry length start.v).bind fun (output, v) =>
    ({ start with v }.updateInquiry (s.derivedInput additional)).bind fun next =>
      done (output, next)

/-- The blocks that a request encrypts under the key in force during output, in order. -/
def encryptedBlocks (s : CtrDrbg) (length : ℕ) (additional : Bytes) : List Bytes :=
  (s.requestInquiry length additional).inputs (s.start additional).cipher

/-- The whole blocks of key stream that output is taken from. -/
def outputStream (s : CtrDrbg) (length : ℕ) (additional : Bytes) : List Bytes :=
  ((s.encryptedBlocks length additional).take (blocksFor length Aes.blockLength)).map
    (s.start additional).cipher

/-- The whole blocks of key stream that the next key and counter are made from. -/
def closingStream (s : CtrDrbg) (length : ℕ) (additional : Bytes) : List Bytes :=
  ((s.encryptedBlocks length additional).drop (blocksFor length Aes.blockLength)).map
    (s.start additional).cipher

/-- A request does with one key what it has to, on a new block each time. -/
structure NoBlockReused (s : CtrDrbg) (length : ℕ) (additional : Bytes) : Prop where
  /-- Nothing but the cipher under this key is asked for output and the next state. -/
  served : (s.requestInquiry length additional).answered (s.start additional).cipher =
    s.generate length additional
  count : (s.encryptedBlocks length additional).length =
    blocksFor length Aes.blockLength + blocksFor s.size.seedLength Aes.blockLength
  distinct : (s.encryptedBlocks length additional).Nodup
  output : (s.generate length additional).1 =
    (s.outputStream length additional).flatten.take length
  next : (s.generate length additional).2.key ++ (s.generate length additional).2.v =
    Bytes.xor ((s.closingStream length additional).flatten.take s.size.seedLength)
      (s.derivedInput additional)
  /-- Full blocks of output differ from each other and from the key stream behind the next state. -/
  unshared : (Bytes.pieces Aes.blockLength (length / Aes.blockLength)
    (s.generate length additional).1 ++ s.closingStream length additional).Nodup

variable (s : CtrDrbg) (length : ℕ) (additional data : Bytes)

theorem answered_streamInquiry :
    (streamInquiry length s.v).answered s.cipher = s.keyStream length := by
  simp only [streamInquiry, answered_bind, answered_done, answered_along]
  rfl

theorem answered_updateInquiry : (s.updateInquiry data).answered s.cipher = s.update data := by
  simp only [updateInquiry, answered_bind, answered_done, answered_streamInquiry]
  rfl

/-- The counter moves under the key that stays. -/
theorem answered_requestInquiry :
    (s.requestInquiry length additional).answered (s.start additional).cipher =
      s.generate length additional := by
  -- Output leaves another counter but the same key, so the closing update asks the same cipher.
  have closing (v : Bytes) := answered_updateInquiry { s.start additional with v }
  simp only [cipher] at closing
  simp only [requestInquiry, answered_bind, answered_done, answered_streamInquiry]
  simp only [cipher, closing]
  rfl

/-- The blocks that are encrypted for key stream. -/
theorem inputs_streamInquiry (f : Bytes → Bytes) (v : Bytes) :
    (streamInquiry length v).inputs f =
      (List.range (blocksFor length Aes.blockLength)).map fun i => Bytes.increment^[i + 1] v := by
  simp only [streamInquiry, inputs_bind, inputs_done, List.append_nil, inputs_along,
    Function.iterate_succ_apply']

theorem answered_streamInquiry_eq (f : Bytes → Bytes) (v : Bytes) :
    (streamInquiry length v).answered f =
      ((((streamInquiry length v).inputs f).map f).flatten.take length,
        Bytes.increment^[blocksFor length Aes.blockLength] v) := by
  simp only [streamInquiry, inputs_bind, answered_bind, inputs_done, List.append_nil, answered_done,
    answered_along_eq]

/-- The closing update asks about the blocks that follow those of output. -/
private theorem encryptedBlocks_eq_append : s.encryptedBlocks length additional =
    (streamInquiry length (s.start additional).v).inputs (s.start additional).cipher ++
      (streamInquiry s.size.seedLength (Bytes.increment^[blocksFor length Aes.blockLength]
        (s.start additional).v)).inputs (s.start additional).cipher := by
  simp only [encryptedBlocks, requestInquiry, updateInquiry, inputs_bind, answered_streamInquiry_eq,
    inputs_done, List.append_nil, size_start]

/-- All of them together are the increments of one counter. -/
theorem encryptedBlocks_eq : s.encryptedBlocks length additional =
    (List.range (blocksFor length Aes.blockLength + blocksFor s.size.seedLength Aes.blockLength)).map
      fun i => Bytes.increment^[i] (s.start additional).v.increment := by
  simp only [encryptedBlocks_eq_append, inputs_streamInquiry, List.range_add, List.map_append,
    List.map_map, Function.comp_def, ← Function.iterate_add_apply, ← Function.iterate_succ_apply,
    Nat.succ_eq_add_one]
  congr 2
  funext i
  rw [Nat.add_comm _ (blocksFor ..), Nat.add_assoc]

private theorem outputStream_eq : s.outputStream length additional =
    ((streamInquiry length (s.start additional).v).inputs (s.start additional).cipher).map
      (s.start additional).cipher := by
  rw [outputStream, encryptedBlocks_eq_append, List.take_left' (by simp [inputs_streamInquiry])]

private theorem closingStream_eq : s.closingStream length additional =
    ((streamInquiry s.size.seedLength (Bytes.increment^[blocksFor length Aes.blockLength]
      (s.start additional).v)).inputs (s.start additional).cipher).map (s.start additional).cipher := by
  rw [closingStream, encryptedBlocks_eq_append, List.drop_left' (by simp [inputs_streamInquiry])]

/-- Every request is served as the inquiry says. -/
theorem generate_fst : (s.generate length additional).1 =
    (s.outputStream length additional).flatten.take length := by
  rw [← answered_requestInquiry, outputStream_eq]
  simp only [requestInquiry, answered_bind, answered_done, answered_streamInquiry_eq]

theorem generate_snd : (s.generate length additional).2.key ++ (s.generate length additional).2.v =
    Bytes.xor ((s.closingStream length additional).flatten.take s.size.seedLength)
      (s.derivedInput additional) := by
  rw [← answered_requestInquiry, closingStream_eq]
  simp only [requestInquiry, updateInquiry, answered_bind, answered_done, answered_streamInquiry_eq,
    List.take_append_drop, size_start]

variable {s length}

theorem Shaped.length_of_mem_encryptedBlocks (shaped : s.Shaped) {block : Bytes}
    (member : block ∈ s.encryptedBlocks length additional) : block.length = Aes.blockLength := by
  rw [encryptedBlocks_eq] at member
  obtain ⟨i, -, rfl⟩ := List.mem_map.mp member
  rw [Bytes.length_iterate_increment, Bytes.length_increment]
  exact (shaped.start additional).v

/-- There are far fewer blocks in a request than a counter has values. -/
theorem Shaped.nodup_encryptedBlocks (shaped : s.Shaped) (within : length ≤ maxRequestBytes) :
    (s.encryptedBlocks length additional).Nodup := by
  have output := blocksFor_le_maxRequestBytes (by decide : 0 < Aes.blockLength) within
  have closing : blocksFor s.size.seedLength Aes.blockLength ≤ 3 := by
    cases s.size <;> decide
  rw [encryptedBlocks_eq]
  apply Bytes.nodup_iterates_increment
  rw [Bytes.length_increment, (shaped.start additional).v]
  exact (Nat.add_le_add output closing).trans (by decide)

/-- Because blocks are told apart by their encryptions, key stream has no block twice. -/
theorem Shaped.nodup_streams (shaped : s.Shaped) (within : length ≤ maxRequestBytes) :
    (s.outputStream length additional ++ s.closingStream length additional).Nodup := by
  rw [outputStream, closingStream, ← List.map_append, List.take_append_drop]
  refine List.Nodup.map_on (fun a ha b hb same => ?_) (shaped.nodup_encryptedBlocks additional within)
  exact (Aes.RoundKeys.encrypt_inj _ (shaped.length_of_mem_encryptedBlocks additional ha)
    (shaped.length_of_mem_encryptedBlocks additional hb)).mp same

private theorem length_outputStream :
    (s.outputStream length additional).length = blocksFor length Aes.blockLength := by
  simp [outputStream_eq, inputs_streamInquiry]

/-- The full blocks of output are whole blocks of key stream. -/
theorem pieces_generate : Bytes.pieces Aes.blockLength (length / Aes.blockLength)
    (s.generate length additional).1 =
      (s.outputStream length additional).take (length / Aes.blockLength) := by
  rw [generate_fst]
  refine Bytes.pieces_take_flatten (fun block member => ?_) ?_ (Nat.div_mul_le_self ..)
  · obtain ⟨input, -, rfl⟩ := List.mem_map.mp member
    exact Aes.RoundKeys.length_encrypt ..
  · rw [length_outputStream]
    exact Nat.div_le_div_right (by simp [Aes.blockLength])

theorem Shaped.noBlockReused (shaped : s.Shaped) (within : length ≤ maxRequestBytes) :
    s.NoBlockReused length additional where
  served := answered_requestInquiry ..
  count := by rw [encryptedBlocks_eq, List.length_map, List.length_range]
  distinct := shaped.nodup_encryptedBlocks additional within
  output := generate_fst ..
  next := generate_snd ..
  unshared := by
    rw [pieces_generate]
    exact (shaped.nodup_streams additional within).sublist
      ((List.take_sublist ..).append_right _)

end CtrDrbg

namespace HashDrbg

/-! ## Messages that are hashed -/

/-- The digest of a state, as a function of whole messages. -/
def hashed (s : HashDrbg) (message : Bytes) : Bytes := s.digest.hash [message]

/-- What is hashed to mix additional input into the value. -/
def openingInput (s : HashDrbg) (additional : Bytes) : Bytes := [0x02] ++ s.v ++ additional

/-- The value that output starts from, by way of the opening input if there is additional input. -/
def startInquiry (s : HashDrbg) (additional : Bytes) : Inquiry Bytes :=
  if additional.isEmpty then done s.v
  else ask (s.openingInput additional) fun digest => done (s.v.add digest)

/-- Output from successive values, and the sum that moves the state on. -/
def requestInquiry (s : HashDrbg) (length : ℕ) (additional : Bytes) (counter : ℕ) :
    Inquiry (Bytes × HashDrbg) :=
  (s.startInquiry additional).bind fun start =>
    (along id Bytes.increment (blocksFor length s.digest.outputLength) start).bind fun (output, _) =>
      ask ([0x03] ++ start) fun digest =>
        done (output.take length,
          { s with v := ((start.add digest).add s.c).add (Bytes.ofNat 8 counter) })

/-- The values that are hashed to blocks of output, in order. -/
def outputInputs (s : HashDrbg) (length : ℕ) (additional : Bytes) : List Bytes :=
  (List.range (blocksFor length s.digest.outputLength)).map fun i =>
    Bytes.increment^[i] (s.startValue additional)

/-- What is hashed behind output to move the value on. -/
def closingInput (s : HashDrbg) (additional : Bytes) : Bytes := [0x03] ++ s.startValue additional

/-- A request hashes for output what it hashes neither again nor to move on. -/
structure NoInputReused (s : HashDrbg) (length : ℕ) (additional : Bytes) (counter : ℕ) : Prop where
  /-- Nothing but the digest is asked for output and the next state. -/
  served : (s.requestInquiry length additional counter).answered s.hashed =
    s.generate length additional counter
  inputs : (s.requestInquiry length additional counter).inputs s.hashed =
    (if additional.isEmpty then [] else [s.openingInput additional]) ++
      s.outputInputs length additional ++ [s.closingInput additional]
  output : (s.generate length additional counter).1 =
    ((s.outputInputs length additional).map s.hashed).flatten.take length
  /-- The opening input is told apart even where it is not used. -/
  distinct : (s.openingInput additional ::
    (s.outputInputs length additional ++ [s.closingInput additional])).Nodup

variable (s : HashDrbg) (length : ℕ) (additional : Bytes) (counter : ℕ)

theorem answered_startInquiry :
    (s.startInquiry additional).answered s.hashed = s.startValue additional := by
  have parts : s.digest.hash [s.openingInput additional] =
      s.digest.hash [[0x02], s.v, additional] :=
    s.digest.hash_congr (by simp [openingInput])
  unfold startInquiry startValue
  split
  · rfl
  · exact congrArg s.v.add parts

theorem inputs_startInquiry : (s.startInquiry additional).inputs s.hashed =
    if additional.isEmpty then [] else [s.openingInput additional] := by
  unfold startInquiry
  split <;> rfl

theorem answered_requestInquiry : (s.requestInquiry length additional counter).answered s.hashed =
    s.generate length additional counter := by
  have closing : s.hashed ([0x03] ++ s.startValue additional) =
      s.digest.hash [[0x03], s.startValue additional] :=
    s.digest.hash_congr (by simp)
  simp only [requestInquiry, answered_bind, answered_startInquiry, answered_along, answered_ask,
    answered_done, closing]
  rfl

theorem inputs_requestInquiry : (s.requestInquiry length additional counter).inputs s.hashed =
    (if additional.isEmpty then [] else [s.openingInput additional]) ++
      s.outputInputs length additional ++ [s.closingInput additional] := by
  simp only [requestInquiry, inputs_bind, inputs_startInquiry, answered_startInquiry, inputs_along,
    inputs_ask, inputs_done, List.append_assoc]
  rfl

theorem generate_fst : (s.generate length additional counter).1 =
    ((s.outputInputs length additional).map s.hashed).flatten.take length := by
  rw [← answered_requestInquiry]
  simp only [requestInquiry, answered_bind, answered_startInquiry, answered_along_eq, answered_ask,
    answered_done, inputs_along]
  rfl

variable {s length}

theorem Shaped.length_of_mem_outputInputs (shaped : s.Shaped) {input : Bytes}
    (member : input ∈ s.outputInputs length additional) : input.length = s.digest.seedLength := by
  obtain ⟨i, -, rfl⟩ := List.mem_map.mp member
  rw [Bytes.length_iterate_increment, length_startValue, shaped.v]

theorem Shaped.nodup_outputInputs (shaped : s.Shaped) (within : length ≤ maxRequestBytes) :
    (s.outputInputs length additional).Nodup := by
  have few := blocksFor_le_maxRequestBytes s.digest.outputLength_pos within
  apply Bytes.nodup_iterates_increment
  rw [length_startValue, shaped.v]
  have room : maxRequestBytes ≤ 256 ^ s.digest.seedLength := by
    cases s.digest <;> decide
  exact few.trans room

/-- Inputs that begin with a separator are longer than a value, and the separators differ. -/
theorem Shaped.nodup_inputs (shaped : s.Shaped) (within : length ≤ maxRequestBytes) :
    (s.openingInput additional ::
      (s.outputInputs length additional ++ [s.closingInput additional])).Nodup := by
  -- A value may happen to begin with a separator, so it is told apart by its length.
  have longer {input : Bytes} (long : s.digest.seedLength < input.length) :
      input ∉ s.outputInputs length additional := fun member =>
    long.ne' (shaped.length_of_mem_outputInputs additional member)
  have opening : s.openingInput additional ∉ s.outputInputs length additional := by
    apply longer
    simp only [openingInput, List.length_append, List.length_singleton, shaped.v]
    omega
  have closing : s.closingInput additional ∉ s.outputInputs length additional := by
    apply longer
    simp only [closingInput, List.length_append, List.length_singleton, length_startValue, shaped.v]
    omega
  have separated : s.openingInput additional ≠ s.closingInput additional := by
    simp [openingInput, closingInput]
  rw [List.nodup_cons, List.mem_append, List.mem_singleton, not_or]
  refine ⟨⟨opening, separated⟩, ?_⟩
  rw [List.nodup_append_comm, List.singleton_append, List.nodup_cons]
  exact ⟨closing, shaped.nodup_outputInputs additional within⟩

theorem Shaped.noInputReused (shaped : s.Shaped) (within : length ≤ maxRequestBytes) :
    s.NoInputReused length additional counter where
  served := answered_requestInquiry ..
  inputs := inputs_requestInquiry ..
  output := generate_fst ..
  distinct := shaped.nodup_inputs additional within

end HashDrbg

namespace Core

/-- No request within the limit uses a primitive twice on one input. Under the key in force during output,
CTR_DRBG encrypts distinct blocks for output and for its closing update; Hash_DRBG hashes distinct
messages for output, and others to move on. -/
theorem inputs_distinct {length : ℕ} (within : length ≤ maxRequestBytes) (additional : Bytes) :
    (∀ (size : Aes.KeySize) (s : CtrDrbg), Reachable (.ctr size) (.ctr s) →
      s.NoBlockReused length additional) ∧
    ∀ (d : Digest) (s : HashDrbg), Reachable (.hash d) (.hash s) →
      ∀ counter : ℕ, s.NoInputReused length additional counter := by
  constructor
  · intro size s reached
    have shaped : s.Shaped := reached.shaped
    exact shaped.noBlockReused additional within
  · intro d s reached counter
    have shaped : s.Shaped := reached.shaped
    exact shaped.noInputReused additional counter within

/-- The largest request, right after instantiation and with additional input. AES-192 throws half a block
of its last key stream away. -/
theorem inputs_distinct_largest :
    let s := CtrDrbg.instantiate .aes192 (Bytes.zeros 24) [1] []
    let t := HashDrbg.instantiate .sha256 (Bytes.zeros 32) [1] []
    65536 ≤ maxRequestBytes ∧ Reachable (.ctr .aes192) (.ctr s) ∧ s.NoBlockReused 65536 [2] ∧
      Reachable (.hash .sha256) (.hash t) ∧ t.NoInputReused 65536 [2] 1 := by
  intro s t
  have within : 65536 ≤ maxRequestBytes := le_rfl
  have counts : Reachable (.ctr .aes192) (.ctr s) := .instantiated (Bytes.zeros 24) [1] []
  have hashes : Reachable (.hash .sha256) (.hash t) := .instantiated (Bytes.zeros 32) [1] []
  obtain ⟨blocks, messages⟩ := inputs_distinct within [2]
  exact ⟨within, counts, blocks .aes192 s counts, hashes, messages .sha256 t hashes 1⟩

end Core

end RandomBits
