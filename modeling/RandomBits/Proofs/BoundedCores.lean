import Mathlib
import RandomBits.Proofs.BoundedDerivation
import RandomBits.Proofs.KeyedCounter
import RandomBits.Proofs.PartialBlocks
import RandomBits.Proofs.SeedMaterial
import RandomBits.Proofs.WorkingStates

/-! # No core reaches out of bounds

The four cores with all their accesses checked. Beyond slices and copies these are the keys and blocks of
the block cipher, the keys of authentication codes, masks that must be as long as what they are mixed into,
and scalars that the point operations must be able to convert. Main statement: the lengths in a working
state are invariant, so that from every seed every sequence of calls runs to its end, and does what the
cores do without checks (`Core.runs_within_bounds`).
-/

namespace RandomBits

/-- Mixes in a mask that must be as long, so that no byte is left as it was. -/
def Bytes.mixWhole? (target mask : Bytes) : Option Bytes :=
  if mask.length = target.length then some (target.xor mask) else none

private theorem Bytes.mixWhole?_eq {target mask : Bytes} (whole : mask.length = target.length) :
    target.mixWhole? mask = some (target.xor mask) :=
  if_pos whole

section Loops

variable {σ τ : Type}

/-- The front of the block of a step that does not fault. -/
def front? (step? : σ → Option (Bytes × σ)) (count : ℕ) (s : σ) : Option (Except Fault (Bytes × σ)) := do
  let (block, next) ← step? s
  return .ok (← block.slice? 0 count, next)

/-- Goes on from a result, unless there was a fault. -/
def proceed? : Except Fault σ → (σ → Option (Except Fault τ)) → Option (Except Fault τ)
  | .error fault, _ => some (.error fault)
  | .ok s, next? => next? s

/-- What a state makes of a result: it is replaced by the next one, unless there was a fault. -/
def settle (s : σ) : Except Fault σ → Except Fault Unit × σ
  | .error fault => (.error fault, s)
  | .ok next => (.ok (), next)

private theorem proceed?_eq {last : Except Fault σ} {next? : σ → Option (Except Fault τ)}
    {next : σ → Except Fault τ} (within : ∀ s, last = .ok s → next? s = some (next s)) :
    proceed? last next? = some (last.bind next) := by
  cases last with
  | error fault => rfl
  | ok s => exact within s rfl

private theorem Blocks.valid_emit {step : σ → Bytes × σ} {size : ℕ} {valid : σ → Prop}
    (blocks : Blocks step size valid) {s : σ} (start : valid s) (count : ℕ) :
    valid (emit step count s).2 := by
  induction count generalizing s with
  | zero => exact start
  | succ count ih => exact ih (blocks.next start)

/-- Where no step faults, the loop over a buffer is given as many bytes as it has room for. -/
theorem Blocks.fill?_eq {step? : σ → Option (Bytes × σ)} {step : σ → Bytes × σ} {size : ℕ}
    {valid : σ → Prop} (blocks : Blocks step size valid)
    (within : ∀ s, valid s → step? s = some (step s)) (buffer : Bytes) {s : σ} (start : valid s) :
    fill? (front? step?) size buffer s =
      some (buffer.overwrite (emitBytes step size buffer.length s).1,
        .ok (emitBytes step size buffer.length s).2) := by
  have cuts : Cuts (front? step?) (fun s => .ok (step s)) size valid := {
    positive := blocks.positive
    front := by
      intro s count start room
      have inside : count ≤ (step s).1.length := room.trans (blocks.length start).ge
      simp only [front?, within s start, Option.bind_eq_bind, Option.bind_some,
        Bytes.slice?_front inside]
      rfl
    next := by
      intro s next block start ran
      obtain ⟨rfl, rfl⟩ := Prod.mk.inj (Except.ok.inj ran)
      exact ⟨blocks.length start, blocks.next start⟩ }
  rw [cuts.fill?_eq buffer start, emitUntilFault_ok, emitBytes, Bytes.overwrite_take]

end Loops

namespace HashDrbg

def ofValue? (d : Digest) (v : Bytes) : Option HashDrbg := do
  return { digest := d, v, c := ← d.hashDf? [[0x00], v] d.seedBits }

def instantiate? (d : Digest) (entropy nonce personalization : Bytes) : Option HashDrbg := do
  ofValue? d (← d.hashDf? [entropy, nonce, personalization] d.seedBits)

def reseed? (s : HashDrbg) (entropy additional : Bytes) : Option HashDrbg := do
  ofValue? s.digest (← s.digest.hashDf? [[0x01], s.v, entropy, additional] s.digest.seedBits)

/-- Fills a buffer with output and moves the state on. -/
def generate? (s : HashDrbg) (buffer additional : Bytes) (counter : ℕ) :
    Option (Bytes × Except Fault Unit × HashDrbg) := do
  let start := s.startValue additional
  let (output, last) ← fill? (front? fun value => some (outputStep s.digest value))
    s.digest.outputLength buffer start
  let moved := start.add (s.digest.hash [[0x03], start])
  let next := { s with v := (moved.add s.c).add (Bytes.ofNat 8 counter) }
  return (output, settle s (last.map fun _ => next))

private theorem ofValue?_eq (d : Digest) (v : Bytes) : ofValue? d v = some (ofValue d v) := by
  rw [ofValue?, Digest.hashDf?_eq]
  rfl

theorem instantiate?_eq (d : Digest) (entropy nonce personalization : Bytes) :
    instantiate? d entropy nonce personalization = some (instantiate d entropy nonce personalization) := by
  rw [instantiate?, Digest.hashDf?_eq]
  exact ofValue?_eq ..

theorem reseed?_eq (s : HashDrbg) (entropy additional : Bytes) :
    s.reseed? entropy additional = some (s.reseed entropy additional) := by
  rw [reseed?, Digest.hashDf?_eq]
  exact ofValue?_eq ..

theorem generate?_eq (s : HashDrbg) (buffer additional : Bytes) (counter : ℕ) :
    s.generate? buffer additional counter =
      some (buffer.overwrite (s.generate buffer.length additional counter).1, .ok (),
        (s.generate buffer.length additional counter).2) := by
  simp only [generate?, (blocks s.digest).fill?_eq (fun _ _ => rfl) buffer trivial, Option.bind_eq_bind,
    Option.bind_some]
  rfl

end HashDrbg

namespace HmacDrbg

def round? (s : HmacDrbg) (separator : UInt8) (data : List Bytes) : Option HmacDrbg := do
  let key ← s.digest.hmac? s.key (s.v :: [separator] :: data)
  return { s with key, v := ← s.digest.hmac? key [s.v] }

def update? (s : HmacDrbg) (data : List Bytes) : Option HmacDrbg := do
  let first ← s.round? 0x00 data
  if data.any (!·.isEmpty) then first.round? 0x01 data else return first

def instantiate? (d : Digest) (entropy nonce personalization : Bytes) : Option HmacDrbg :=
  (blank d).update? [entropy, nonce, personalization]

def reseed? (s : HmacDrbg) (entropy additional : Bytes) : Option HmacDrbg :=
  s.update? [entropy, additional]

def outputStep? (s : HmacDrbg) : Option (Bytes × HmacDrbg) := do
  let v ← s.digest.hmac? s.key [s.v]
  return (v, { s with v })

/-- The state that output starts from: additional input, unless empty, is mixed in. -/
def start? (s : HmacDrbg) (additional : Bytes) : Option HmacDrbg :=
  if additional.isEmpty then some s else s.update? [additional]

/-- Fills a buffer with output and moves the state on. -/
def generate? (s : HmacDrbg) (buffer additional : Bytes) :
    Option (Bytes × Except Fault Unit × HmacDrbg) := do
  let start ← s.start? additional
  let (output, last) ← fill? (front? outputStep?) s.digest.outputLength buffer start
  let next ← proceed? last fun s => (s.update? [additional]).map .ok
  return (output, settle s next)

variable {s : HmacDrbg}

/-- Keys that are as long as a digest fit into a block. -/
theorem Shaped.hmac?_eq (shaped : s.Shaped) (parts : List Bytes) :
    s.digest.hmac? s.key parts = some (s.digest.hmac s.key parts) :=
  Digest.hmac?_eq (shaped.key.trans_le s.digest.outputLength_le_blockLength) parts

theorem Shaped.round?_eq (shaped : s.Shaped) (separator : UInt8) (data : List Bytes) :
    s.round? separator data = some (s.round separator data) := by
  have fits : (s.digest.hmac s.key (s.v :: [separator] :: data)).length ≤ s.digest.blockLength :=
    (Digest.length_hmac ..).trans_le s.digest.outputLength_le_blockLength
  simp only [round?, shaped.hmac?_eq, Digest.hmac?_eq fits, Option.bind_eq_bind, Option.bind_some]
  rfl

/-- Each round leaves a key and a value for the next one. -/
theorem Shaped.update?_eq (shaped : s.Shaped) (data : List Bytes) :
    s.update? data = some (s.update data) := by
  have again := (s.shaped_round 0x00 data).round?_eq 0x01 data
  simp only [update?, shaped.round?_eq, Option.bind_eq_bind, Option.bind_some, update]
  split
  · exact again
  · rfl

theorem instantiate?_eq (d : Digest) (entropy nonce personalization : Bytes) :
    instantiate? d entropy nonce personalization = some (instantiate d entropy nonce personalization) := by
  refine Shaped.update?_eq ⟨?_, ?_⟩ _
  · exact Bytes.length_zeros _
  · exact List.length_replicate

theorem Shaped.start?_eq (shaped : s.Shaped) (additional : Bytes) :
    s.start? additional = some (if additional.isEmpty then s else s.update [additional]) := by
  unfold start?
  split
  · rfl
  · exact shaped.update?_eq _

theorem Shaped.outputStep?_eq (shaped : s.Shaped) : s.outputStep? = some s.outputStep := by
  simp only [outputStep?, shaped.hmac?_eq, Option.bind_eq_bind, Option.bind_some]
  rfl

private theorem shapedBlocks (d : Digest) :
    Blocks outputStep d.outputLength fun s => s.Shaped ∧ s.digest = d where
  positive := d.outputLength_pos
  length valid := (blocks d).length valid.2
  next valid := ⟨⟨valid.1.key, Digest.length_hmac ..⟩, valid.2⟩

theorem Shaped.generate?_eq (shaped : s.Shaped) (buffer additional : Bytes) :
    s.generate? buffer additional = some (buffer.overwrite (s.generate buffer.length additional).1,
      .ok (), (s.generate buffer.length additional).2) := by
  let start := if additional.isEmpty then s else s.update [additional]
  have valid : start.Shaped ∧ start.digest = s.digest := by
    refine ⟨?_, s.digest_start additional⟩
    simp only [start]
    split
    · exact shaped
    · exact s.shaped_update _
  have filled := (shapedBlocks s.digest).fill?_eq (fun s valid => valid.1.outputStep?_eq) buffer valid
  have last : (emitBytes outputStep s.digest.outputLength buffer.length start).2.Shaped :=
    ((shapedBlocks s.digest).valid_emit valid _).1
  simp only [generate?, shaped.start?_eq, Option.bind_eq_bind, Option.bind_some]
  change (fill? (front? outputStep?) s.digest.outputLength buffer start).bind _ = _
  simp only [filled, Option.bind_some, proceed?, last.update?_eq]
  rfl

end HmacDrbg

namespace CtrDrbg

def outputStep? (keys : Aes.RoundKeys) (v : Bytes) : Option (Bytes × Bytes) := do
  let next := v.increment
  return (← keys.encrypt? next, next)

/-- Mixes data of the seed length into key stream. The new key and counter are slices of the mixture. -/
def update? (s : CtrDrbg) (data : Bytes) : Option CtrDrbg := do
  let keys ← Aes.keys? s.size s.key
  let (stream, _) ← emit? (outputStep? keys) (blocksFor s.size.seedLength Aes.blockLength) s.v
  let mixed ← Bytes.mixWhole? (stream.take s.size.seedLength) data
  let key ← mixed.slice? 0 s.size.keyLength
  return { s with key, v := ← mixed.slice? s.size.keyLength mixed.length }

def instantiate? (size : Aes.KeySize) (entropy nonce personalization : Bytes) : Option CtrDrbg := do
  let blank : CtrDrbg :=
    { size, key := Bytes.zeros size.keyLength, v := Bytes.zeros Aes.blockLength }
  blank.update? (← Aes.blockCipherDf? size [entropy, nonce, personalization])

def reseed? (s : CtrDrbg) (entropy additional : Bytes) : Option CtrDrbg := do
  s.update? (← Aes.blockCipherDf? s.size [entropy, additional])

/-- The state that output starts from, and what is mixed in after it. -/
def start? (s : CtrDrbg) (additional : Bytes) : Option (CtrDrbg × Bytes) :=
  if additional.isEmpty then some (s, Bytes.zeros s.size.seedLength)
  else do
    let data ← Aes.blockCipherDf? s.size [additional]
    return (← s.update? data, data)

/-- Fills a buffer with output and moves the state on. -/
def generate? (s : CtrDrbg) (buffer additional : Bytes) :
    Option (Bytes × Except Fault Unit × CtrDrbg) := do
  let (start, data) ← s.start? additional
  let keys ← Aes.keys? start.size start.key
  let (output, last) ← fill? (front? (outputStep? keys)) Aes.blockLength buffer start.v
  let next ← proceed? last fun v => ({ start with v }.update? data).map .ok
  return (output, settle s next)

variable {s : CtrDrbg} {data : Bytes}

theorem wholeBlocks (keys : Aes.RoundKeys) :
    Blocks (outputStep keys) Aes.blockLength fun v => v.length = Aes.blockLength where
  positive := by decide
  length _ := (blocks keys).length trivial
  next whole := (Bytes.length_increment _).trans whole

theorem outputStep?_eq (keys : Aes.RoundKeys) {v : Bytes} (whole : v.length = Aes.blockLength) :
    outputStep? keys v = some (outputStep keys v) := by
  have next : v.increment.length = Aes.blockLength := (Bytes.length_increment v).trans whole
  simp only [outputStep?, Aes.encrypt?_eq next, Option.bind_eq_bind, Option.bind_some]
  rfl

/-- Data of the seed length is mixed in as a whole, and the mixture is cut into a key and a counter. -/
theorem Shaped.update?_eq (shaped : s.Shaped) (whole : data.length = s.size.seedLength) :
    s.update? data = some (s.update data) := by
  let stream := (s.keyStream s.size.seedLength).1
  have emitted := emit?_eq (fun v => v.length = Aes.blockLength)
    (fun _ => outputStep?_eq (.ofKey s.size s.key)) (fun _ => (wholeBlocks _).next)
    (blocksFor s.size.seedLength Aes.blockLength) s.v shaped.v
  have length : stream.length = s.size.seedLength := s.length_keyStream _
  have mixed : stream.mixWhole? data = some (stream.xor data) :=
    Bytes.mixWhole?_eq (whole.trans length.symm)
  have short : s.size.keyLength ≤ (stream.xor data).length := by
    rw [Bytes.length_xor, length, whole, min_self]
    exact Nat.le_add_right ..
  simp only [update?, Aes.keys?_eq shaped.key, emitted, Option.bind_eq_bind, Option.bind_some]
  change (stream.mixWhole? data).bind _ = _
  simp only [mixed, Option.bind_some, Bytes.slice?_front short, Bytes.slice?_eq short le_rfl,
    List.take_length]
  rfl

theorem instantiate?_eq (size : Aes.KeySize) (entropy nonce personalization : Bytes) :
    instantiate? size entropy nonce personalization =
      some (instantiate size entropy nonce personalization) := by
  rw [instantiate?, Aes.blockCipherDf?_eq]
  refine Shaped.update?_eq ⟨?_, ?_⟩ (Aes.length_blockCipherDf ..)
  · exact Bytes.length_zeros _
  · exact Bytes.length_zeros _

theorem Shaped.reseed?_eq (shaped : s.Shaped) (entropy additional : Bytes) :
    s.reseed? entropy additional = some (s.reseed entropy additional) := by
  rw [reseed?, Aes.blockCipherDf?_eq]
  exact shaped.update?_eq (Aes.length_blockCipherDf ..)

theorem Shaped.start?_eq (shaped : s.Shaped) (additional : Bytes) :
    s.start? additional = some (s.start additional, s.derivedInput additional) := by
  unfold start? CtrDrbg.start derivedInput
  split
  · rfl
  · have whole := Aes.length_blockCipherDf s.size [additional]
    simp only [Aes.blockCipherDf?_eq, shaped.update?_eq whole, Option.bind_eq_bind, Option.bind_some]
    rfl

theorem Shaped.generate?_eq (shaped : s.Shaped) (buffer additional : Bytes) :
    s.generate? buffer additional = some (buffer.overwrite (s.generate buffer.length additional).1,
      .ok (), (s.generate buffer.length additional).2) := by
  have begun := shaped.start additional
  let last := { s.start additional with v := ((s.start additional).keyStream buffer.length).2 }
  have filled := (wholeBlocks (.ofKey (s.start additional).size (s.start additional).key)).fill?_eq
    (fun _ => outputStep?_eq _) buffer begun.v
  have moved : last.Shaped := ⟨begun.key, ((s.start additional).length_counter_keyStream _).trans begun.v⟩
  have whole : (s.derivedInput additional).length = last.size.seedLength := by
    rw [length_derivedInput, ← s.size_start additional]
  simp only [generate?, shaped.start?_eq, Aes.keys?_eq begun.key, filled, Option.bind_eq_bind,
    Option.bind_some, proceed?]
  change Option.bind ((last.update? _).map _) _ = _
  simp only [moved.update?_eq whole]
  rfl

end CtrDrbg

namespace DualEcDrbg

def instantiate? (d : Digest) (c : Curve) (entropy nonce personalization : Bytes) :
    Option DualEcDrbg := do
  return { digest := d, curve := c, s := ← d.hashDf? [entropy, nonce, personalization] c.seedBits }

/-- The scalar as a string of bits, shifted to the left byte by byte. -/
def pad8? (c : Curve) (s : Bytes) : Option Bytes := s.shiftLeft? ((8 - c.seedBits % 8) % 8)

def reseed? (g : DualEcDrbg) (entropy additional : Bytes) : Option DualEcDrbg := do
  let padded ← pad8? g.curve g.s
  return { g with s := ← g.digest.hashDf? [padded, entropy, additional] g.curve.seedBits }

def startScalar? (g : DualEcDrbg) (additional : Bytes) : Option Bytes :=
  if additional.isEmpty then some g.s
  else do g.s.mixWhole? (← g.digest.hashDf? [additional] g.curve.seedBits)

section

-- The point operations are refused for scalars that are not permitted.
variable (permits : Curve → Bytes → Prop) [∀ c, DecidablePred (permits c)]

def operate? (operation : Curve → Bytes → Except Fault Bytes) (c : Curve) (k : Bytes) :
    Option (Except Fault Bytes) :=
  if permits c k then some (operation c k) else none

/-- The front of one block from the scalar `t`: a slice behind the leading bytes of a coordinate. -/
def block? (c : Curve) (skip count : ℕ) (t : Bytes) : Option (Except Fault (Bytes × Bytes)) := do
  proceed? (← operate? permits Curve.xOfP c t) fun s => do
    proceed? (← operate? permits Curve.xOfQ c s) fun r => do
      return .ok (← r.slice? skip (skip + count), s)

/-- Fills a buffer with output and moves the state on, or stops at a fault. -/
def generate? (g : DualEcDrbg) (buffer additional : Bytes) :
    Option (Bytes × Except Fault Unit × DualEcDrbg) := do
  let start ← g.startScalar? additional
  let skip ← g.curve.fieldLength.psub g.curve.outputLength
  let (output, last) ← fill? (block? permits g.curve skip) g.curve.outputLength buffer start
  let moved ← proceed? last (operate? permits Curve.xOfP g.curve)
  return (output, settle g (moved.map fun s => { g with s }))

end

theorem instantiate?_eq (d : Digest) (c : Curve) (entropy nonce personalization : Bytes) :
    instantiate? d c entropy nonce personalization =
      some (instantiate d c entropy nonce personalization) := by
  rw [instantiate?, Digest.hashDf?_eq]
  rfl

theorem pad8?_eq (c : Curve) (s : Bytes) : pad8? c s = some (pad8 c s) := by
  have shift : (8 - c.seedBits % 8) % 8 = 8 * c.fieldLength - c.seedBits := by
    cases c <;> decide
  rw [pad8?, Bytes.shiftLeft?_eq (Nat.mod_lt _ (by decide)), pad8, shift]

theorem reseed?_eq (g : DualEcDrbg) (entropy additional : Bytes) :
    g.reseed? entropy additional = some (g.reseed entropy additional) := by
  simp only [reseed?, pad8?_eq, Digest.hashDf?_eq, Option.bind_eq_bind, Option.bind_some]
  rfl

/-- The blocks of a request are those of its steps up to the first fault. -/
theorem blocks_eq_emitUntilFault (c : Curve) (count : ℕ) (g : DualEcDrbg) (t : Bytes) :
    blocks c count g t =
      ((emitUntilFault (block c) count t).1, (emitUntilFault (block c) count t).2, g) := by
  induction count generalizing t with
  | zero => rfl
  | succ count ih =>
    rw [blocks, emitUntilFault]
    cases block c t with
    | error fault => rfl
    | ok begun => simp only [ih]

variable {permits : Curve → Bytes → Prop} [∀ c, DecidablePred (permits c)] {g : DualEcDrbg}

private theorem operate?_eq {operation : Curve → Bytes → Except Fault Bytes} {c : Curve} {k : Bytes}
    (permitted : permits c k) : operate? permits operation c k = some (operation c k) :=
  if_pos permitted

/-- What is mixed into a scalar is as long as the scalar. -/
theorem Shaped.startScalar?_eq (shaped : g.Shaped) (additional : Bytes) :
    g.startScalar? additional = some (g.startScalar additional) := by
  unfold startScalar? DualEcDrbg.startScalar
  split
  · rfl
  · have derived := isScalar_derive g.digest g.curve [additional]
    rw [Digest.hashDf?_eq]
    exact Bytes.mixWhole?_eq (derived.length.trans shaped.length.symm)

/-- Where scalars are permitted, blocks are cut from scalar to scalar. -/
theorem cuts_block (c : Curve) (permitted : ∀ k, c.IsScalar k → permits c k) :
    Cuts (block? permits c (c.fieldLength - c.outputLength)) (block c) c.outputLength c.IsScalar where
  positive := c.outputLength_pos
  front := by
    intro t count scalar room
    have within := c.outputLength_le
    simp only [block?, operate?_eq (permitted t scalar), Option.bind_eq_bind, Option.bind_some, block]
    cases moved : c.xOfP t with
    | error fault => rfl
    | ok s =>
      simp only [proceed?, operate?_eq (permitted s (Curve.isScalar_of_xOfP moved)), Option.bind_some]
      cases found : c.xOfQ s with
      | error fault => simp only [bind, Except.bind, found, Except.map]
      | ok r =>
        have inside : c.fieldLength - c.outputLength + count ≤ r.length := by
          rw [(Curve.isScalar_of_xOfQ found).length]
          omega
        simp only [Bytes.slice?_eq (Nat.le_add_right ..) inside, Option.bind_some,
          List.drop_take, Nat.add_sub_cancel_left, bind, Except.bind, found]
        rfl
  next scalar ran := by
    refine ⟨length_of_block ran, ?_⟩
    obtain ⟨s, moved, ran⟩ := bind_eq_ok_iff.mp ran
    obtain ⟨r, found, ran⟩ := bind_eq_ok_iff.mp ran
    obtain ⟨-, rfl⟩ := Prod.mk.inj (Except.ok.inj ran)
    exact Curve.isScalar_of_xOfP moved

/-- A request stays within bounds, and asks for multiples by scalars only. -/
theorem Shaped.generate?_eq (shaped : g.Shaped) (permitted : ∀ k, g.curve.IsScalar k → permits g.curve k)
    (buffer additional : Bytes) :
    g.generate? permits buffer additional = some (buffer.overwrite (g.generate buffer.length additional).1,
      (g.generate buffer.length additional).2) := by
  have cuts := cuts_block g.curve permitted
  have scalar := shaped.startScalar additional
  have filled := cuts.fill?_eq buffer scalar
  have walked := blocks_eq_emitUntilFault g.curve (blocksFor buffer.length g.curve.outputLength) g
    (g.startScalar additional)
  have last : g.lastScalar buffer.length additional = (emitUntilFault (block g.curve)
      (blocksFor buffer.length g.curve.outputLength) (g.startScalar additional)).2 :=
    congrArg (fun ended => ended.2.1) walked
  have moved : proceed? (g.lastScalar buffer.length additional) (operate? permits Curve.xOfP g.curve) =
      some (g.nextScalar buffer.length additional) := by
    refine proceed?_eq fun t ended => operate?_eq (permitted t ?_)
    exact cuts.valid_last scalar (last.symm.trans ended)
  have output : (g.generate buffer.length additional).1 = (emitUntilFault (block g.curve)
      (blocksFor buffer.length g.curve.outputLength) (g.startScalar additional)).1.take buffer.length := by
    rw [generate_fst, walked]
  have settled : settle g ((g.nextScalar buffer.length additional).map fun s => { g with s }) =
      (g.generate buffer.length additional).2 := by
    cases outcome : g.nextScalar buffer.length additional with
    | ok s => exact (generate_of_moved outcome).symm
    | error fault => exact (generate_of_fault outcome).symm
  simp only [generate?, shaped.startScalar?_eq, Nat.psub_eq_sub g.curve.outputLength_le, filled,
    Option.bind_eq_bind, Option.bind_some, ← last, moved, settled, output, Bytes.overwrite_take]
  rfl

end DualEcDrbg

/-- A byte string can be converted to an element of the field if it is as long as one. -/
abbrev Curve.Converts (c : Curve) (k : Bytes) : Prop := k.length = c.fieldLength

namespace Core

def instantiate? (a : Algorithm) (entropy nonce personalization : Bytes) : Option Core :=
  match a with
  | .hash d => (HashDrbg.instantiate? d entropy nonce personalization).map .hash
  | .hmac d => (HmacDrbg.instantiate? d entropy nonce personalization).map .hmac
  | .ctr size => (CtrDrbg.instantiate? size entropy nonce personalization).map .ctr
  | .dualEc d c => (DualEcDrbg.instantiate? d c entropy nonce personalization).map .dualEc

def reseed? (entropy additional : Bytes) : Core → Option Core
  | hash s => (s.reseed? entropy additional).map .hash
  | hmac s => (s.reseed? entropy additional).map .hmac
  | ctr s => (s.reseed? entropy additional).map .ctr
  | dualEc s => (s.reseed? entropy additional).map .dualEc

def generate? (buffer additional : Bytes) (counter : ℕ) :
    Core → Option (Bytes × Except Fault Unit × Core)
  | hash s => (s.generate? buffer additional counter).map (Prod.map id (Prod.map id .hash))
  | hmac s => (s.generate? buffer additional).map (Prod.map id (Prod.map id .hmac))
  | ctr s => (s.generate? buffer additional).map (Prod.map id (Prod.map id .ctr))
  | dualEc s => (s.generate? Curve.Converts buffer additional).map (Prod.map id (Prod.map id .dualEc))

inductive Call
  | reseed (entropy additional : Bytes)
  | generate (buffer additional : Bytes) (counter : ℕ)

def Call.task : Call → Task
  | reseed entropy additional => .reseed entropy additional
  | generate buffer additional counter => .generate buffer.length additional counter

/-- What a call is answered: the output comes in the buffer. -/
def Call.answer (reply : Bytes × Except Fault Unit) : Call → Bytes × Except Fault Unit
  | reseed .. => reply
  | generate buffer .. => (buffer.overwrite reply.1, reply.2)

def serve? (c : Core) : Call → Option ((Bytes × Except Fault Unit) × Core)
  | .reseed entropy additional => do
    return (([], .ok ()), ← c.reseed? entropy additional)
  | .generate buffer additional counter => do
    let (written, result, next) ← c.generate? buffer additional counter
    return ((written, result), next)

def run? : List Call → Core → Option (List (Bytes × Except Fault Unit) × Core)
  | [], c => some ([], c)
  | call :: rest, c => do
    let (answer, next) ← c.serve? call
    let (answers, last) ← run? rest next
    return (answer :: answers, last)

theorem instantiate?_eq (a : Algorithm) (entropy nonce personalization : Bytes) :
    instantiate? a entropy nonce personalization = some (instantiate a entropy nonce personalization) := by
  cases a with
  | hash d => exact congrArg (Option.map hash) (HashDrbg.instantiate?_eq ..)
  | hmac d => exact congrArg (Option.map hmac) (HmacDrbg.instantiate?_eq ..)
  | ctr size => exact congrArg (Option.map ctr) (CtrDrbg.instantiate?_eq ..)
  | dualEc d c => exact congrArg (Option.map dualEc) (DualEcDrbg.instantiate?_eq ..)

variable {c : Core}

theorem Shaped.reseed?_eq (shaped : c.Shaped) (entropy additional : Bytes) :
    c.reseed? entropy additional = some (c.reseed entropy additional) := by
  cases c with
  | hash s => exact congrArg (Option.map hash) (s.reseed?_eq ..)
  | hmac s => exact congrArg (Option.map hmac) (HmacDrbg.Shaped.update?_eq shaped _)
  | ctr s => exact congrArg (Option.map ctr) (CtrDrbg.Shaped.reseed?_eq shaped ..)
  | dualEc s => exact congrArg (Option.map dualEc) (s.reseed?_eq ..)

theorem Shaped.generate?_eq (shaped : c.Shaped) (buffer additional : Bytes) (counter : ℕ) :
    c.generate? buffer additional counter =
      some (buffer.overwrite (c.generate buffer.length additional counter).1,
        (c.generate buffer.length additional counter).2) := by
  cases c with
  | hash s => rw [generate?, s.generate?_eq]; rfl
  | hmac s => rw [generate?, HmacDrbg.Shaped.generate?_eq shaped]; rfl
  | ctr s => rw [generate?, CtrDrbg.Shaped.generate?_eq shaped]; rfl
  | dualEc s =>
    rw [generate?, DualEcDrbg.Shaped.generate?_eq shaped fun k scalar => scalar.length]
    rfl

/-- A core keeps its algorithm and its shape, also where a task ends with a fault. -/
theorem Shaped.of_serve (shaped : c.Shaped) (task : Task) :
    (c.serve task).2.algorithm = c.algorithm ∧ (c.serve task).2.Shaped := by
  cases task with
  | reseed entropy additional => exact ⟨algorithm_reseed .., shaped_reseed ..⟩
  | generate length additional counter =>
    have ran : c.generate length additional counter = (_, _, _) := rfl
    exact ⟨algorithm_of_generate ran, shaped.of_generate ran⟩

/-- From a state of the right shape a call stays within bounds. -/
theorem Shaped.serve?_eq (shaped : c.Shaped) (call : Call) :
    c.serve? call = some (call.answer (c.serve call.task).1, (c.serve call.task).2) := by
  cases call with
  | reseed entropy additional =>
    simp only [serve?, shaped.reseed?_eq, Option.bind_eq_bind, Option.bind_some]
    rfl
  | generate buffer additional counter =>
    simp only [serve?, shaped.generate?_eq, Option.bind_eq_bind, Option.bind_some]
    rfl

/-- A run keeps algorithm and shape. -/
theorem Shaped.of_run (shaped : c.Shaped) (tasks : List Task) :
    (run tasks c).2.algorithm = c.algorithm ∧ (run tasks c).2.Shaped := by
  induction tasks generalizing c with
  | nil => exact ⟨rfl, shaped⟩
  | cons task rest ih =>
    obtain ⟨same, next⟩ := shaped.of_serve task
    obtain ⟨kept, last⟩ := ih next
    exact ⟨kept.trans same, last⟩

/-- A whole run stays within bounds. -/
theorem Shaped.run?_eq (shaped : c.Shaped) (calls : List Call) :
    run? calls c = some (List.zipWith Call.answer (run (calls.map Call.task) c).1 calls,
      (run (calls.map Call.task) c).2) := by
  induction calls generalizing c with
  | nil => rfl
  | cons call rest ih =>
    simp only [run?, shaped.serve?_eq, Option.bind_eq_bind, Option.bind_some,
      ih (shaped.of_serve call.task).2]
    rfl

/-- No core reaches out of bounds. Whatever an algorithm is seeded with and however it is called from then
on, with buffers of any length, all accesses of the cores and of the derivation functions stay within
bounds, and what comes of the calls is what comes of the same tasks without checks. After every such run,
an empty one included, the working state has the shape of the algorithm. Keys that are as long as a digest
fit into its message block. -/
theorem runs_within_bounds (a : Algorithm) (entropy nonce personalization : Bytes) (calls : List Call) :
    let first := instantiate a entropy nonce personalization
    let (replies, last) := run (calls.map Call.task) first
    instantiate? a entropy nonce personalization = some first ∧
      run? calls first = some (List.zipWith Call.answer replies calls, last) ∧
      last.algorithm = a ∧ last.Shaped ∧ ∀ d : Digest, d.outputLength ≤ d.blockLength := by
  intro first
  have shaped : first.Shaped := shaped_instantiate a entropy nonce personalization
  have same : first.algorithm = a := algorithm_instantiate a entropy nonce personalization
  obtain ⟨kept, last⟩ := shaped.of_run (calls.map Call.task)
  exact ⟨instantiate?_eq a entropy nonce personalization, shaped.run?_eq calls, kept.trans same, last,
    Digest.outputLength_le_blockLength⟩

/-- A state of another shape has no way on. -/
example : serve? (.ctr ⟨.aes128, Bytes.zeros 16, Bytes.zeros 15⟩) (.reseed [1] []) = none := by
  decide +kernel

end Core

end RandomBits
