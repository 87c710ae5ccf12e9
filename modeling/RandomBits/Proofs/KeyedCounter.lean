import Mathlib
import RandomBits.Proofs.WorkingStates

/-! # CTR_DRBG on numbers

The standard describes CTR_DRBG by a key and a number of 128 bits that is counted on and encrypted
(`CtrDrbg.KeyedCounter`). Main statement: the working states that can be reached move as such a
counter does, and put out what it is encrypted to (`CtrDrbg.counts_on_numbers`).
-/

namespace RandomBits.CtrDrbg

open Aes (KeySize)

/-- The working state of the standard: a key, and a counter of the bits of a block. -/
structure KeyedCounter where
  key : Bytes
  v : ℕ

/-- The key of a working state with the number that its counter block stands for. -/
def keyedCounter (s : CtrDrbg) : KeyedCounter := ⟨s.key, s.v.toNat⟩

namespace KeyedCounter

variable (size : KeySize)

/-- The encryption of the block that stands for a number, modulo the numbers of a block. -/
def encrypted (key : Bytes) (n : ℕ) : Bytes :=
  (Aes.RoundKeys.ofKey size key).encrypt (Bytes.ofNat Aes.blockLength (n % 2 ^ 128))

/-- The leftmost bytes of the encryptions of the numbers that follow the counter. -/
def keyStream (t : KeyedCounter) (length : ℕ) : Bytes :=
  leading Aes.blockLength length fun i => encrypted size t.key (t.v + (i + 1))

/-- The state after data of the seed length has been mixed in: its front is the key, and its last
block the counter. -/
def update (t : KeyedCounter) (data : Bytes) : KeyedCounter :=
  let mixed := (t.keyStream size size.seedLength).xor data
  { key := mixed.take size.keyLength, v := Bytes.toNat (mixed.rtake Aes.blockLength) }

def derived (message : Bytes) : Bytes := Aes.blockCipherDf size [message]

def instantiate (entropy nonce personalization : Bytes) : KeyedCounter :=
  update size { key := Bytes.zeros size.keyLength, v := 0 }
    (derived size (entropy ++ nonce ++ personalization))

def reseed (t : KeyedCounter) (entropy additional : Bytes) : KeyedCounter :=
  t.update size (derived size (entropy ++ additional))

/-- The seed that additional input stands for: zeros if there is none. -/
def provided (additional : Bytes) : Bytes :=
  if additional = [] then Bytes.zeros size.seedLength else derived size additional

def start (t : KeyedCounter) (additional : Bytes) : KeyedCounter :=
  if additional = [] then t else t.update size (derived size additional)

/-- The state after `count` blocks of output and the closing update. -/
def next (t : KeyedCounter) (count : ℕ) (additional : Bytes) : KeyedCounter :=
  update size { t with v := (t.v + count) % 2 ^ 128 } (provided size additional)

variable {size}

private theorem pow_blockLength : 256 ^ Aes.blockLength = 2 ^ 128 := by
  rw [Bytes.pow_256]
  rfl

private theorem encrypted_eq (key : Bytes) (n : ℕ) : encrypted size key n =
    (Aes.RoundKeys.ofKey size key).encrypt (Bytes.ofNat Aes.blockLength n) := by
  rw [encrypted, ← pow_blockLength, Bytes.ofNat_mod]

end KeyedCounter

/-- The counter block holds its number. -/
theorem Shaped.ofNat_v {s : CtrDrbg} (shaped : s.Shaped) :
    Bytes.ofNat Aes.blockLength s.keyedCounter.v = s.v := by
  rw [keyedCounter, ← shaped.v, Bytes.ofNat_toNat]

/-- A step counts on and encrypts the number it comes to. -/
private theorem outputStep_ofNat (keys : Aes.RoundKeys) (n : ℕ) :
    outputStep keys (Bytes.ofNat Aes.blockLength n) =
      (keys.encrypt (Bytes.ofNat Aes.blockLength (n + 1)),
        Bytes.ofNat Aes.blockLength (n + 1)) := by
  rw [outputStep, Bytes.increment_ofNat]

/-- Key stream encrypts the numbers that follow the counter, and leaves the last of them. -/
theorem Shaped.keyStream_eq {s : CtrDrbg} (shaped : s.Shaped) (length : ℕ) :
    s.keyStream length = (s.keyedCounter.keyStream s.size length,
      Bytes.ofNat Aes.blockLength (s.keyedCounter.v + blocksFor length Aes.blockLength)) := by
  let keys := Aes.RoundKeys.ofKey s.size s.key
  have moves (i : ℕ) : (outputStep keys
      (Bytes.ofNat Aes.blockLength (s.keyedCounter.v + i))).2 =
        Bytes.ofNat Aes.blockLength (s.keyedCounter.v + (i + 1)) := by
    rw [outputStep_ofNat, Nat.add_assoc]
  have emitted := emitBytes_of_states moves Aes.blockLength length
  simp only [Nat.add_zero, shaped.ofNat_v, outputStep_ofNat] at emitted
  simp only [keyStream, KeyedCounter.keyStream, KeyedCounter.encrypted_eq]
  exact emitted

/-- Data of the seed length is cut into a key and a counter block. -/
theorem Shaped.keyedCounter_update {s : CtrDrbg} (shaped : s.Shaped) {data : Bytes}
    (whole : data.length = s.size.seedLength) :
    (s.update data).keyedCounter = s.keyedCounter.update s.size data := by
  have long : ((s.keyStream s.size.seedLength).1.xor data).length - Aes.blockLength =
      s.size.keyLength := by
    simp [whole, KeySize.seedLength]
  have front : s.keyedCounter.keyStream s.size s.size.seedLength =
      (s.keyStream s.size.seedLength).1 := by
    rw [shaped.keyStream_eq]
  rw [KeyedCounter.update, front, List.rtake, long]
  rfl

theorem Shaped.keyedCounter_reseed {s : CtrDrbg} (shaped : s.Shaped) (entropy additional : Bytes) :
    (s.reseed entropy additional).keyedCounter = s.keyedCounter.reseed s.size entropy additional := by
  rw [reseed, shaped.keyedCounter_update (Aes.length_blockCipherDf ..), KeyedCounter.reseed,
    KeyedCounter.derived, ← Aes.blockCipherDf_flatten]
  simp

def start (s : CtrDrbg) (additional : Bytes) : CtrDrbg :=
  if additional.isEmpty then s else s.update (s.derivedInput additional)

theorem size_start (s : CtrDrbg) (additional : Bytes) : (s.start additional).size = s.size := by
  unfold start
  split <;> rfl

private theorem derivedInput_eq (s : CtrDrbg) (additional : Bytes) :
    s.derivedInput additional = KeyedCounter.provided s.size additional := by
  simp only [derivedInput, KeyedCounter.provided, List.isEmpty_iff]
  rfl

theorem Shaped.start {s : CtrDrbg} (shaped : s.Shaped) (additional : Bytes) :
    (s.start additional).Shaped := by
  unfold CtrDrbg.start
  split
  · exact shaped
  · exact s.shaped_update (s.length_derivedInput additional)

theorem Shaped.keyedCounter_start {s : CtrDrbg} (shaped : s.Shaped) (additional : Bytes) :
    (s.start additional).keyedCounter = s.keyedCounter.start s.size additional := by
  simp only [CtrDrbg.start, KeyedCounter.start, List.isEmpty_iff]
  split
  next => rfl
  next given =>
    rw [shaped.keyedCounter_update (s.length_derivedInput additional), derivedInput_eq,
      KeyedCounter.provided, if_neg given]

theorem Shaped.output_eq {s : CtrDrbg} (shaped : s.Shaped) (length : ℕ) (additional : Bytes) :
    (s.generate length additional).1 =
      (s.keyedCounter.start s.size additional).keyStream s.size length := by
  change ((s.start additional).keyStream length).1 = _
  rw [(shaped.start additional).keyStream_eq, shaped.keyedCounter_start, size_start]

/-- The closing update goes on with the counter where output left it. -/
theorem Shaped.keyedCounter_generate {s : CtrDrbg} (shaped : s.Shaped) (length : ℕ)
    (additional : Bytes) :
    (s.generate length additional).2.keyedCounter =
      (s.keyedCounter.start s.size additional).next s.size (blocksFor length Aes.blockLength)
        additional := by
  have start := shaped.start additional
  let last : CtrDrbg := { s.start additional with v := ((s.start additional).keyStream length).2 }
  have shape : last.Shaped :=
    { key := start.key
      v := (length_counter_keyStream ..).trans start.v }
  -- The bytes of the counter have wrapped around where the number is reduced.
  have counter : last.keyedCounter = { s.keyedCounter.start s.size additional with
      v := ((s.keyedCounter.start s.size additional).v + blocksFor length Aes.blockLength) %
        2 ^ 128 } := by
    rw [← shaped.keyedCounter_start, ← KeyedCounter.pow_blockLength, ← Bytes.toNat_ofNat]
    simp only [last, start.keyStream_eq, keyedCounter]
  change (last.update (s.derivedInput additional)).keyedCounter = _
  have size : last.size = s.size := s.size_start additional
  rw [shape.keyedCounter_update ((s.length_derivedInput additional).trans (by rw [size])), counter,
    derivedInput_eq, size, KeyedCounter.next]

/-- A working state of keys of `size` that stands for a key and a counter and moves as they do. -/
structure MovesAsCounter (s : CtrDrbg) (size : KeySize) : Prop where
  sameSize : s.size = size
  /-- There is nothing in the state but a whole key and the number of a block. -/
  stands : s.key.length = size.keyLength ∧ s.v = Bytes.ofNat Aes.blockLength s.keyedCounter.v
  below : s.keyedCounter.v < 2 ^ 128
  update {data : Bytes} (whole : data.length = size.seedLength) :
    (s.update data).keyedCounter = s.keyedCounter.update size data
  reseed (entropy additional : Bytes) :
    (s.reseed entropy additional).keyedCounter = s.keyedCounter.reseed size entropy additional
  output (length : ℕ) (additional : Bytes) :
    (s.generate length additional).1 =
      (s.keyedCounter.start size additional).keyStream size length
  next (length : ℕ) (additional : Bytes) :
    (s.generate length additional).2.keyedCounter =
      (s.keyedCounter.start size additional).next size (blocksFor length Aes.blockLength) additional

/-- CTR_DRBG is seeded, reseeded and asked for output as the standard has it on numbers. -/
theorem counts_on_numbers (size : KeySize) :
    (∀ entropy nonce personalization : Bytes,
      (instantiate size entropy nonce personalization).keyedCounter =
        KeyedCounter.instantiate size entropy nonce personalization) ∧
    ∀ s : CtrDrbg, Core.Reachable (.ctr size) (.ctr s) → s.MovesAsCounter size := by
  constructor
  · intro entropy nonce personalization
    let blank : CtrDrbg :=
      { size, key := Bytes.zeros size.keyLength, v := Bytes.zeros Aes.blockLength }
    have shaped : blank.Shaped := ⟨Bytes.length_zeros _, Bytes.length_zeros _⟩
    have zero : blank.keyedCounter = { key := Bytes.zeros size.keyLength, v := 0 } := by
      simp [keyedCounter, blank]
    change (blank.update _).keyedCounter = _
    rw [shaped.keyedCounter_update (Aes.length_blockCipherDf ..), zero, KeyedCounter.instantiate,
      KeyedCounter.derived, ← Aes.blockCipherDf_flatten]
    simp [blank]
  · intro s reached
    have shaped : s.Shaped := reached.shaped
    obtain rfl : s.size = size := Algorithm.ctr.inj reached.algorithm
    exact
      { sameSize := rfl
        stands := ⟨shaped.key, shaped.ofNat_v.symm⟩
        below := by
          rw [← KeyedCounter.pow_blockLength, ← shaped.v]
          exact s.v.toNat_lt
        update := shaped.keyedCounter_update
        reseed := shaped.keyedCounter_reseed
        output := shaped.output_eq
        next := shaped.keyedCounter_generate }

/-- So it is with AES-192, whose seed ends within a block, after a reseed and a request. -/
theorem counts_on_numbers_after_reseed :
    let first := (instantiate .aes192 (Bytes.zeros 24) [1] []).reseed (Bytes.zeros 24) [2]
    let s := (first.generate 40 [3]).2
    Core.Reachable (.ctr .aes192) (.ctr s) ∧ s.MovesAsCounter .aes192 := by
  intro first s
  have seeded : Core.Reachable (.ctr .aes192) (.ctr first) :=
    .reseeded (.instantiated (Bytes.zeros 24) [1] []) (Bytes.zeros 24) [2]
  have served : (Core.ctr first).generate 40 [3] 1 =
      ((first.generate 40 [3]).1, .ok (), .ctr s) := rfl
  have reached : Core.Reachable (.ctr .aes192) (.ctr s) := .generated seeded served
  exact ⟨reached, (counts_on_numbers .aes192).2 s reached⟩

end RandomBits.CtrDrbg
