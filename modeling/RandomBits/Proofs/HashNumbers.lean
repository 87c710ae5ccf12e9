import Mathlib
import RandomBits.Proofs.WorkingStates

/-! # Hash_DRBG on numbers

The standard describes Hash_DRBG by two numbers of the bits of a seed, which are added up and counted
on modulo a power of two (`HashDrbg.Numbers`). Main statement: the working states that can be reached
move as these numbers do, and put out what these numbers are hashed to
(`HashDrbg.computes_on_numbers`).
-/

namespace RandomBits.HashDrbg

/-- The working state of the standard: a value and a constant of as many bits as a seed. -/
structure Numbers where
  v : ℕ
  c : ℕ

/-- The numbers that the byte strings of a working state stand for. -/
def numbers (s : HashDrbg) : Numbers := ⟨s.v.toNat, s.c.toNat⟩

namespace Numbers

variable (d : Digest)

/-- A number as a string of as many bits as a seed. -/
def bits (n : ℕ) : Bytes := Bytes.ofNat d.seedLength n

def hashed (message : Bytes) : ℕ := (d.hash [message]).toNat

/-- The state that seed material leads to. The constant is derived from the value. -/
def ofMaterial (material : Bytes) : Numbers :=
  let v := d.derived d.seedBits material
  { v, c := d.derived d.seedBits ([0x00] ++ bits d v) }

def instantiate (entropy nonce personalization : Bytes) : Numbers :=
  ofMaterial d (entropy ++ nonce ++ personalization)

def reseed (t : Numbers) (entropy additional : Bytes) : Numbers :=
  ofMaterial d ([0x01] ++ bits d t.v ++ entropy ++ additional)

def start (t : Numbers) (additional : Bytes) : ℕ :=
  if additional = [] then t.v
  else (t.v + hashed d ([0x02] ++ bits d t.v ++ additional)) % 2 ^ d.seedBits

def output (w length : ℕ) : Bytes :=
  leading d.outputLength length fun i => d.hash [bits d ((w + i) % 2 ^ d.seedBits)]

/-- The state after output that started from the number `w`. -/
def next (t : Numbers) (w counter : ℕ) : Numbers :=
  { t with v := (w + hashed d ([0x03] ++ bits d w) + t.c + counter) % 2 ^ d.seedBits }

variable {d}

private theorem pow_seedLength (d : Digest) : 256 ^ d.seedLength = 2 ^ d.seedBits := by
  rw [Bytes.pow_256, d.eight_mul_seedLength]

private theorem bits_mod (n : ℕ) : bits d (n % 2 ^ d.seedBits) = bits d n := by
  rw [bits, ← pow_seedLength, Bytes.ofNat_mod, bits]

private theorem bits_toNat {b : Bytes} (length : b.length = d.seedLength) : bits d b.toNat = b := by
  rw [bits, ← length, Bytes.ofNat_toNat]

private theorem toNat_bits (n : ℕ) : (bits d n).toNat = n % 2 ^ d.seedBits := by
  rw [bits, Bytes.toNat_ofNat, pow_seedLength]

/-- Successive increments of a number are hashed to the blocks of output. -/
theorem emitBytes_outputStep (w length : ℕ) :
    (emitBytes (outputStep d) d.outputLength length (bits d w)).1 = output d w length := by
  have moves (i : ℕ) : (outputStep d (bits d (w + i))).2 = bits d (w + (i + 1)) :=
    Bytes.increment_ofNat ..
  have emitted := emitBytes_of_states moves d.outputLength length
  rw [Nat.add_zero] at emitted
  simp only [emitted, output, bits_mod, outputStep]

/-- A derived value and its constant are a state of the standard. -/
theorem numbers_ofValue (parts : List Bytes) :
    (ofValue d (d.hashDf parts d.seedBits)).numbers = ofMaterial d parts.flatten := by
  have length := (d.length_hashDf parts d.seedBits).trans d.blocksFor_seedBits
  have value := d.toNat_hashDf parts d.seedBits
  have message : [[0x00], d.hashDf parts d.seedBits].flatten =
      [0x00] ++ bits d (d.derived d.seedBits parts.flatten) := by
    rw [← value, bits_toNat length]
    simp
  simp only [numbers, ofValue, ofMaterial, value, Digest.toNat_hashDf, message]

end Numbers

namespace Shaped

variable {s : HashDrbg}

theorem bits_v (shaped : s.Shaped) : Numbers.bits s.digest s.numbers.v = s.v :=
  Numbers.bits_toNat shaped.v

theorem bits_c (shaped : s.Shaped) : Numbers.bits s.digest s.numbers.c = s.c :=
  Numbers.bits_toNat shaped.c

theorem numbers_reseed (shaped : s.Shaped) (entropy additional : Bytes) :
    (s.reseed entropy additional).numbers = s.numbers.reseed s.digest entropy additional := by
  rw [HashDrbg.reseed, Numbers.numbers_ofValue, Numbers.reseed, shaped.bits_v]
  simp

/-- The value that output starts from is that of the standard. -/
theorem startValue_eq (shaped : s.Shaped) (additional : Bytes) :
    s.startValue additional = Numbers.bits s.digest (s.numbers.start s.digest additional) := by
  simp only [startValue, Numbers.start, List.isEmpty_iff]
  split
  next => exact shaped.bits_v.symm
  next =>
    have message : s.digest.hash [[0x02], s.v, additional] =
        s.digest.hash [[0x02] ++ Numbers.bits s.digest s.numbers.v ++ additional] := by
      rw [shaped.bits_v]
      exact s.digest.hash_congr (by simp)
    rw [message]
    apply Bytes.eq_of_toNat_eq
    · rw [Bytes.length_add, shaped.v, Numbers.bits, Bytes.length_ofNat]
    · rw [Bytes.toNat_add, shaped.v, Numbers.toNat_bits, Nat.mod_mod, Numbers.pow_seedLength]
      rfl

theorem output_eq (shaped : s.Shaped) (length : ℕ) (additional : Bytes) (counter : ℕ) :
    (s.generate length additional counter).1 =
      Numbers.output s.digest (s.numbers.start s.digest additional) length := by
  rw [← Numbers.emitBytes_outputStep, ← shaped.startValue_eq]
  rfl

/-- The sums byte by byte, of operands of three lengths, are one sum of numbers. -/
theorem numbers_generate (shaped : s.Shaped) (length : ℕ) (additional : Bytes) {counter : ℕ}
    (word : counter < 2 ^ 64) :
    (s.generate length additional counter).2.numbers =
      s.numbers.next s.digest (s.numbers.start s.digest additional) counter := by
  have written : (Bytes.ofNat 8 counter).toNat = counter := by
    rw [Bytes.toNat_ofNat]
    exact Nat.mod_eq_of_lt word
  have start : (s.startValue additional).toNat =
      s.numbers.start s.digest additional % 2 ^ s.digest.seedBits := by
    rw [shaped.startValue_eq, Numbers.toNat_bits]
  have message : s.digest.hash [[0x03], s.startValue additional] = s.digest.hash
      [[0x03] ++ Numbers.bits s.digest (s.numbers.start s.digest additional)] := by
    rw [shaped.startValue_eq]
    exact s.digest.hash_congr (by simp)
  simp only [numbers, HashDrbg.generate, Numbers.next, Numbers.mk.injEq, and_true]
  simp only [Bytes.toNat_add, Bytes.length_add, length_startValue, shaped.v, Numbers.pow_seedLength,
    written, message, start, Numbers.hashed, Nat.mod_add_mod]
  rfl

end Shaped

/-- A working state of the digest `d` that stands for two numbers and moves as they do. -/
structure MovesAsNumbers (s : HashDrbg) (d : Digest) : Prop where
  digest : s.digest = d
  /-- There is nothing in the state but its numbers, which have the bits of a seed. -/
  stands : s.v = Numbers.bits d s.numbers.v ∧ s.c = Numbers.bits d s.numbers.c
  below : s.numbers.v < 2 ^ d.seedBits ∧ s.numbers.c < 2 ^ d.seedBits
  reseed (entropy additional : Bytes) :
    (s.reseed entropy additional).numbers = s.numbers.reseed d entropy additional
  output (length : ℕ) (additional : Bytes) (counter : UInt64) :
    (s.generate length additional counter.toNat).1 =
      Numbers.output d (s.numbers.start d additional) length
  next (length : ℕ) (additional : Bytes) (counter : UInt64) :
    (s.generate length additional counter.toNat).2.numbers =
      s.numbers.next d (s.numbers.start d additional) counter.toNat

/-- Numbers of whole bytes have as many bits as a seed. -/
theorem Shaped.below {s : HashDrbg} (shaped : s.Shaped) :
    s.numbers.v < 2 ^ s.digest.seedBits ∧ s.numbers.c < 2 ^ s.digest.seedBits := by
  rw [← Numbers.pow_seedLength]
  exact ⟨shaped.v ▸ s.v.toNat_lt, shaped.c ▸ s.c.toNat_lt⟩

/-- Hash_DRBG is seeded, reseeded and asked for output as the standard has it on numbers. -/
theorem computes_on_numbers (d : Digest) :
    (∀ entropy nonce personalization : Bytes,
      (instantiate d entropy nonce personalization).numbers =
        Numbers.instantiate d entropy nonce personalization) ∧
    ∀ s : HashDrbg, Core.Reachable (.hash d) (.hash s) → s.MovesAsNumbers d := by
  constructor
  · intro entropy nonce personalization
    rw [instantiate, Numbers.numbers_ofValue, Numbers.instantiate]
    simp
  · intro s reached
    have shaped : s.Shaped := reached.shaped
    obtain rfl : s.digest = d := Algorithm.hash.inj reached.algorithm
    exact
      { digest := rfl
        stands := ⟨shaped.bits_v.symm, shaped.bits_c.symm⟩
        below := shaped.below
        reseed := shaped.numbers_reseed
        output := fun length additional counter => shaped.output_eq length additional counter.toNat
        next := fun length additional counter =>
          shaped.numbers_generate length additional counter.toNat_lt }

/-- So it is after a request with additional input that ended within its third block. -/
theorem computes_on_numbers_after_request :
    let first := instantiate .sha384 (Bytes.zeros 48) [1] []
    let s := (first.generate 100 [2] 1).2
    Core.Reachable (.hash .sha384) (.hash s) ∧ s.MovesAsNumbers .sha384 := by
  intro first s
  have seeded : Core.Reachable (.hash .sha384) (.hash first) := .instantiated (Bytes.zeros 48) [1] []
  have served : (Core.hash first).generate 100 [2] 1 =
      ((first.generate 100 [2] 1).1, .ok (), .hash s) := rfl
  have reached : Core.Reachable (.hash .sha384) (.hash s) := .generated seeded served
  exact ⟨reached, (computes_on_numbers .sha384).2 s reached⟩

end RandomBits.HashDrbg
