import RandomBits.Bytes.Basic
import RandomBits.Digest.Word

/-! # The SHA-2 compression chain

A message is padded to whole blocks of sixteen words. Each block is expanded to a schedule of one
word per round and folded into eight chaining registers.
-/

namespace RandomBits.Sha2

variable {α : Type} [Word α]

/-- The eight chaining registers. -/
structure Registers (α : Type) where
  a : α
  b : α
  c : α
  d : α
  e : α
  f : α
  g : α
  h : α

namespace Registers

@[specialize] def map {β : Type} (f : α → β) (r : Registers α) : Registers β :=
  ⟨f r.a, f r.b, f r.c, f r.d, f r.e, f r.f, f r.g, f r.h⟩

@[specialize] def add (r s : Registers α) : Registers α :=
  ⟨r.a + s.a, r.b + s.b, r.c + s.c, r.d + s.d, r.e + s.e, r.f + s.f, r.g + s.g, r.h + s.h⟩

def toList (r : Registers α) : List α := [r.a, r.b, r.c, r.d, r.e, r.f, r.g, r.h]

/-- The registers written as bytes, each word with its most significant byte first. -/
def toBytes (r : Registers α) : Bytes :=
  r.toList.flatMap fun word => Bytes.ofNat (Word.size α) (Word.toNat word)

/-- One round with the round constant `k` and the schedule word `w`. -/
@[specialize] def round (r : Registers α) (k w : α) : Registers α :=
  let choice := (r.e &&& r.f) ^^^ (~~~r.e &&& r.g)
  let majority := (r.a &&& r.b) ^^^ (r.a &&& r.c) ^^^ (r.b &&& r.c)
  let first := r.h + Word.bigSigma1 r.e + choice + k + w
  let second := Word.bigSigma0 r.a + majority
  ⟨first + second, r.a, r.b, r.c, r.d + first, r.e, r.f, r.g⟩

end Registers

/-- The first `n` words of the schedule: those of the block, then each from four earlier ones. -/
@[specialize] def schedule (block : Vector α 16) : (n : Nat) → Vector α n
  | 0 => #v[]
  | n + 1 =>
    let earlier := schedule block n
    earlier.push <|
      if h : n < 16 then block[n]
      else Word.smallSigma1 earlier[n - 2] + earlier[n - 7] + Word.smallSigma0 earlier[n - 15]
        + earlier[n - 16]

/-- Folds one block into the registers. -/
@[specialize] def compress (r : Registers α) (block : Vector α 16) : Registers α :=
  let words := schedule block (Word.rounds α)
  r.add (Fin.foldl (Word.rounds α) (fun s t => s.round (Word.constants (α := α))[t] words[t]) r)

/-- The sixteen words of a block of bytes. -/
@[specialize] def blockWords (block : Bytes) : Vector α 16 :=
  Vector.ofFn fun i =>
    Word.ofNat (Bytes.toNat ((block.drop (i.val * Word.size α)).take (Word.size α)))

/-- `message` followed by a one bit, the fewest zero bits that complete a block, and its length
in bits as a double word. -/
def pad (wordSize : Nat) (message : Bytes) : Bytes :=
  let block := 16 * wordSize
  let framed := message.length + 1 + 2 * wordSize
  message ++ 0x80 :: Bytes.zeros (blocksFor framed block * block - framed)
    ++ Bytes.ofNat (2 * wordSize) (8 * message.length)

/-- The registers that a whole message leads to. -/
@[specialize] def digest (initial : Registers α) (message : Bytes) : Registers α :=
  (Bytes.chunks (16 * Word.size α) (pad (Word.size α) message)).foldl
    (fun r block => compress r (blockWords block)) initial

theorem Registers.length_toBytes (r : Registers α) : r.toBytes.length = 8 * Word.size α := by
  simp [Registers.toBytes, Registers.toList]
  omega

end RandomBits.Sha2
