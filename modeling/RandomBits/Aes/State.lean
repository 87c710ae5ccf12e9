import RandomBits.Aes.Field
import RandomBits.Bytes.Basic

/-! # The cipher state and its layers

The sixteen bytes of a block fill a square of four columns. A round of the cipher substitutes the
bytes, rotates the rows, mixes each column and adds a round key.
-/

namespace RandomBits.Aes

/-- A column of four bytes. -/
structure Column where
  b0 : UInt8
  b1 : UInt8
  b2 : UInt8
  b3 : UInt8
deriving DecidableEq

namespace Column

@[inline] def map (f : UInt8 → UInt8) (w : Column) : Column := ⟨f w.b0, f w.b1, f w.b2, f w.b3⟩

def xor (w v : Column) : Column := ⟨w.b0 ^^^ v.b0, w.b1 ^^^ v.b1, w.b2 ^^^ v.b2, w.b3 ^^^ v.b3⟩

/-- Moves every byte up by one place, and the first one to the end. -/
def rotate (w : Column) : Column := ⟨w.b1, w.b2, w.b3, w.b0⟩

/-- The bytes of `b` from `start` on, with zero bytes past its end. -/
def ofBytes (b : Bytes) (start : Nat) : Column :=
  ⟨b.getD start 0, b.getD (start + 1) 0, b.getD (start + 2) 0, b.getD (start + 3) 0⟩

/-- The bytes from top to bottom. -/
def toBytes (w : Column) : Bytes := [w.b0, w.b1, w.b2, w.b3]

/-- The product with `3 x ^ 3 + x ^ 2 + x + 2` modulo `x ^ 4 + 1`. -/
def mix (w : Column) : Column :=
  let triple (a : UInt8) : UInt8 := double a ^^^ a
  ⟨double w.b0 ^^^ triple w.b1 ^^^ w.b2 ^^^ w.b3,
    w.b0 ^^^ double w.b1 ^^^ triple w.b2 ^^^ w.b3,
    w.b0 ^^^ w.b1 ^^^ double w.b2 ^^^ triple w.b3,
    triple w.b0 ^^^ w.b1 ^^^ w.b2 ^^^ double w.b3⟩

end Column

/-- A square of four columns. -/
structure State where
  c0 : Column
  c1 : Column
  c2 : Column
  c3 : Column
deriving DecidableEq

namespace State

@[inline] def map (f : Column → Column) (s : State) : State := ⟨f s.c0, f s.c1, f s.c2, f s.c3⟩

def xor (s t : State) : State := ⟨s.c0.xor t.c0, s.c1.xor t.c1, s.c2.xor t.c2, s.c3.xor t.c3⟩

/-- The square that a block fills column by column. -/
def ofBytes (b : Bytes) : State :=
  ⟨.ofBytes b 0, .ofBytes b 4, .ofBytes b 8, .ofBytes b 12⟩

/-- The block that fills the square. -/
def toBytes (s : State) : Bytes :=
  s.c0.toBytes ++ s.c1.toBytes ++ s.c2.toBytes ++ s.c3.toBytes

def substituteBytes (s : State) : State := s.map (Column.map substitute)

/-- Rotates each row to the left by the number of its place. -/
def shiftRows (s : State) : State :=
  ⟨⟨s.c0.b0, s.c1.b1, s.c2.b2, s.c3.b3⟩, ⟨s.c1.b0, s.c2.b1, s.c3.b2, s.c0.b3⟩,
    ⟨s.c2.b0, s.c3.b1, s.c0.b2, s.c1.b3⟩, ⟨s.c3.b0, s.c0.b1, s.c1.b2, s.c2.b3⟩⟩

def mixColumns (s : State) : State := s.map Column.mix

def round (s key : State) : State := (s.substituteBytes.shiftRows.mixColumns).xor key

/-- The last round of the cipher, which leaves the columns unmixed. -/
def lastRound (s key : State) : State := (s.substituteBytes.shiftRows).xor key

@[simp] theorem length_toBytes (s : State) : s.toBytes.length = 16 := rfl

end State

end RandomBits.Aes
