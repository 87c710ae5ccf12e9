import RandomBits.Entropy.Basic

/-! # Played-back entropy

A provider whose sources all play back the same recording from its start, so that no source
affects another. One fetch of every source may fail, and the provider may refuse to hand out
sources at all.
-/

namespace RandomBits

/-- The blocks that a source yields, in order. -/
inductive Recording
  /-- Blocks that are written out. -/
  | blocks (list : List Bytes)
  /-- Blocks of one length whose bytes count up through all of them. -/
  | counting (blockLength : Nat)

/-- The block at a position, unless the recording has ended. -/
def Recording.block? (position : Nat) : Recording → Option Bytes
  | blocks list => list[position]?
  | counting length =>
    some ((List.range length).map fun j => UInt8.ofNat (position * length + j))

/-- The failure of a source that was told to fail. -/
def stagedFailure : EntropyFailure := .source "mock entropy source failure"

/-- A way for entropy to fail. -/
inductive Malfunction
  | source
  | exhausted
  | insufficient
  | unsupported

/-- The failure of a request for `bits` bits. -/
def Malfunction.failure (bits : Nat) : Malfunction → EntropyFailure
  | source => stagedFailure
  | exhausted => .exhausted
  | insufficient => .insufficient 8 bits
  | unsupported => .unsupported bits

/-- A provider of sources that play back one recording, and what was asked of it. -/
structure Playback where
  recording : Recording
  /-- The number of the fetch of every source that fails, if any; the first fetch has number one. -/
  failOn : Option Nat := none
  /-- How every request for a source fails, if it does. -/
  refusal : Option Malfunction := none
  fetches : Nat := 0
  requested : List Nat := []

/-- A source that has played back a part of its recording. -/
structure Player where
  recording : Recording
  failOn : Option Nat
  position : Nat

namespace Player

def next (p : Player) : Except EntropyFailure Bytes :=
  if p.failOn = some (p.position + 1) then .error stagedFailure
  else match p.recording.block? p.position with
    | some block => .ok block
    | none => .error .exhausted

/-- Fetches a block, also a failing one, and moves on behind it. -/
def fetch (p : Player) (w : Playback) : Except EntropyFailure Bytes × Player × Playback :=
  (p.next, { p with position := p.position + 1 }, { w with fetches := w.fetches + 1 })

end Player

namespace Playback

/-- Hands out a source at the start of the recording. -/
def get (w : Playback) (bits : Nat) : Except EntropyFailure Player × Playback :=
  let asked := { w with requested := w.requested ++ [bits] }
  match w.refusal with
  | some malfunction => (.error (malfunction.failure bits), asked)
  | none => (.ok { recording := w.recording, failOn := w.failOn, position := 0 }, asked)

instance : SeedProvider Playback Player where
  fetch := Player.fetch
  get := get

/-- A recording shares no randomness. -/
instance : Randomness Playback where
  draw w _ := (.error .exhausted, w)

instance : Metered Playback where
  calls w := w.fetches
  requested w := w.requested

end Playback

end RandomBits
