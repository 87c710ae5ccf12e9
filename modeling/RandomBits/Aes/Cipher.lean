import RandomBits.Aes.State

/-! # The AES block cipher

The three key sizes, the key expansion and the encryption of a block. The main statement is that
an encrypted block has the block length.
-/

namespace RandomBits.Aes

/-- The name of the cipher without its key size. -/
def name : String := "AES"

/-- The length of a block in bytes. -/
def blockLength : Nat := 16

def supportsKeyBits : Nat → Bool
  | 128 | 192 | 256 => true
  | _ => false

inductive KeySize
  | aes128
  | aes192
  | aes256
deriving DecidableEq

namespace KeySize

/-- The key size of a number of bits, if there is one. -/
def ofBits? : Nat → Option KeySize
  | 128 => some aes128
  | 192 => some aes192
  | 256 => some aes256
  | _ => none

/-- The name of the cipher with keys of this size. -/
def name : KeySize → String
  | aes128 => "AES-128"
  | aes192 => "AES-192"
  | aes256 => "AES-256"

/-- The number of columns that a key fills. -/
def columns : KeySize → Nat
  | aes128 => 4
  | aes192 => 6
  | aes256 => 8

def rounds : KeySize → Nat
  | aes128 => 10
  | aes192 => 12
  | aes256 => 14

/-- The length of a key in bytes. -/
def keyLength (size : KeySize) : Nat := 4 * size.columns

/-- The length of a key in bits, which is also the security strength. -/
def bits (size : KeySize) : Nat := 8 * size.keyLength

/-- The length in bytes of a key and a block together, which seed CTR_DRBG. -/
def seedLength (size : KeySize) : Nat := size.keyLength + blockLength

private theorem columns_pos (size : KeySize) : 0 < size.columns := by cases size <;> decide

theorem ofBits?_bits (size : KeySize) : ofBits? size.bits = some size := by cases size <;> rfl

end KeySize

/-- What key expansion adds to the column one key length back: the column before, which is rotated,
substituted and marked with a power of `x` once per key length. -/
def expansionTerm (size : KeySize) (n : Nat) (previous : Column) : Column :=
  if n % size.columns = 0 then
    let power := Nat.repeat double (n / size.columns - 1) 1
    (previous.rotate.map substitute).xor ⟨power, 0, 0, 0⟩
  else if 6 < size.columns ∧ n % size.columns = 4 then previous.map substitute
  else previous

def expandedColumns (size : KeySize) (key : Bytes) : (n : Nat) → Vector Column n
  | 0 => #v[]
  | n + 1 =>
    let earlier := expandedColumns size key n
    earlier.push <|
      if h : n < size.columns then .ofBytes key (4 * n)
      else
        have := size.columns_pos
        earlier[n - size.columns].xor (expansionTerm size n earlier[n - 1])

/-- The round keys of an expanded key: one before the rounds, one for each inner round, and one for
the last round. -/
structure RoundKeys where
  first : State
  inner : List State
  last : State

def RoundKeys.ofKey (size : KeySize) (key : Bytes) : RoundKeys :=
  let columns := expandedColumns size key (4 * (size.rounds + 1))
  let roundKey (r : Fin (size.rounds + 1)) : State :=
    ⟨columns[4 * r.val], columns[4 * r.val + 1], columns[4 * r.val + 2], columns[4 * r.val + 3]⟩
  { first := roundKey 0
    inner := (List.finRange (size.rounds - 1)).map fun r => roundKey ⟨r.val + 1, by omega⟩
    last := roundKey (Fin.last size.rounds) }

def RoundKeys.encryptState (keys : RoundKeys) (s : State) : State :=
  (keys.inner.foldl State.round (s.xor keys.first)).lastRound keys.last

def RoundKeys.encrypt (keys : RoundKeys) (block : Bytes) : Bytes :=
  (keys.encryptState (.ofBytes block)).toBytes

@[simp] theorem RoundKeys.length_encrypt (keys : RoundKeys) (block : Bytes) :
    (keys.encrypt block).length = blockLength := rfl

end RandomBits.Aes
