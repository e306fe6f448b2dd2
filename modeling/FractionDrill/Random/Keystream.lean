import FractionDrill.Random.Source

/-!
# A keystream as a source of words

The words are those of the stream cipher with 256-bit key, twelve rounds and a
64-bit block counter that starts at zero. Each block gives sixteen words of 32
bits; a word of 64 bits takes two of them, the low half first. A key is taken as
it is, or derived from a 64-bit seed by a permuted congruential generator, one
key word for each of its steps.
-/
namespace FractionDrill

abbrev Block := Vector UInt32 16

abbrev Key := Vector UInt32 8

namespace Block

def rotateLeft (x n : UInt32) : UInt32 := (x <<< n) ||| (x >>> (32 - n))

/-- Mixes four words of a block in place. -/
def quarterRound (b : Block) (i j k l : Fin 16) : Block :=
  let b := b.set i (b[i] + b[j])
  let b := b.set l (rotateLeft (b[l] ^^^ b[i]) 16)
  let b := b.set k (b[k] + b[l])
  let b := b.set j (rotateLeft (b[j] ^^^ b[k]) 12)
  let b := b.set i (b[i] + b[j])
  let b := b.set l (rotateLeft (b[l] ^^^ b[i]) 8)
  let b := b.set k (b[k] + b[l])
  b.set j (rotateLeft (b[j] ^^^ b[k]) 7)

/-- Mixes the four columns and then the four diagonals. -/
def doubleRound (b : Block) : Block :=
  let b := b.quarterRound 0 4 8 12
  let b := b.quarterRound 1 5 9 13
  let b := b.quarterRound 2 6 10 14
  let b := b.quarterRound 3 7 11 15
  let b := b.quarterRound 0 5 10 15
  let b := b.quarterRound 1 6 11 12
  let b := b.quarterRound 2 7 8 13
  b.quarterRound 3 4 9 14

/-- Twelve rounds, after which the initial block is added word by word. -/
def scramble (b : Block) : Block := Vector.zipWith (· + ·) (Nat.repeat doubleRound 6 b) b

/-- The constant words, the key, the counter with its low half first, and two zero words. -/
def initial (key : Key) (counter : UInt64) : Block :=
  (#v[0x61707865, 0x3320646e, 0x79622d32, 0x6b206574] : Vector UInt32 4) ++ key ++
    (#v[counter.toUInt32, (counter >>> 32).toUInt32, 0, 0] : Vector UInt32 4)

/-- Pairs of words as words of twice the width, the low half first. -/
def pairUp : List UInt32 → List UInt64
  | low :: high :: rest => (low.toUInt64 ||| (high.toUInt64 <<< 32)) :: pairUp rest
  | _ => []

end Block

/-- A keystream and the words of its current block that are not yet taken. -/
structure Keystream where
  key : Key
  counter : UInt64 := 0
  pending : List UInt64 := []

namespace Key

/-- The key whose words are these bytes, four for each word and the lowest first. -/
def ofBytes (bytes : ByteArray) : Key :=
  Vector.ofFn fun i => (List.range 4).foldr
    (fun k word => word <<< 8 ||| (bytes.data.getD (4 * i.val + k) 0).toUInt32) 0

end Key

namespace Keystream

def ofKey (key : Key) : Keystream := { key }

def advanceSeed (state : UInt64) : UInt64 := state * 6364136223846793005 + 11634580027462260723

/-- The key word of a generator state: some of its bits, rotated right by its top bits. -/
def keyWord (state : UInt64) : UInt32 :=
  let x := (((state >>> 18) ^^^ state) >>> 27).toUInt32
  let n := (state >>> 59).toUInt32
  (x >>> n) ||| (x <<< (32 - n))

def ofSeed (seed : UInt64) : Keystream :=
  ofKey (Vector.ofFn fun i => keyWord (Nat.repeat advanceSeed (i.val + 1) seed))

def next (s : Keystream) : UInt64 × Keystream :=
  match s.pending with
  | w :: rest => (w, { s with pending := rest })
  | [] =>
      match Block.pairUp (Block.initial s.key s.counter).scramble.toList with
      | w :: rest => (w, { s with counter := s.counter + 1, pending := rest })
      | [] => (0, s)

instance : WordSource Keystream := ⟨next⟩

end Keystream
end FractionDrill
