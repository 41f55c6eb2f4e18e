/-! # The stream of random words

The words are the key stream of ChaCha with eight rounds, for the stream
number zero and the block numbers from zero on. The key comes from the seed
through a permuted congruential generator.
-/

namespace Tabletop.Keystream

/-- The sixteen words of a block. -/
abbrev Block := Vector UInt32 16

/-- A word turned left by some bits. -/
def rotateLeft (x : UInt32) (bits : UInt32) : UInt32 :=
  (x <<< bits) ||| (x >>> (32 - bits))

/-- Stirs four words of a block. -/
def quarterRound (s : Block) (a b c d : Fin 16) : Block :=
  let s := s.set a (s[a] + s[b])
  let s := s.set d (rotateLeft (s[d] ^^^ s[a]) 16)
  let s := s.set c (s[c] + s[d])
  let s := s.set b (rotateLeft (s[b] ^^^ s[c]) 12)
  let s := s.set a (s[a] + s[b])
  let s := s.set d (rotateLeft (s[d] ^^^ s[a]) 8)
  let s := s.set c (s[c] + s[d])
  s.set b (rotateLeft (s[b] ^^^ s[c]) 7)

/-- Stirs the columns of a block, then its diagonals. -/
def doubleRound (s : Block) : Block :=
  let s := quarterRound s 0 4 8 12
  let s := quarterRound s 1 5 9 13
  let s := quarterRound s 2 6 10 14
  let s := quarterRound s 3 7 11 15
  let s := quarterRound s 0 5 10 15
  let s := quarterRound s 1 6 11 12
  let s := quarterRound s 2 7 8 13
  quarterRound s 3 4 9 14

/-- The next state of the generator that makes keys. -/
def nextKeyState (state : UInt64) : UInt64 :=
  state * 6364136223846793005 + 11634580027462260723

/-- The word of a key that a state of the generator gives. -/
def keyWord (state : UInt64) : UInt32 :=
  let x := (((state >>> 18) ^^^ state) >>> 27).toUInt32
  let turn := (state >>> 59).toUInt32
  (x >>> turn) ||| (x <<< ((32 - turn) % 32))

/-- The first words of a key, from the state after the seed on. -/
def keyWords : (count : Nat) → (state : UInt64) → List UInt32
  | 0, _ => []
  | count + 1, state =>
      let state := nextKeyState state
      keyWord state :: keyWords count state

/-- The key of a seed. -/
def key (seed : UInt64) : List UInt32 := keyWords 8 seed

/-- The words before stirring: four constants, the key, the block number in
two words and the stream number in two words. -/
def initialWords (seed : UInt64) (block : Nat) : List UInt32 :=
  [0x61707865, 0x3320646e, 0x79622d32, 0x6b206574] ++ key seed ++
    [UInt32.ofNat (block % UInt32.size), UInt32.ofNat (block / UInt32.size % UInt32.size), 0, 0]

/-- The words of a block of the stream. -/
def block (seed : UInt64) (number : Nat) : Block :=
  let words := initialWords seed number
  let start : Block := Vector.ofFn fun i => words.getD i 0
  let stirred := doubleRound (doubleRound (doubleRound (doubleRound start)))
  Vector.ofFn fun i => stirred[i] + start[i]

/-- The word at a position of the stream. -/
def word (seed : UInt64) (position : Nat) : UInt32 :=
  (block seed (position / 16)).get ⟨position % 16, Nat.mod_lt _ (by decide)⟩

end Tabletop.Keystream
