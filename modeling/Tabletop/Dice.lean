import Tabletop.Dice.Keystream
import Tabletop.Fault
import Tabletop.Json.Record

/-! # Dice

All chance of a game comes from one stream of random words, which is given by
its seed. Dice are a place in that stream; whoever knows the seed and the
place can go on exactly where the dice were left.

## Implementation notes

A draw that falls outside the largest multiple of the range is repeated. The
stream has a period, and the recursion counts down the draws of one period: a
range for which none of them is accepted has no accepted draw at all.
-/

namespace Tabletop

/-- The number of words after which the stream repeats. -/
def Keystream.period : Nat := 1 <<< 68

/-- A place in the random stream of a game. -/
structure Dice where
  seed : UInt64
  position : Fin Keystream.period
  deriving DecidableEq

/-- A place in a random stream as it is kept: the seed and the number of words
that were taken. -/
structure Dice.State where
  seed : UInt64
  wordPos : Nat
  deriving DecidableEq, Repr

namespace Dice

/-- Dice that have not been rolled yet. -/
def new (seed : UInt64) : Dice := ⟨seed, ⟨0, by decide⟩⟩

/-- Where the dice stand. -/
def state (d : Dice) : State := ⟨d.seed, d.position⟩

/-- Dice at the place that was kept; the number of words counts modulo the
period. -/
def ofState (s : State) : Dice :=
  ⟨s.seed, ⟨s.wordPos % Keystream.period, Nat.mod_lt _ (by decide)⟩⟩

@[simp] theorem ofState_state (d : Dice) : ofState d.state = d := by
  cases d with
  | mk seed position => simp [ofState, state, Nat.mod_eq_of_lt position.isLt]

instance : Inhabited Dice := ⟨new 0⟩

/-- The dice after some more words. -/
def advance (d : Dice) (words : Nat) : Dice :=
  ofState ⟨d.seed, d.position + words⟩

/-- Takes two words, the lower one first. -/
def draw (d : Dice) : Nat × Dice :=
  let low := Keystream.word d.seed d.position
  let high := Keystream.word d.seed (d.advance 1).position
  (low.toNat + high.toNat * UInt32.size, d.advance 2)

/-- The largest low half of a product that is accepted for a range. -/
def zone (range : Nat) : Nat :=
  range <<< (63 - range.log2) - 1

/-- A number below the range, from the first of some draws that is accepted. -/
def rollBelow (range : Nat) : (draws : Nat) → Dice → Nat × Dice
  | 0, d => (0, d)
  | draws + 1, d =>
      let (value, d) := d.draw
      let product := value * range
      if product % UInt64.size ≤ zone range then (product / UInt64.size, d)
      else rollBelow range draws d

/-- A number from `low` on and below `high`. -/
def roll (low high : Int64) (d : Dice) : Checked (Int64 × Dice) :=
  if low < high then
    let (offset, d) := rollBelow (high.toInt - low.toInt).toNat (Keystream.period / 2) d
    .ok (Int64.ofInt (low.toInt + offset), d)
  else .error .emptyRange

/-- Some numbers in a row. -/
def rolls (low high : Int64) : (times : Nat) → Dice → Checked (List Int64 × Dice)
  | 0, d => .ok ([], d)
  | times + 1, d => do
      let (value, d) ← d.roll low high
      let (values, d) ← rolls low high times d
      pure (value :: values, d)

namespace State

/-- The JSON of a kept place. -/
def toJson (s : State) : Json :=
  .obj [("seed", .int s.seed.toNat), ("wordPos", .int s.wordPos)]

/-- A kept place is read from its seed and its number of words. -/
def ofJson (j : Json) : Reading State := do
  let r ← Json.record ["seed", "wordPos"] j
  let seed ← r.required "seed" Json.asIndex
  let wordPos ← r.required "wordPos" (Json.asNatBelow (1 <<< 128))
  pure ⟨UInt64.ofNat seed, wordPos⟩

end State

end Dice

end Tabletop
