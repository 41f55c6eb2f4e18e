import Tabletop.Text.Regex
import Tabletop.Text.Utf8

/-! # The size of a regular expression

An expression is refused when the machine that reads the bytes of a text for
it would take too much memory. The machine is made of states and of edges
between them; a repetition takes a copy of the repeated part for each count. A
second machine reads the text backwards and keeps no groups.

## Implementation notes

The sizes are computed and not counted off, so a huge count costs nothing. The
ranges of a set are worked out only for expressions that do not fit by a
generous estimate.
-/

namespace Tabletop.Text.Regex

/-- The most bytes of memory a machine may take. -/
def maxMemory : Nat := 10485760

/-- The bytes of a state, of a branch to another state, and of an edge with a
range of bytes. -/
def stateBytes : Nat := 32
@[inherit_doc stateBytes] def branchBytes : Nat := 4
@[inherit_doc stateBytes] def edgeBytes : Nat := 8

/-- Groups of neighbours that start with the same item, without it. -/
def byHead : List (List (Nat × Nat)) → List ((Nat × Nat) × List (List (Nat × Nat)))
  | [] => []
  | [] :: rest => byHead rest
  | (head :: tail) :: rest =>
      match byHead rest with
      | (next, tails) :: groups =>
          if head = next then (head, tail :: tails) :: groups
          else (head, [tail]) :: (next, tails) :: groups
      | [] => [(head, [tail])]

/-- What may follow in the sequences behind each of their beginnings. -/
def continuations : (fuel : Nat) → List (List (Nat × Nat)) → List (List (List (Nat × Nat)))
  | 0, _ => []
  | fuel + 1, sequences =>
      let groups := byHead sequences
      if groups.isEmpty then []
      else sequences :: groups.flatMap fun group => continuations fuel group.2

/-- The sum of some sizes. -/
def total (sizes : List Nat) : Nat := sizes.foldl (· + ·) 0

/-- The memory of a set read forwards: a state for every distinct way to go on
in a character, with an edge for every range of bytes. -/
def forwardSetBytes (sequences : List (List (Nat × Nat))) : Nat :=
  stateBytes + total ((continuations 4 sequences).eraseDups.map fun next =>
    stateBytes + edgeBytes * (byHead next).length)

/-- The memory of a set read backwards: a state for every beginning of a
sequence, and a branch to every sequence. -/
def backwardSetBytes (sequences : List (List (Nat × Nat))) : Nat :=
  2 * stateBytes + branchBytes * sequences.length +
    stateBytes * total ((continuations 4 sequences).map fun next => (byHead next).length)

/-- The memory of a set. A single character is a row of bytes, and characters
of one byte share one state. -/
def setBytes (ofSequences : List (List (Nat × Nat)) → Nat) (set : CharSet) : Nat :=
  match set.ranges with
  | [] => stateBytes
  | [(low, high)] =>
      if low = high then stateBytes * (utf8Bytes low).length
      else if high < 0x80 then 2 * stateBytes + edgeBytes
      else ofSequences (byteSequences low high)
  | ranges =>
      if ranges.all fun r => r.2 < 0x80 then 2 * stateBytes + edgeBytes * ranges.length
      else ofSequences (ranges.flatMap fun r => byteSequences r.1 r.2)

/-- A generous estimate of the memory of a set, from its description. -/
def setBytesEstimate : CharSet → Nat
  | .nothing => stateBytes
  | .range .. => 4000
  | .digit | .blank => 20000
  | .word => 100000
  | .union a b | .inter a b => setBytesEstimate a + setBytesEstimate b
  | .compl a => 2 * setBytesEstimate a + 4000
  | .folded a => setBytesEstimate a + 200000

/-- Whatever the expression matches has some character. -/
def takesSome : Regex → Bool
  | empty | anchor _ => false
  | chars _ => true
  | seq a b => a.takesSome || b.takesSome
  | alt a b => a.takesSome && b.takesSome
  | group a => a.takesSome
  | rep a least _ => least != 0 && a.takesSome

/-- The memory of the branch at the end of an expression to what follows. -/
def exitBytes : Regex → Nat
  | seq _ b => b.exitBytes
  | rep a least none => if least != 0 || a.takesSome then branchBytes else 0
  | _ => 0

/-- The memory of the branches to and from an alternative. Alternatives of an
alternative count as those of the whole. -/
def choiceBytes : Regex → Nat
  | alt _ _ => 0
  | a => branchBytes + a.exitBytes

/-- The memory of a repetition, given that of one round with its exit. -/
def repeatBytes (once : Nat) (takesSome : Bool) (least : Nat) : (most : Option Nat) → Nat
  | none =>
      if 0 < least then least * once + stateBytes + branchBytes
      else if takesSome then once + stateBytes + branchBytes
      else once + 3 * stateBytes + 4 * branchBytes
  | some most =>
      let optional := once + stateBytes + 2 * branchBytes
      if least = most then least * once
      else if least = 0 ∧ most = 1 then optional + stateBytes
      else
        (if least = 0 then stateBytes else least * once) + stateBytes + (most - least) * optional

/-- The memory of an expression, given that of sets and of what a group
remembers. An alternative of a choice shares its states. -/
def bytes (ofSet : CharSet → Nat) (ofGroup : Nat) : (inChoice : Bool) → Regex → Nat
  | _, empty => stateBytes
  | _, chars set => ofSet set
  | _, anchor _ => stateBytes
  | _, seq a b => bytes ofSet ofGroup false a + a.exitBytes + bytes ofSet ofGroup false b
  | inChoice, alt a b =>
      (if inChoice then 0 else 2 * stateBytes) +
        (bytes ofSet ofGroup true a + a.choiceBytes) +
        (bytes ofSet ofGroup true b + b.choiceBytes)
  | _, group a => bytes ofSet ofGroup false a + ofGroup
  | _, rep a least most =>
      repeatBytes (bytes ofSet ofGroup false a + a.exitBytes) a.takesSome least most

/-- The memory of what finds a start in the text. -/
def startBytes : Nat := 3 * stateBytes + edgeBytes + 2 * branchBytes

/-- The memory of the larger machine, each with a state for the match and the
first with two that remember it. -/
def memory (forwardSet backwardSet : CharSet → Nat) (r : Regex) : Nat :=
  max (startBytes + r.bytes forwardSet (2 * stateBytes) false + 3 * stateBytes)
    (startBytes + r.bytes backwardSet 0 false + stateBytes)

/-- The expression is small enough. -/
def isSmall (r : Regex) : Bool :=
  r.memory setBytesEstimate setBytesEstimate ≤ maxMemory ||
    r.memory (setBytes forwardSetBytes) (setBytes backwardSetBytes) ≤ maxMemory

end Tabletop.Text.Regex
