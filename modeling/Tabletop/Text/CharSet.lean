import Tabletop.Text.Blank
import Tabletop.Text.CaseFold
import Tabletop.Text.WordChar

/-! # Sets of characters

A set is kept the way it was described, from ranges and tabulated properties.
Whether it contains a character is read off the description; its ranges are
worked out only where its size matters.
-/

namespace Tabletop.Text

/-- A set of characters. -/
inductive CharSet where
  | nothing
  | range (low high : Char)
  | digit
  | word
  | blank
  | union (a b : CharSet)
  | inter (a b : CharSet)
  | compl (a : CharSet)
  /-- The characters that have a variant of other case in the set. -/
  | folded (a : CharSet)
  deriving DecidableEq, Repr

namespace CharSet

/-- A set contains a character. -/
def contains : CharSet → Char → Bool
  | nothing, _ => false
  | range low high, c => low ≤ c && c ≤ high
  | digit, c => isDigitChar c
  | word, c => isWordChar c
  | blank, c => isBlank c
  | union a b, c => a.contains c || b.contains c
  | inter a b, c => a.contains c && b.contains c
  | compl a, c => !a.contains c
  | folded a, c => a.contains c || (caseVariants c).any a.contains

/-- The set of one character. -/
def single (c : Char) : CharSet := range c c

/-- The characters of the first set that are not in the second. -/
def diff (a b : CharSet) : CharSet := inter a (compl b)

/-- The characters in exactly one of two sets. -/
def symmDiff (a b : CharSet) : CharSet := union (diff a b) (diff b a)

/-- The union of some sets. -/
def unionOf (sets : List CharSet) : CharSet := sets.foldr union nothing

/-- The characters of the smallest code. -/
def ascii : CharSet := range '\x00' '\x7f'

/-- The decimal digits among them. -/
def asciiDigit : CharSet := range '0' '9'

/-- The letters among them. -/
def asciiLetter : CharSet := union (range 'A' 'Z') (range 'a' 'z')

/-- The blanks among them. -/
def asciiBlank : CharSet := union (range '\t' '\r') (single ' ')

/-- The word characters among them. -/
def asciiWord : CharSet := union asciiDigit (union asciiLetter (single '_'))

/-- The set among them that goes by a name. -/
def asciiNamed? (name : String) : Option CharSet :=
  if name = "alnum" then some (union asciiDigit asciiLetter)
  else if name = "alpha" then some asciiLetter
  else if name = "ascii" then some ascii
  else if name = "blank" then some (union (single '\t') (single ' '))
  else if name = "cntrl" then some (union (range '\x00' '\x1f') (single '\x7f'))
  else if name = "digit" then some asciiDigit
  else if name = "graph" then some (range '!' '~')
  else if name = "lower" then some (range 'a' 'z')
  else if name = "print" then some (range ' ' '~')
  else if name = "punct" then
    some (unionOf [range '!' '/', range ':' '@', range '[' '\x60', range '\x7b' '~'])
  else if name = "space" then some asciiBlank
  else if name = "upper" then some (range 'A' 'Z')
  else if name = "word" then some asciiWord
  else if name = "xdigit" then some (unionOf [asciiDigit, range 'A' 'F', range 'a' 'f'])
  else none

/-- The ranges of the characters of a set, in order. -/
def ranges : CharSet → List (Nat × Nat)
  | nothing => []
  | range low high => if low ≤ high then [(low.toNat, high.toNat)] else []
  | digit => digitRanges
  | word => coverOf (joiningRanges ++ (digitRanges ++ letterRanges))
  | blank => blankRanges
  | union a b => coverOf (a.ranges ++ b.ranges)
  | inter a b => gaps (coverOf (gaps a.ranges ++ gaps b.ranges))
  | compl a => gaps a.ranges
  | folded a => foldRanges a.ranges

end CharSet

end Tabletop.Text
