import Tabletop.Text.CharSet

/-! # Regular expressions

An expression matches at a place of a text. Besides the characters behind the
place it may look at the ones on both sides of it: for the ends of the text and
of lines, and for the borders of words.

Matching keeps the list of expressions that the rest of the text has to match,
and takes them past one character at a time.

## Implementation notes

A counted repetition stays one expression, and passing a character lowers its
counts. So the list of open expressions grows with the number of counts that
can be told apart, and not with the counts themselves.
-/

namespace Tabletop.Text

/-- A place between two characters, either of which is missing at an end of
the text. -/
structure Place where
  before : Option Char
  after : Option Char

/-- Where a place is with respect to words. -/
inductive WordPlace where
  /-- One side is inside a word and the other is not. -/
  | border
  | noBorder
  | start
  | stop
  /-- No word is in front of the place. -/
  | startHalf
  /-- No word is behind the place. -/
  | stopHalf
  deriving DecidableEq, Repr

/-- A condition on a place. -/
inductive Anchor where
  | textStart
  | textStop
  /-- A line starts; a carriage return ends a line, too, or it does not. -/
  | lineStart (carriage : Bool)
  | lineStop (carriage : Bool)
  /-- Words are made of the characters of a set. -/
  | word (letters : CharSet) (place : WordPlace)
  deriving DecidableEq, Repr

/-- The condition on words holds, given which sides are inside a word. -/
def WordPlace.holds : WordPlace → (before after : Bool) → Bool
  | border, before, after => before != after
  | noBorder, before, after => before == after
  | start, before, after => !before && after
  | stop, before, after => before && !after
  | startHalf, before, _ => !before
  | stopHalf, _, after => !after

/-- A line starts at the place. With carriage returns, a carriage return and a
line feed behind it end a line together. -/
def startsLine (carriage : Bool) (p : Place) : Bool :=
  p.before.isNone || p.before == some '\n' ||
    (carriage && p.before == some '\r' && p.after != some '\n')

/-- A line stops at the place. -/
def stopsLine (carriage : Bool) (p : Place) : Bool :=
  if carriage then
    p.after.isNone || p.after == some '\r' || (p.after == some '\n' && p.before != some '\r')
  else p.after.isNone || p.after == some '\n'

/-- The condition holds at the place. -/
def Anchor.holds : Anchor → Place → Bool
  | textStart, p => p.before.isNone
  | textStop, p => p.after.isNone
  | lineStart carriage, p => startsLine carriage p
  | lineStop carriage, p => stopsLine carriage p
  | word letters place, p =>
      place.holds (p.before.any letters.contains) (p.after.any letters.contains)

/-- A regular expression. -/
inductive Regex where
  | empty
  | chars (set : CharSet)
  | anchor (a : Anchor)
  | seq (a b : Regex)
  | alt (a b : Regex)
  /-- An expression that may be asked what it has matched. -/
  | group (a : Regex)
  /-- At least and, if there is a bound, at most so many times. -/
  | rep (a : Regex) (least : Nat) (most : Option Nat)
  deriving DecidableEq, Repr

namespace Regex

/-- The expression matches nothing at a place. -/
def matchesEmpty : Regex → Place → Bool
  | empty, _ => true
  | chars _, _ => false
  | anchor a, p => a.holds p
  | seq a b, p => a.matchesEmpty p && b.matchesEmpty p
  | alt a b, p => a.matchesEmpty p || b.matchesEmpty p
  | group a, p => a.matchesEmpty p
  | rep a least _, p => least == 0 || a.matchesEmpty p

/-- One expression and then another, either of which may be done already. -/
def followedBy (a b : Regex) : Regex :=
  if a = empty then b else if b = empty then a else seq a b

/-- The expressions of which one has to match behind the next character. A
repetition takes the character in some round; the rounds before it match
nothing, and where they can, they make up for any number of missing ones. -/
def after (before : Option Char) (c : Char) : Regex → List Regex
  | empty => []
  | anchor _ => []
  | chars set => if set.contains c then [empty] else []
  | seq a b =>
      (after before c a).map (·.followedBy b) ++
        if a.matchesEmpty ⟨before, some c⟩ then after before c b else []
  | alt a b => after before c a ++ after before c b
  | group a => after before c a
  | rep a least most =>
      if most = some 0 then []
      else
        let missing := if a.matchesEmpty ⟨before, some c⟩ then 0 else least - 1
        (after before c a).map (·.followedBy (rep a missing (most.map (· - 1))))

/-- One of the open expressions, or the whole one from here or further on,
matches the text at its front. -/
def search (whole : Regex) (isOpen : List Regex) (before : Option Char) : List Char → Bool
  | [] => (whole :: isOpen).any fun r => r.matchesEmpty ⟨before, none⟩
  | c :: rest =>
      (whole :: isOpen).any (fun r => r.matchesEmpty ⟨before, some c⟩) ||
        search whole ((whole :: isOpen).flatMap (after before c)).eraseDups (some c) rest

/-- The expression matches somewhere in the text. -/
def matchesIn (r : Regex) (text : String) : Bool :=
  search r [] none text.toList

/-- Whatever the expression matches has no characters. -/
def isWidthless : Regex → Bool
  | empty => true
  | chars _ => false
  | anchor _ => true
  | seq a b => a.isWidthless && b.isWidthless
  | alt a b => a.isWidthless && b.isWidthless
  | group a => a.isWidthless
  | rep a _ _ => a.isWidthless

/-- An expression so many times, where none and once need no repetition. -/
def repeated (a : Regex) (least : Nat) (most : Option Nat) : Regex :=
  if most = some 0 then empty
  else if least = 1 ∧ most = some 1 then a
  else rep a least most

/-- An expression so many times. More than once makes no difference to what has
no characters. -/
def times (a : Regex) (least : Nat) (most : Option Nat) : Regex :=
  if a.isWidthless then a.repeated (min least 1) (some ((most.map (min · 1)).getD 1))
  else a.repeated least most

/-- Expressions one after the other. -/
def concat (items : List Regex) : Regex := items.foldr followedBy empty

/-- The set of an expression that matches one character. -/
def charSet? : Regex → Option CharSet
  | chars set => some set
  | _ => none

/-- One of some expressions. Sets of characters join into one. -/
def choice (branches : List Regex) : Regex :=
  match branches.mapM charSet? with
  | some sets => chars (CharSet.unionOf sets)
  | none =>
      match branches with
      | [] => empty
      | a :: rest => rest.foldl alt a

end Regex

end Tabletop.Text
