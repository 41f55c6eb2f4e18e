import Tabletop.Text.Regex.Tree

/-! # The meaning of a written expression

The parts are gone through in the order they are written in, with the flags
that hold there. Without the flag for all scripts the classes are sets of
characters of one byte, and what would contain half a character has no
meaning: the point, a negated class, and a byte beyond those characters.
-/

namespace Tabletop.Text.Regex

/-- The flags a meaning depends on. -/
structure Flags where
  fold : Bool := false
  lines : Bool := false
  anyChar : Bool := false
  carriage : Bool := false
  unicode : Bool := true
  deriving DecidableEq, Repr

namespace Flags

/-- The flags with one of them switched. -/
def switch (flags : Flags) : Flag × Bool → Flags
  | (.fold, value) => { flags with fold := value }
  | (.lines, value) => { flags with lines := value }
  | (.anyChar, value) => { flags with anyChar := value }
  | (.carriage, value) => { flags with carriage := value }
  | (.unicode, value) => { flags with unicode := value }
  | (.short, _) => flags
  | (.spacious, _) => flags

/-- The flags with some of them switched. -/
def switchAll (flags : Flags) (switches : Switches) : Flags := switches.foldl switch flags

/-- A set with the variants of other case, if case is disregarded. -/
def foldSet (flags : Flags) (set : CharSet) : CharSet :=
  if flags.fold then
    if flags.unicode then .folded set else .inter (.folded set) CharSet.ascii
  else set

/-- The set of a single character, with its variants of other case if case is
disregarded. A character of several bytes has some only in all scripts. -/
def charSet (flags : Flags) (c : Char) : CharSet :=
  if flags.unicode || c.toNat < 0x80 then flags.foldSet (.single c) else .single c

/-- A set or, if it is negated, the characters outside it. -/
def negateSet? (flags : Flags) (negated : Bool) (set : CharSet) : Option CharSet :=
  if negated then (if flags.unicode then some (.compl set) else none) else some set

/-- The characters words are made of. -/
def letters (flags : Flags) : CharSet := if flags.unicode then .word else CharSet.asciiWord

end Flags

/-- A byte beyond the characters of one byte is half a character. -/
def Literal.isHalf (flags : Flags) (l : Literal) : Bool :=
  !flags.unicode && l.isByte && 0x80 ≤ l.char.toNat

/-- A character in brackets, where only those of one byte have a meaning unless
the class is of all scripts. -/
def Literal.inSet? (flags : Flags) (l : Literal) : Option Char :=
  if flags.unicode || l.char.toNat < 0x80 then some l.char else none

/-- The set with an escape of its own. -/
def Shorthand.set (flags : Flags) : Shorthand → CharSet
  | digit => if flags.unicode then .digit else CharSet.asciiDigit
  | word => flags.letters
  | blank => if flags.unicode then .blank else CharSet.asciiBlank

/-- The combination of two sets. -/
def SetOp.apply : SetOp → CharSet → CharSet → CharSet
  | inter, a, b => a.inter b
  | diff, a, b => a.diff b
  | symmDiff, a, b => a.symmDiff b

mutual
/-- The set that is written in brackets. -/
def SetTree.set? (flags : Flags) : SetTree → Option CharSet
  | nothing => some .nothing
  | literal l => do pure (.single (← l.inSet? flags))
  | range low high => do pure (.range (← low.inSet? flags) (← high.inSet? flags))
  | shorthand s negated => flags.negateSet? negated (s.set flags)
  | named set negated => flags.negateSet? negated (flags.foldSet set)
  | brackets negated set => do flags.negateSet? negated (flags.foldSet (← set.set? flags))
  | union items => SetTree.unionOf? flags items
  | op o a b => do
      pure (o.apply (flags.foldSet (← a.set? flags)) (flags.foldSet (← b.set? flags)))
termination_by structural set => set
/-- The union of some sets. -/
def SetTree.unionOf? (flags : Flags) : List SetTree → Option CharSet
  | [] => some .nothing
  | [item] => item.set? flags
  | item :: rest => do pure ((← item.set? flags).union (← SetTree.unionOf? flags rest))
termination_by structural items => items
end

/-- The condition on a place, as the flags make it. -/
def Mark.anchor (flags : Flags) : Mark → Anchor
  | start => if flags.lines then .lineStart flags.carriage else .textStart
  | stop => if flags.lines then .lineStop flags.carriage else .textStop
  | textStart => .textStart
  | textStop => .textStop
  | word place => .word flags.letters place

/-- The characters the point stands for. -/
def Flags.pointSet (flags : Flags) : CharSet :=
  if flags.anyChar then .compl .nothing
  else if flags.carriage then .compl (.union (.single '\n') (.single '\r'))
  else .compl (.single '\n')

mutual
/-- What a written expression means, and the flags that hold behind it. -/
def Tree.meaning? (flags : Flags) : Tree → Option (Regex × Flags)
  | empty => some (.empty, flags)
  | literal l => if l.isHalf flags then none else some (chars (flags.charSet l.char), flags)
  | point => if flags.unicode then some (chars flags.pointSet, flags) else none
  | mark m => some (.anchor (m.anchor flags), flags)
  | shorthand s negated => do pure (chars (← flags.negateSet? negated (s.set flags)), flags)
  | brackets negated set => do
      pure (chars (← flags.negateSet? negated (flags.foldSet (← set.set? flags))), flags)
  | switches changes => some (.empty, flags.switchAll changes)
  | group changes isKept inner => do
      let (r, _) ← inner.meaning? (flags.switchAll changes)
      pure (if isKept then .group r else r, flags)
  | rep inner least most => do
      let (r, flags) ← inner.meaning? flags
      pure (r.times least most, flags)
  | concat items => do
      let (rs, flags) ← Tree.meanings? flags items
      pure (Regex.concat rs, flags)
  | choice branches => do
      let (rs, flags) ← Tree.meanings? flags branches
      pure (Regex.choice rs, flags)
termination_by structural tree => tree
/-- What written expressions mean, one after the other. -/
def Tree.meanings? (flags : Flags) : List Tree → Option (List Regex × Flags)
  | [] => some ([], flags)
  | tree :: rest => do
      let (r, flags) ← tree.meaning? flags
      let (rs, flags) ← Tree.meanings? flags rest
      pure (r :: rs, flags)
termination_by structural trees => trees
end

end Tabletop.Text.Regex
