import Tabletop.Json.Parser
import Tabletop.Text.Regex.Tree

/-! # Reading regular expressions

The usual syntax: literals, the point, the marks for the two ends, escapes,
brackets with ranges, named classes, nested brackets and operations on sets,
repetitions, groups with or without a name or flags, and alternatives.

## Implementation notes

One of the flags makes blanks and comments in the expression itself
meaningless, so it is followed while the expression is read. The recursion is
on fuel: every call takes at least one character, so one more than the length
of the expression suffices.
-/

namespace Tabletop.Text.Regex

/-- The text behind the blanks and comments at its front. A comment goes from a
hash sign to the end of the line. -/
def skipSpace : (inComment : Bool) → List Char → List Char
  | _, [] => []
  | true, c :: s => skipSpace (c != '\n') s
  | false, c :: s =>
      if isBlank c then skipSpace false s
      else if c = '#' then skipSpace true s
      else c :: s

/-- The text behind what can be skipped at its front. -/
def skip (spacious : Bool) (s : List Char) : List Char :=
  if spacious then skipSpace false s else s

/-! ### Escapes -/

/-- What an escape stands for. -/
inductive Escape where
  | literal (l : Literal)
  | shorthand (set : Shorthand) (negated : Bool)
  | mark (m : Mark)

/-- The characters that a backslash makes literal. -/
def isPunctuation (c : Char) : Bool :=
  c.toNat < 128 && !c.isAlphanum && c != '<' && c != '>'

/-- The character with a number, unless there is none. -/
def charOf? (n : Nat) : Option Char :=
  if h : n.isValidChar then some (Char.ofNatAux n h) else none

/-- So many hexadecimal digits. -/
def hexDigits? (spacious : Bool) : (count : Nat) → List Char → Option (List Nat × List Char)
  | 0, s => some ([], s)
  | _ + 1, [] => none
  | count + 1, c :: s => do
      let d ← Json.hexValue? c
      let (digits, s) ← hexDigits? spacious count (skip spacious s)
      pure (d :: digits, s)

/-- The hexadecimal digits up to a closing brace. -/
def bracedDigits? (spacious : Bool) : (fuel : Nat) → List Char → Option (List Nat × List Char)
  | 0, _ => none
  | fuel + 1, s =>
      match skip spacious s with
      | [] => none
      | '\x7d' :: s => some ([], s)
      | c :: s => do
          let d ← Json.hexValue? c
          let (digits, s) ← bracedDigits? spacious fuel s
          pure (d :: digits, s)

/-- The number that hexadecimal digits stand for. -/
def ofHex (digits : List Nat) : Nat := digits.foldl (fun n d => 16 * n + d) 0

/-- A character given by hexadecimal digits: any number of them in braces, or
so many. Two digits without braces make a byte. -/
def hexLiteral? (spacious : Bool) (count : Nat) (s : List Char) :
    Option (Escape × List Char) :=
  match skip spacious s with
  | '\x7b' :: s => do
      let (digits, s) ← bracedDigits? spacious (s.length + 1) s
      if digits.isEmpty then none
      else pure (.literal ⟨← charOf? (ofHex digits), false⟩, s)
  | s => do
      let (digits, s) ← hexDigits? spacious count s
      pure (.literal ⟨← charOf? (ofHex digits), count == 2⟩, s)

/-- A character of the name of a border. -/
def isBorderChar (c : Char) : Bool := c.isAlpha || c == '-'

/-- The name of a border up to a closing brace. -/
def borderName? (spacious : Bool) : (fuel : Nat) → List Char → Option (List Char × List Char)
  | 0, _ => none
  | fuel + 1, s =>
      match skip spacious s with
      | '\x7d' :: s => some ([], s)
      | c :: s =>
          if isBorderChar c then do
            let (name, s) ← borderName? spacious fuel s
            pure (c :: name, s)
          else none
      | [] => none

/-- The border with a name. -/
def borderNamed? (name : String) : Option WordPlace :=
  if name = "start" then some .start
  else if name = "end" then some .stop
  else if name = "start-half" then some .startHalf
  else if name = "end-half" then some .stopHalf
  else none

/-- The border of a word, which may be followed by its kind in braces. Braces
that do not start like a name belong to a repetition. -/
def border? (spacious : Bool) : List Char → Option (Escape × List Char)
  | '\x7b' :: s =>
      match skip spacious s with
      | [] => none
      | c :: rest =>
          if isBorderChar c then do
            let (name, s) ← borderName? spacious (rest.length + 2) (c :: rest)
            pure (.mark (.word (← borderNamed? (String.ofList name))), s)
          else some (.mark (.word .border), '\x7b' :: s)
  | s => some (.mark (.word .border), s)

/-- The escape behind a backslash. -/
def escape? (spacious : Bool) : List Char → Option (Escape × List Char)
  | [] => none
  | 'd' :: s => some (.shorthand .digit false, s)
  | 'D' :: s => some (.shorthand .digit true, s)
  | 's' :: s => some (.shorthand .blank false, s)
  | 'S' :: s => some (.shorthand .blank true, s)
  | 'w' :: s => some (.shorthand .word false, s)
  | 'W' :: s => some (.shorthand .word true, s)
  | 'b' :: s => border? spacious s
  | 'B' :: s => some (.mark (.word .noBorder), s)
  | '<' :: s => some (.mark (.word .start), s)
  | '>' :: s => some (.mark (.word .stop), s)
  | 'A' :: s => some (.mark .textStart, s)
  | 'z' :: s => some (.mark .textStop, s)
  | 'a' :: s => some (.literal ⟨'\x07', false⟩, s)
  | 'f' :: s => some (.literal ⟨'\x0c', false⟩, s)
  | 't' :: s => some (.literal ⟨'\t', false⟩, s)
  | 'n' :: s => some (.literal ⟨'\n', false⟩, s)
  | 'r' :: s => some (.literal ⟨'\r', false⟩, s)
  | 'v' :: s => some (.literal ⟨'\x0b', false⟩, s)
  | 'x' :: s => hexLiteral? spacious 2 s
  | 'u' :: s => hexLiteral? spacious 4 s
  | 'U' :: s => hexLiteral? spacious 8 s
  | c :: s => if isPunctuation c then some (.literal ⟨c, false⟩, s) else none

/-! ### Brackets -/

/-- A single item of brackets, an escape or a character for itself. -/
def setItem? (spacious : Bool) : List Char → Option (Escape × List Char)
  | [] => none
  | '\\' :: s => escape? spacious s
  | c :: s => some (.literal ⟨c, false⟩, s)

/-- The set an item of brackets stands for. -/
def Escape.set? : Escape → Option SetTree
  | literal l => some (.literal l)
  | shorthand set negated => some (.shorthand set negated)
  | mark _ => none

/-- The range between two items. -/
def Escape.rangeTo? : Escape → Escape → Option SetTree
  | literal low, literal high => if low.char ≤ high.char then some (.range low high) else none
  | _, _ => none

/-- An item of brackets or the range from it. A hyphen in front of another one
or of the closing bracket makes no range. -/
def setRange? (spacious : Bool) (s : List Char) : Option (SetTree × List Char) := do
  let (low, s) ← setItem? spacious s
  match skip spacious s with
  | '-' :: rest =>
      match skip spacious rest with
      | ']' :: _ => pure (← low.set?, '-' :: rest)
      | '-' :: _ => pure (← low.set?, '-' :: rest)
      | rest => do
          let (high, s) ← setItem? spacious rest
          pure (← low.rangeTo? high, s)
  | s => pure (← low.set?, s)

/-- The named class at the front of a text. -/
def namedSet? : List Char → Option (SetTree × List Char)
  | '[' :: ':' :: s =>
      let (negated, s) := match s with
        | '^' :: s => (true, s)
        | s => (false, s)
      let name := s.takeWhile (· != ':')
      match s.drop name.length with
      | ':' :: ']' :: s => do pure (.named (← CharSet.asciiNamed? (String.ofList name)) negated, s)
      | _ => none
  | _ => none

/-- The hyphens at the front of brackets, which stand for themselves. -/
def hyphens (spacious : Bool) : (fuel : Nat) → List Char → List SetTree × List Char
  | 0, s => ([], s)
  | fuel + 1, s =>
      match skip spacious s with
      | '-' :: s =>
          let (items, s) := hyphens spacious fuel s
          (.literal ⟨'-', false⟩ :: items, s)
      | s => ([], s)

/-- What is special behind an opening bracket: the sign of negation, and
hyphens or else a closing bracket that stand for themselves. -/
def bracketsFront (spacious : Bool) (s : List Char) : Bool × List SetTree × List Char :=
  let (negated, s) := match skip spacious s with
    | '^' :: s => (true, s)
    | s => (false, s)
  match hyphens spacious (s.length + 1) s with
  | ([], ']' :: s) => (negated, [.literal ⟨']', false⟩], s)
  | (items, s) => (negated, items, s)

/-- An operation that waits for its second set. -/
abbrev Pending := Option (SetOp × SetTree)

/-- The set with the operation in front of it. Operations are applied from left
to right. -/
def Pending.close : Pending → SetTree → SetTree
  | none, set => set
  | some (op, a), set => .op op a set

/-- The operation at the front of a text. -/
def setOp? : List Char → Option (SetOp × List Char)
  | '&' :: '&' :: s => some (.inter, s)
  | '-' :: '-' :: s => some (.diff, s)
  | '~' :: '~' :: s => some (.symmDiff, s)
  | _ => none

/-- The set up to the closing bracket. `items` are those since the last
operation, the last one first. -/
def setParts? (spacious : Bool) : (fuel : Nat) → Pending → (items : List SetTree) → List Char →
    Option (SetTree × List Char)
  | 0, _, _, _ => none
  | fuel + 1, pending, items, s =>
      match skip spacious s with
      | [] => none
      | ']' :: s => some (pending.close (.ofItems items.reverse), s)
      | '[' :: s =>
          match namedSet? ('[' :: s) with
          | some (item, s) => setParts? spacious fuel pending (item :: items) s
          | none => do
              let (negated, front, s) := bracketsFront spacious s
              let (set, s) ← setParts? spacious fuel none front s
              setParts? spacious fuel pending (.brackets negated set :: items) s
      | c :: s =>
          match setOp? (c :: s) with
          | some (op, s) =>
              setParts? spacious fuel (some (op, pending.close (.ofItems items.reverse))) [] s
          | none => do
              let (item, s) ← setRange? spacious (c :: s)
              setParts? spacious fuel pending (item :: items) s

/-- The set behind an opening bracket. -/
def brackets? (spacious : Bool) (s : List Char) : Option (Tree × List Char) := do
  let (negated, front, rest) := bracketsFront spacious s
  let (set, s) ← setParts? spacious (s.length + 1) none front.reverse rest
  pure (.brackets negated set, s)

/-! ### Repetitions -/

/-- The largest count of a repetition. -/
def maxCount : Nat := 4294967295

/-- The decimal digits at the front of a text. -/
def decimalDigits (spacious : Bool) : (fuel : Nat) → List Char → List Nat × List Char
  | 0, s => ([], s)
  | _ + 1, [] => ([], [])
  | fuel + 1, c :: s =>
      match Json.digit? c with
      | some d =>
          let (digits, s) := decimalDigits spacious fuel (skip spacious s)
          (d :: digits, s)
      | none => ([], c :: s)

/-- The count at the front of a text, between blanks. -/
def count? (spacious : Bool) (s : List Char) : Option (Nat × List Char) :=
  let s := s.dropWhile isBlank
  match decimalDigits spacious (s.length + 1) s with
  | ([], _) => none
  | (digits, s) =>
      let n := Json.ofDigits digits
      if n ≤ maxCount then some (n, s.dropWhile isBlank) else none

/-- The counts up to the closing brace. Behind a comma no blanks may stand in
front of the brace. -/
def counts? (spacious : Bool) (s : List Char) : Option ((Nat × Option Nat) × List Char) := do
  let (least, s) ← count? spacious (skip spacious s)
  match s with
  | '\x7d' :: s => pure ((least, some least), s)
  | ',' :: s =>
      match skip spacious s with
      | '\x7d' :: s => pure ((least, none), s)
      | s => do
          let (most, s) ← count? spacious s
          match s with
          | '\x7d' :: s => if least ≤ most then pure ((least, some most), s) else none
          | _ => none
  | _ => none

/-- The text behind the sign that asks for as few repetitions as possible. -/
def skipShort : List Char → List Char
  | '?' :: s => s
  | s => s

/-- The repetition at the front of a text. -/
def repetition? (spacious : Bool) : List Char → Option ((Nat × Option Nat) × List Char)
  | '*' :: s => some ((0, none), skipShort s)
  | '+' :: s => some ((1, none), skipShort s)
  | '?' :: s => some ((0, some 1), skipShort s)
  | '\x7b' :: s => do
      let (counts, s) ← counts? spacious s
      pure (counts, skipShort (skip spacious s))
  | _ => none

/-- A repetition starts with the character. -/
def startsRepetition (c : Char) : Bool := c == '*' || c == '+' || c == '?' || c == '\x7b'

/-! ### Groups -/

/-- The flag with a letter. -/
def flagOf? (c : Char) : Option Flag :=
  if c = 'i' then some .fold
  else if c = 'm' then some .lines
  else if c = 's' then some .anyChar
  else if c = 'U' then some .short
  else if c = 'u' then some .unicode
  else if c = 'R' then some .carriage
  else if c = 'x' then some .spacious
  else none

/-- The flags up to the sign behind them: a colon, or a parenthesis that closes
the group. Those behind a hyphen are switched off. No flag is named twice, and
a hyphen stands once and in front of a flag. -/
def switches? : (negated dangling : Bool) → (seen : List Flag) → List Char →
    Option (Switches × Char × List Char)
  | _, _, _, [] => none
  | negated, dangling, seen, c :: s =>
      if c = ':' ∨ c = ')' then (if dangling then none else some ([], c, s))
      else if c = '-' then (if negated then none else switches? true true seen s)
      else do
        let flag ← flagOf? c
        if seen.contains flag then none
        else
          let (flags, stop, s) ← switches? negated false (flag :: seen) s
          pure ((flag, !negated) :: flags, stop, s)

/-- Names are made of letters, numbers and a few signs, and start with a letter
or a line. -/
def isNameChar (isFirst : Bool) (c : Char) : Bool :=
  c == '_' || isLetterChar c ||
    (!isFirst && (isNumberChar c || c == '.' || c == '[' || c == ']'))

/-- The name of a group up to the closing bracket, which no other group has. -/
def groupName? (names : List (List Char)) (s : List Char) : Option (List Char × List Char) :=
  let name := s.takeWhile (· != '>')
  match name, s.drop name.length with
  | c :: more, _ :: rest =>
      if isNameChar true c && more.all (isNameChar false) && !names.contains name then
        some (name, rest)
      else none
  | _, _ => none

/-- What an opening parenthesis starts. -/
inductive Opening where
  /-- Nothing: flags are switched for the rest of the group around it. -/
  | switches (flags : Switches)
  /-- A group, which is kept or not. -/
  | group (flags : Switches) (isKept : Bool)

/-- What the text behind an opening parenthesis starts, and the names of all
groups so far. -/
def opening? (names : List (List Char)) : List Char →
    Option (Opening × List (List Char) × List Char)
  | '?' :: 'P' :: '<' :: s => do
      let (name, s) ← groupName? names s
      pure (.group [] true, name :: names, s)
  | '?' :: '<' :: s => do
      let (name, s) ← groupName? names s
      pure (.group [] true, name :: names, s)
  | '?' :: s => do
      let (flags, stop, s) ← switches? false false [] s
      if stop = ':' then pure (.group flags false, names, s)
      else if flags.isEmpty then none
      else pure (.switches flags, names, s)
  | s => some (.group [] true, names, s)

/-- Blanks can be skipped behind some switches. -/
def spaciousBehind (spacious : Bool) (flags : Switches) : Bool :=
  (flags.lookup .spacious).getD spacious

/-! ### Expressions -/

/-- The part an escape stands for. -/
def Escape.tree : Escape → Tree
  | literal l => .literal l
  | shorthand set negated => .shorthand set negated
  | mark m => .mark m

/-- A part of an expression that is neither a group nor a repetition. -/
def part? (spacious : Bool) : List Char → Option (Tree × List Char)
  | '.' :: s => some (.point, s)
  | '^' :: s => some (.mark .start, s)
  | '$' :: s => some (.mark .stop, s)
  | '\\' :: s => (escape? spacious s).map fun (e, s) => (e.tree, s)
  | '[' :: s => brackets? spacious s
  | c :: s => some (.literal ⟨c, false⟩, s)
  | [] => none

/-- The choice of some branches and of the items behind the last of them, both
the last one first. -/
def closeParts (items branches : List Tree) : Tree :=
  .ofBranches (.ofItems items.reverse :: branches).reverse

/-- The expression up to the end of the group or of the text. `items` are the
parts of the current branch and `branches` those before it, the last one
first. -/
def parts? : (fuel : Nat) → (spacious : Bool) → (names : List (List Char)) →
    (items branches : List Tree) → List Char → Option (Tree × List (List Char) × List Char)
  | 0, _, _, _, _, _ => none
  | fuel + 1, spacious, names, items, branches, s =>
      match skip spacious s with
      | [] => some (closeParts items branches, names, [])
      | ')' :: s => some (closeParts items branches, names, ')' :: s)
      | '|' :: s => parts? fuel spacious names [] (.ofItems items.reverse :: branches) s
      | '(' :: s => do
          match ← opening? names (skip spacious s) with
          | (.switches flags, names, s) =>
              parts? fuel (spaciousBehind spacious flags) names (.switches flags :: items) branches s
          | (.group flags isKept, names, s) =>
              let (inner, names, s) ← parts? fuel (spaciousBehind spacious flags) names [] [] s
              match s with
              | ')' :: s => parts? fuel spacious names (.group flags isKept inner :: items) branches s
              | _ => none
      | c :: s =>
          if startsRepetition c then
            match items with
            | [] => none
            | last :: items =>
                if last.isRepeatable then do
                  let ((least, most), s) ← repetition? spacious (c :: s)
                  parts? fuel spacious names (.rep last least most :: items) branches s
                else none
          else do
            let (item, s) ← part? spacious (c :: s)
            parts? fuel spacious names (item :: items) branches s

/-- The expression that a whole text writes. -/
def Tree.parse? (s : List Char) : Option Tree :=
  match parts? (s.length + 1) false [] [] [] s with
  | some (tree, _, []) => some tree
  | _ => none

end Tabletop.Text.Regex
