import Tabletop.Json.Basic
import Tabletop.Json.Number

/-! # Reading JSON

`Json.read` turns the front of a text into a value and hands back the rest.
Where the text stops being JSON the value so far ends in `broken` and no rest
is left, so whatever was complete before the fault can still be inspected.

## Implementation notes

The recursion is on fuel: `read` and the two list readers call each other at
most twice per character, so twice the length of the text always suffices and
`Json.parse` supplies it.
-/

namespace Tabletop.Json

/-- The most arrays and objects that may be nested in each other. -/
def maxDepth : Nat := 127

/-- The four blanks of JSON. -/
def isBlank (c : Char) : Bool :=
  c == ' ' || c == '\n' || c == '\t' || c == '\r'

/-- The text without its leading blanks. -/
def skipBlanks (s : List Char) : List Char := s.dropWhile isBlank

/-- The value of a hexadecimal digit of either case. -/
def hexValue? (c : Char) : Option Nat :=
  if '0' ≤ c ∧ c ≤ '9' then some (c.toNat - 48)
  else if 'a' ≤ c ∧ c ≤ 'f' then some (c.toNat - 87)
  else if 'A' ≤ c ∧ c ≤ 'F' then some (c.toNat - 55)
  else none

/-- The number that four hexadecimal digits at the front of a text stand for. -/
def hexQuad? : List Char → Option (Nat × List Char)
  | a :: b :: c :: d :: rest => do
      let a ← hexValue? a
      let b ← hexValue? b
      let c ← hexValue? c
      let d ← hexValue? d
      pure (((a * 16 + b) * 16 + c) * 16 + d, rest)
  | _ => none

/-- A character that may follow a backslash on its own. -/
def escaped? (c : Char) : Option Char :=
  if c = '"' then some '"'
  else if c = '\\' then some '\\'
  else if c = '/' then some '/'
  else if c = 'b' then some '\x08'
  else if c = 'f' then some '\x0c'
  else if c = 'n' then some '\n'
  else if c = 'r' then some '\r'
  else if c = 't' then some '\t'
  else none

/-- The low surrogate written at the front of a text. -/
def lowSurrogate? : List Char → Option (Nat × List Char)
  | '\\' :: 'u' :: rest => do
      let (n, rest) ← hexQuad? rest
      if 0xDC00 ≤ n ∧ n ≤ 0xDFFF then pure (n, rest) else none
  | _ => none

/-- The character after a unicode escape, or `none` in its place when the
escape is half of a pair. -/
def unicode? (s : List Char) : Option (Option Char × List Char) := do
  let (n, rest) ← hexQuad? s
  if 0xD800 ≤ n ∧ n ≤ 0xDBFF then
    match lowSurrogate? rest with
    | some (low, rest) =>
        pure (some (Char.ofNat (0x10000 + (n - 0xD800) * 0x400 + (low - 0xDC00))), rest)
    | none => pure (none, rest)
  else if 0xDC00 ≤ n ∧ n ≤ 0xDFFF then pure (none, rest)
  else pure (some (Char.ofNat n), rest)

/-- The characters of a string up to its closing quotation mark, which the
text is behind afterwards. The characters are `none` when a surrogate has no
partner, and the whole is `none` when the text breaks off. -/
def readString : (fuel : Nat) → List Char → Option (Option (List Char) × List Char)
  | 0, _ => none
  | _, [] => none
  | _ + 1, '"' :: rest => some (some [], rest)
  | fuel + 1, '\\' :: 'u' :: rest => do
      let (c, rest) ← unicode? rest
      let (cs, rest) ← readString fuel rest
      pure (do pure ((← c) :: (← cs)), rest)
  | fuel + 1, '\\' :: c :: rest => do
      let c ← escaped? c
      let (cs, rest) ← readString fuel rest
      pure (cs.map (c :: ·), rest)
  | fuel + 1, c :: rest =>
      if c.toNat < 32 ∨ c = '\\' then none
      else do
        let (cs, rest) ← readString fuel rest
        pure (cs.map (c :: ·), rest)

/-- The value of a decimal digit. -/
def digit? (c : Char) : Option Nat :=
  if '0' ≤ c ∧ c ≤ '9' then some (c.toNat - 48) else none

/-- The digits at the front of a text. -/
def readDigits (s : List Char) : List Nat × List Char :=
  ((s.takeWhile fun c => (digit? c).isSome).filterMap digit?,
    s.dropWhile fun c => (digit? c).isSome)

/-- The number that decimal digits stand for. -/
def ofDigits (digits : List Nat) : Nat :=
  digits.foldl (fun n d => 10 * n + d) 0

/-- The digits before the point: a zero alone, or digits that do not start
with a zero. -/
def readWhole (s : List Char) : Option (List Nat × List Char) :=
  match readDigits s with
  | ([], _) => none
  | (0 :: _ :: _, _) => none
  | (digits, rest) => some (digits, rest)

/-- The digits after the point, empty when there is no point. -/
def readFraction : List Char → Option (List Nat × List Char)
  | '.' :: s =>
      match readDigits s with
      | ([], _) => none
      | (digits, rest) => some (digits, rest)
  | s => some ([], s)

/-- The exponent, `none` in its place when there is none. -/
def readExponent : List Char → Option (Option Int × List Char)
  | e :: s =>
      if e = 'e' ∨ e = 'E' then
        let (negative, s) := match s with
          | '-' :: s => (true, s)
          | '+' :: s => (false, s)
          | s => (false, s)
        match readDigits s with
        | ([], _) => none
        | (digits, rest) =>
            let n : Int := ofDigits digits
            some (some (if negative then -n else n), rest)
      else some (none, e :: s)
  | [] => some (none, [])

/-- A number behind its sign. -/
def readNumber (negative : Bool) (s : List Char) : Option (Json × List Char) := do
  let (whole, afterWhole) ← readWhole s
  let (fraction, afterFraction) ← readFraction afterWhole
  let (exponent, rest) ← readExponent afterFraction
  let value := ofDigits whole
  let literal := (if negative then ['-'] else []) ++ s.take (s.length - rest.length)
  if !isFiniteDecimal whole fraction (exponent.getD 0) then pure (unreadable, rest)
  else if !fraction.isEmpty || exponent.isSome || (negative && value == 0) then
    pure (real (String.ofList literal), rest)
  else pure (int (if negative then -(value : Int) else value), rest)

/-- The key of a member, `none` in its place when a surrogate in it has no
partner, and the text behind its colon. -/
def readKey : List Char → Option (Option String × List Char)
  | '"' :: s => do
      let (cs, rest) ← readString (s.length + 1) s
      match skipBlanks rest with
      | ':' :: rest => pure (cs.map String.ofList, skipBlanks rest)
      | _ => none
  | _ => none

/-- The member of an object with a key that may have no meaning. -/
def memberUnder : Option String → Json → String × Json
  | some key, value => (key, value)
  | none, value => ("", misnamed value)

/-- A value that may be nested too deep to have a meaning. -/
def ifShallow (depth : Nat) (value : Json) (rest : Option (List Char)) : Json :=
  if depth = 0 then (if rest.isSome then unreadable else broken) else value

mutual
/-- The value at the front of a text, which starts with no blank, and the rest
behind it. At most `depth` further arrays and objects may be nested. -/
def read : (fuel depth : Nat) → List Char → Json × Option (List Char)
  | 0, _, _ => (broken, none)
  | fuel + 1, depth, s =>
      match s with
      | 'n' :: 'u' :: 'l' :: 'l' :: rest => (null, some rest)
      | 't' :: 'r' :: 'u' :: 'e' :: rest => (bool true, some rest)
      | 'f' :: 'a' :: 'l' :: 's' :: 'e' :: rest => (bool false, some rest)
      | '"' :: rest =>
          match readString (rest.length + 1) rest with
          | some (some cs, rest) => (str (String.ofList cs), some rest)
          | some (none, rest) => (unreadable, some rest)
          | none => (broken, none)
      | '[' :: rest =>
          match skipBlanks rest with
          | ']' :: rest => (ifShallow depth (arr []) (some rest), some rest)
          | rest =>
              let (items, rest) := readItems fuel (depth - 1) rest
              (ifShallow depth (arr items) rest, rest)
      | '{' :: rest =>
          match skipBlanks rest with
          | '}' :: rest => (ifShallow depth (obj []) (some rest), some rest)
          | rest =>
              let (members, rest) := readMembers fuel (depth - 1) rest
              (ifShallow depth (obj members) rest, rest)
      | '-' :: rest =>
          match readNumber true rest with
          | some (value, rest) => (value, some rest)
          | none => (broken, none)
      | _ =>
          match readNumber false s with
          | some (value, rest) => (value, some rest)
          | none => (broken, none)
termination_by structural fuel => fuel
/-- The items of an array from one item on, and the rest behind its bracket. -/
def readItems : (fuel depth : Nat) → List Char → List Json × Option (List Char)
  | 0, _, _ => ([broken], none)
  | fuel + 1, depth, s =>
      match read fuel depth s with
      | (item, none) => ([item], none)
      | (item, some rest) =>
          match skipBlanks rest with
          | ']' :: rest => ([item], some rest)
          | ',' :: rest =>
              let (items, rest) := readItems fuel depth (skipBlanks rest)
              (item :: items, rest)
          | _ => ([item, broken], none)
termination_by structural fuel => fuel
/-- The members of an object from one member on, and the rest behind its
brace. -/
def readMembers : (fuel depth : Nat) → List Char → List (String × Json) × Option (List Char)
  | 0, _, _ => ([("", broken)], none)
  | fuel + 1, depth, s =>
      match readKey s with
      | none => ([("", broken)], none)
      | some (key, rest) =>
          match read fuel depth rest with
          | (value, none) => ([memberUnder key value], none)
          | (value, some rest) =>
              match skipBlanks rest with
              | '}' :: rest => ([memberUnder key value], some rest)
              | ',' :: rest =>
                  let (members, rest) := readMembers fuel depth (skipBlanks rest)
                  (memberUnder key value :: members, rest)
              | _ => ([memberUnder key value, ("", broken)], none)
termination_by structural fuel => fuel
end

/-- The value of a whole text, and what follows it. -/
def parse (s : List Char) : Json × Option (List Char) :=
  read (2 * s.length + 2) maxDepth (skipBlanks s)

end Tabletop.Json
