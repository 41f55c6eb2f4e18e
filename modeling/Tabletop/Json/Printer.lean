import Tabletop.Json.Basic

/-! # Writing JSON

Values are written without blanks, the members of an object in their order.
In a string the quotation mark, the backslash and the characters below the
blank are escaped; every other character stands for itself.
-/

namespace Tabletop.Json

/-- The lower-case hexadecimal digit of a number below 16. -/
def hexDigit (n : Nat) : Char :=
  if n < 10 then Char.ofNat (48 + n) else Char.ofNat (87 + n)

/-- The written form of one character of a string. -/
def escapeChar (c : Char) : List Char :=
  if c = '"' then ['\\', '"']
  else if c = '\\' then ['\\', '\\']
  else if c = '\n' then ['\\', 'n']
  else if c = '\r' then ['\\', 'r']
  else if c = '\t' then ['\\', 't']
  else if c = '\x08' then ['\\', 'b']
  else if c = '\x0c' then ['\\', 'f']
  else if c.toNat < 32 then
    ['\\', 'u', '0', '0', hexDigit (c.toNat / 16), hexDigit (c.toNat % 16)]
  else [c]

/-- A string between quotation marks. -/
def renderString (s : String) : List Char :=
  '"' :: s.toList.flatMap escapeChar ++ ['"']

/-- An integer in decimal. -/
def renderInt (n : Int) : List Char :=
  if n < 0 then '-' :: Nat.toDigits 10 n.natAbs else Nat.toDigits 10 n.natAbs

mutual
/-- The text of a value. -/
def render : Json → List Char
  | null => ['n', 'u', 'l', 'l']
  | bool true => ['t', 'r', 'u', 'e']
  | bool false => ['f', 'a', 'l', 's', 'e']
  | int n => renderInt n
  | real literal => literal.toList
  | str s => renderString s
  | arr items => '[' :: renderItems items
  | obj members => '{' :: renderMembers members
  | unreadable | misnamed _ | broken => []
termination_by structural j => j
/-- The items of an array and its closing bracket. -/
def renderItems : List Json → List Char
  | [] => [']']
  | item :: rest => item.render ++ renderRest rest
termination_by structural items => items
/-- The items after the first, each behind a comma, and the closing bracket. -/
def renderRest : List Json → List Char
  | [] => [']']
  | item :: rest => ',' :: item.render ++ renderRest rest
termination_by structural items => items
/-- The members of an object and its closing brace. -/
def renderMembers : List (String × Json) → List Char
  | [] => ['}']
  | (key, value) :: rest => renderString key ++ ':' :: value.render ++ renderMore rest
termination_by structural members => members
/-- The members after the first, each behind a comma, and the closing brace. -/
def renderMore : List (String × Json) → List Char
  | [] => ['}']
  | (key, value) :: rest => ',' :: renderString key ++ ':' :: value.render ++ renderMore rest
termination_by structural members => members
end

/-- The text of a value as a string. -/
def text (j : Json) : String := String.ofList j.render

end Tabletop.Json
