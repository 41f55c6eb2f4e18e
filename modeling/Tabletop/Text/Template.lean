import Tabletop.Argument
import Tabletop.Text.Blank

/-! # Message templates

A template names arguments between double braces, blanks around the name being
allowed. Rendering puts the texts of the arguments in the places of their
names, once and from left to right; the text that is put in is not looked at
again.
-/

namespace Tabletop.Text

/-- A character of a name between double braces. -/
def isKeyChar (c : Char) : Bool :=
  c.isAlphanum || c == '_' || c == '.'

/-- The name between double braces at the front of a text, and the text behind
the braces. -/
def placeholder? : List Char → Option (List Char × List Char)
  | '\x7b' :: '\x7b' :: s =>
      let s := s.dropWhile isBlank
      let key := s.takeWhile isKeyChar
      if key.isEmpty then none
      else
        match (s.drop key.length).dropWhile isBlank with
        | '\x7d' :: '\x7d' :: rest => some (key, rest)
        | _ => none
  | _ => none

/-- The text that a name stands for: the argument of that name, or else the
acting player under the name `player`. -/
def substitute? (player : Player) (args : Args) (key : String) : Option String :=
  match args.get? key with
  | some value => some value.display
  | none => if key = "player" then some player.display else none

/-- Renders a text behind its first `skip` characters. -/
def renderFrom (player : Player) (args : Args) : (skip : Nat) → List Char → List Char
  | _, [] => []
  | skip + 1, _ :: s => renderFrom player args skip s
  | 0, c :: s =>
      match placeholder? (c :: s) with
      | some (key, rest) =>
          let skip := s.length - rest.length
          match substitute? player args (String.ofList key) with
          | some text => text.toList ++ renderFrom player args skip s
          | none => (c :: s).take (skip + 1) ++ renderFrom player args skip s
      | none => c :: renderFrom player args 0 s

/-- A template with the names in it filled in. A name that stands for nothing
stays as it is written. -/
def render (template : String) (player : Player) (args : Args) : String :=
  String.ofList (renderFrom player args 0 template.toList)

end Tabletop.Text
