import Tabletop.Fault
import Tabletop.Selection.Offer

/-! # Selections

A selection is one choice a player makes for a move. Its texts, lists and
bounds may depend on the game and on the arguments committed before; `offer`
works them out.

## Implementation notes

An option that makes no sense for the kind of a selection is a fault of the
author. The functions that set an option report it, so a selection never holds
a bound it has no use for.
-/

namespace Tabletop

variable {G : Type}

/-- Something worked out from the game and the arguments so far. -/
abbrev Derived (G α : Type) := G → Args → α

/-- What a selection is about. -/
inductive Selection.Kind (G : Type) where
  /-- Choices on the board; `count` asks for exactly so many of them and goes
  before the bounds. -/
  | board (choices : Derived G (List Argument)) (count least most : Option (Derived G Int64))
  | choices (choices : Derived G (List Choice))
  | number (least most : Option (Derived G Int64))
  | text (pattern : Option Text.Pattern) (initial : Option String)
  | button (value : Argument)
  | place (piece : Argument) (area : Option (Int64 × Int64))

/-- One choice a player makes for a move. -/
structure Selection (G : Type) where
  name : String
  kind : Selection.Kind G
  prompt : Option (Derived G String) := none
  skip : SkipPolicy := .onlyOne
  confirm : Option String := none
  /-- The author's own check, which sees the value among the arguments. -/
  check : Option (Derived G (Option String)) := none

namespace Selection

/-- The selection with a lower bound. -/
def withLeast (s : Selection G) (least : Derived G Int64) : Checked (Selection G) :=
  match s.kind with
  | .number _ most => .ok { s with kind := .number (some least) most }
  | .board choices count _ most => .ok { s with kind := .board choices count (some least) most }
  | _ => .error (.wrongOption "min" .numbersAndBoard s.name)

/-- The selection with an upper bound. -/
def withMost (s : Selection G) (most : Derived G Int64) : Checked (Selection G) :=
  match s.kind with
  | .number least _ => .ok { s with kind := .number least (some most) }
  | .board choices count least _ => .ok { s with kind := .board choices count least (some most) }
  | _ => .error (.wrongOption "max" .numbersAndBoard s.name)

/-- The selection of exactly so many choices on the board. -/
def withCount (s : Selection G) (count : Derived G Int64) : Checked (Selection G) :=
  match s.kind with
  | .board choices _ least most => .ok { s with kind := .board choices (some count) least most }
  | _ => .error (.wrongOption "count" .board s.name)

/-- The selection of texts that a regular expression matches. -/
def withPattern (s : Selection G) (source : String) : Checked (Selection G) :=
  match Text.Pattern.ofSource source with
  | .error defect => .error (.badPattern s.name defect)
  | .ok pattern =>
      match s.kind with
      | .text _ initial => .ok { s with kind := .text (some pattern) initial }
      | _ => .error (.wrongOption "pattern" .text s.name)

/-- The selection with a text to start from. -/
def withInitial (s : Selection G) (initial : String) : Checked (Selection G) :=
  match s.kind with
  | .text pattern _ => .ok { s with kind := .text pattern (some initial) }
  | _ => .error (.wrongOption "initial" .text s.name)

/-- The selection of places inside an area. -/
def withArea (s : Selection G) (columns rows : Int64) : Checked (Selection G) :=
  match s.kind with
  | .place piece _ => .ok { s with kind := .place piece (some (columns, rows)) }
  | _ => .error (.wrongOption "area" .placement s.name)

/-- A number of choices; a negative one counts as zero. -/
def toCount (n : Int64) : Nat := n.toInt.toNat

/-- The bounds on the number of choices on the board. Either bound makes both:
at least one choice, and at most all of them. -/
def boardBounds (available : Nat) (count least most : Option Int64) : Option Nat × Option Nat :=
  match count, least, most with
  | some count, _, _ => (some (toCount count), some (toCount count))
  | none, none, none => (none, none)
  | none, least, most =>
      (some ((least.map toCount).getD 1), some ((most.map toCount).getD available))

/-- What the selection is about, for a game and the arguments so far. -/
def Kind.offer (g : G) (args : Args) : Kind G → Offer.Kind
  | .board list count least most =>
      let items := list g args
      let value? := Option.map fun (bound : Derived G Int64) => bound g args
      let (least, most) := boardBounds items.length (value? count) (value? least) (value? most)
      .board items least most
  | .choices list => .choices (list g args)
  | .number least most =>
      .number ((least.map fun bound => bound g args).getD 1) (most.map fun bound => bound g args)
  | .text pattern initial => .text pattern initial
  | .button value => .button value
  | .place piece area => .place piece area

/-- The offer of the selection, for a game and the arguments so far. -/
def offer (s : Selection G) (g : G) (args : Args) : Offer where
  name := s.name
  prompt := s.prompt.map fun text => text g args
  kind := s.kind.offer g args
  skip := s.skip
  confirm := s.confirm

/-- The objection of the author's own check. -/
def objection? (s : Selection G) (g : G) (args : Args) : Option Refusal :=
  (s.check.bind fun check => check g args).map .custom

/-- What is wrong with the value for this selection among the arguments. -/
def refusal? (s : Selection G) (g : G) (args : Args) : Option Refusal :=
  match args.get? s.name with
  | none => some (.missing s.name)
  | some value => ((s.offer g args).refusal? value).or (s.objection? g args)

end Selection

end Tabletop
