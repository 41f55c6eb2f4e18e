import Tabletop.Refusal
import Tabletop.Selection.Combinations
import Tabletop.Text.Pattern

/-! # Offers

An offer is a selection put to a player: its texts and bounds are worked out
for the arguments committed so far. It says which values it accepts, lists
them where that is feasible, and picks the value itself where there is nothing
to choose.
-/

namespace Tabletop

/-- When a selection is skipped and its value filled in. -/
inductive SkipPolicy where
  | never
  /-- When one value is legal. -/
  | onlyOne
  /-- Whenever a value can be picked without the player. -/
  | always
  deriving DecidableEq, Repr, Inhabited

/-- An entry of a list to choose from. -/
structure Choice where
  value : Argument
  label : String
  deriving DecidableEq, Repr

/-- An entry labelled with its own text. -/
def Choice.ofArgument (value : Argument) : Choice := ⟨value, value.display⟩

/-- What an offer is about, with its bounds. -/
inductive Offer.Kind where
  /-- One of the choices on the board, or a list of them if there is a bound
  on their number. -/
  | board (choices : List Argument) (least most : Option Nat)
  | choices (choices : List Choice)
  | number (least : Int64) (most : Option Int64)
  | text (pattern : Option Text.Pattern) (initial : Option String)
  | button (value : Argument)
  /-- A column and a row, inside the area if there is one. -/
  | place (piece : Argument) (area : Option (Int64 × Int64))
  deriving DecidableEq

/-- A selection with everything worked out. -/
structure Offer where
  name : String
  prompt : Option String
  kind : Offer.Kind
  skip : SkipPolicy
  confirm : Option String
  deriving DecidableEq

namespace Offer

/-- Wider ranges of numbers are not listed. -/
def maxNumbers : Int64 := 100

/-- Larger sets of combinations are not listed. -/
def maxCombinations : Nat := 1000

/-- Several choices on the board are to be picked. -/
def isMulti (o : Offer) : Bool :=
  match o.kind with
  | .board _ least most => least.isSome || most.isSome
  | _ => false

/-- The choice is made on the board. -/
def isBoard (o : Offer) : Bool :=
  match o.kind with
  | .board .. => true
  | _ => false

/-- The value, if there is no real choice. -/
def forced? (o : Offer) : Option Argument :=
  match o.kind with
  | .button value => some value
  | .board [value] none none => some value
  | .choices [choice] => some choice.value
  | .choices (choice :: _) => if o.skip = .always then some choice.value else none
  | .number least (some most) => if least = most then some (.number least) else none
  | _ => none

/-- The value that is filled in if the selection is to be skipped. -/
def skipped? (o : Offer) : Option Argument :=
  match o.skip with
  | .never => none
  | .onlyOne | .always => o.forced?

/-- Some value may be accepted. -/
def isPossible (o : Offer) : Bool :=
  match o.kind with
  | .choices choices => !choices.isEmpty
  | .board choices (some least) (some most) => least ≤ most && least ≤ choices.length
  | .board choices _ _ => !choices.isEmpty
  | .number least (some most) => least ≤ most
  | .number _ none | .text .. | .button _ | .place .. => true

/-- The legal values are few enough to be listed. -/
def isBounded (o : Offer) : Bool :=
  match o.kind with
  | .choices _ => true
  | .board choices (some least) (some most) =>
      combinationCount choices.length least most ≤ maxCombinations
  | .board .. => true
  | .number least (some most) => saturatingSub most least < maxNumbers
  | .number _ none | .text .. | .button _ | .place .. => false

/-- The numbers from `least` to `most`. -/
def numbersBetween (least most : Int64) : List Int64 :=
  (List.range (most.toInt - least.toInt + 1).toNat).map fun (i : Nat) =>
    Int64.ofInt (least.toInt + i)

/-- The legal values of a possible offer that can list them; none otherwise.
Lists of choices come by size first, then in the order of their places. -/
def options (o : Offer) : List Argument :=
  if o.isBounded && o.isPossible then
    match o.kind with
    | .choices choices => choices.map (·.value)
    | .board choices (some least) (some most) =>
        ((sizesBetween least (min most choices.length)).flatMap (combinations choices)).map .list
    | .board choices _ _ => choices
    | .number least (some most) => (numbersBetween least most).map .number
    | .number _ none | .text .. | .button _ | .place .. => []
  else []

/-- What is wrong with a list of choices on the board. -/
def listRefusal? (name : String) (choices : List Argument) (least most : Nat)
    (items : List Argument) : Option Refusal :=
  if items.length < least ∨ most < items.length then some (.wrongCount least most name)
  else
    match items.find? fun item => !choices.contains item with
    | some item => some (.notOnBoard item name)
    | none => if items.Nodup then none else some (.repeated name)

/-- A column and a row lie inside an area. -/
def isInside (column row : Int64) (area : Int64 × Int64) : Bool :=
  0 ≤ column && 0 ≤ row && column < area.1 && row < area.2

/-- What is wrong with a value, if anything. -/
def refusal? (o : Offer) (value : Argument) : Option Refusal :=
  match o.kind with
  | .choices choices =>
      if choices.any fun choice => choice.value == value then none
      else some (.notListed value o.name)
  | .board choices none none =>
      if choices.contains value then none else some (.notOnBoard value o.name)
  | .board choices least most =>
      match value.asList with
      | none => some (.notAList o.name)
      | some items =>
          listRefusal? o.name choices (least.getD 1) (most.getD choices.length) items
  | .number least most =>
      match value.asNumber with
      | none => some (.notANumber o.name)
      | some n =>
          if n < least then some (.tooSmall least o.name)
          else
            match most with
            | some most => if most < n then some (.tooLarge most o.name) else none
            | none => none
  | .text pattern _ =>
      match value.asText with
      | none => some (.notText o.name)
      | some text =>
          if pattern.all fun p => p.isMatch text then none else some (.noMatch text o.name)
  | .button expected => if expected = value then none else some (.notListed value o.name)
  | .place _ area =>
      match value.asList.map (·.filterMap Argument.asNumber) with
      | some [column, row] =>
          if area.all (isInside column row) then none else some (.outside o.name)
      | _ => some (.notAPlace o.name)

/-- The smallest and the largest number, with one more number. -/
def widen (bounds : Option (Int64 × Int64)) (n : Int64) : Option (Int64 × Int64) :=
  match bounds with
  | none => some (n, n)
  | some (low, high) => some (if n < low then n else low, if high < n then n else high)

/-- The smallest and the largest of some numbers. -/
def numberBounds? (numbers : List Int64) : Option (Int64 × Int64) := numbers.foldl widen none

/-- The offer narrowed to what is needed for some of its values. -/
def restrict (o : Offer) (viable : List Argument) : Offer :=
  let kind := match o.kind with
    | .choices choices => .choices (choices.filter fun choice => viable.contains choice.value)
    | .board choices none none => .board (choices.filter viable.contains) none none
    | .board choices least most =>
        let lists := viable.filterMap Argument.asList
        .board (choices.filter fun choice => lists.any fun items => items.contains choice)
          least most
    | .number least most =>
        match numberBounds? (viable.filterMap Argument.asNumber) with
        | some (low, high) => .number low (some high)
        | none => .number least most
    | kind => kind
  { o with kind }

end Offer

end Tabletop
