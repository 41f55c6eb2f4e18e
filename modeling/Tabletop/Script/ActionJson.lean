import Tabletop.Repertoire
import Tabletop.Script.FlowJson

/-! # Described actions

The description of an action is an object with its selections, the callbacks
it runs and the messages that announce it. It is read once, and the action is
made of it for each player who is to act.
-/

namespace Tabletop.Script

/-- The list of a selection. -/
inductive Listing where
  | items (e : Expr)
  /-- The items are worked out when the action is made, without arguments. -/
  | fixed (e : Expr)
  | labeled (choices : List Choice)

/-- A text that is written down or worked out. -/
inductive Wording where
  | written (text : String)
  | computed (e : Expr)

/-- What a described selection is about. -/
inductive SelectionKind where
  | board (items : Expr)
  | choices (listing : Listing)
  | number
  | text
  | button (value : Argument)
  | place (piece : Argument)

/-- A described selection. -/
structure SelectionScript where
  name : String
  kind : SelectionKind
  prompt : Option Wording
  least : Option Expr
  most : Option Expr
  count : Option Expr
  pattern : Option String
  initial : Option String
  area : Option (Int64 × Int64)
  skip : SkipPolicy
  confirm : Option String
  check : Option Expr

/-- A described action. -/
structure ActionScript where
  prompt : Option String
  condition : Option Expr
  selections : List SelectionScript
  callbacks : List Callback
  messages : List String

/-- An expression in an action, whose player is the one it is made for. -/
def derived (e : Expr) (player : Player) : Derived Host Argument :=
  fun h args => h.eval args (some player) e

/-- The number of an expression in an action. -/
def derivedNumber (player : Player) (e : Expr) : Derived Host Int64 :=
  fun h args => numberOf (derived e player h args)

/-- The choices of a selection. -/
def Listing.choices (host : Host) (player : Player) : Listing → Derived Host (List Choice)
  | items e => fun h args => (itemsOf (derived e player h args)).map Choice.ofArgument
  | fixed e =>
      let choices := (itemsOf (derived e player host .empty)).map Choice.ofArgument
      fun _ _ => choices
  | labeled choices => fun _ _ => choices

/-- The prompt of a selection. -/
def Wording.text (player : Player) : Wording → Derived Host String
  | written text => fun _ _ => text
  | computed e => fun h args => (derived e player h args).display

/-- What a selection is about, before its options. -/
def SelectionKind.make (host : Host) (player : Player) : SelectionKind → Selection.Kind Host
  | board items => .board (fun h args => itemsOf (derived items player h args)) none none none
  | choices listing => .choices (listing.choices host player)
  | number => .number none none
  | text => .text none none
  | button value => .button value
  | place piece => .place piece none

/-- The objection of an author's check: a text is one. -/
def objection (player : Player) (e : Expr) : Derived Host (Option String) :=
  fun h args => (derived e player h args).asText

/-- Applies an option, if it is there. -/
def useOption {α β : Type} (option : Option α) (f : β → α → Checked β) (b : β) : Checked β :=
  match option with
  | none => .ok b
  | some a => f b a

/-- The selection of a description, made for a player. -/
def SelectionScript.make (host : Host) (player : Player) (s : SelectionScript) :
    Checked (Selection Host) := do
  let plain : Selection Host :=
    { name := s.name, kind := s.kind.make host player,
      prompt := s.prompt.map (Wording.text player) }
  let number := Option.map (derivedNumber player)
  let selection ← useOption (number s.least) Selection.withLeast plain
  let selection ← useOption (number s.most) Selection.withMost selection
  let selection ← useOption (number s.count) Selection.withCount selection
  let selection ← useOption s.pattern Selection.withPattern selection
  let selection ← useOption s.initial Selection.withInitial selection
  let selection ← useOption s.area (fun s a => s.withArea a.1 a.2) selection
  pure
    { selection with
      skip := s.skip
      confirm := s.confirm
      check := s.check.map (objection player) }

/-- The action of a description, made for a player. -/
def ActionScript.make (s : ActionScript) : ActionMaker Host := fun host player => do
  let selections ← s.selections.mapM (SelectionScript.make host player)
  pure
    { name := "", prompt := s.prompt,
      condition := s.condition.map fun e h => isTrue (derived e player h .empty),
      selections, callbacks := s.callbacks.map actionCallback, messages := s.messages }

/-! ## Reading -/

/-- An entry is read from its value and its label. -/
def choiceOfJson : Json → Reading Choice
  | .arr [value, label] => do
      let value ← Argument.ofJson value
      let label ← label.asString
      pure ⟨value, label⟩
  | _ => Json.unfit

/-- A text is written down, or else it is worked out. -/
def Wording.ofJson : Json → Reading Wording
  | .str text => .ok (written text)
  | j => computed <$> Expr.ofJson j

/-- The list of a selection is read from the first description there is. -/
def Listing.ofJson (j : Json) : Playing Listing := do
  match ← member? j "labeled" (Json.asList choiceOfJson) with
  | some choices => pure (labeled choices)
  | none => do
      let e ← member j "items" Expr.ofJson
      match ← member? j "fixed" Json.asBool with
      | some true => pure (fixed e)
      | _ => pure (items e)

/-- What a selection is about is read from its kind. -/
def SelectionKind.ofJson (kind : String) (j : Json) : Playing SelectionKind :=
  if kind = "board" then board <$> member j "items" Expr.ofJson
  else if kind = "choices" then choices <$> Listing.ofJson j
  else if kind = "number" then pure number
  else if kind = "text" then pure text
  else if kind = "button" then button <$> member j "value" Argument.ofJson
  else if kind = "place" then place <$> member j "piece" Argument.ofJson
  else reading Json.unfit

/-- A selection is read from an object. -/
def SelectionScript.ofJson (j : Json) : Playing SelectionScript := do
  let kind ← SelectionKind.ofJson (← member j "kind" Json.asString) j
  let name ← member j "name" Json.asString
  let prompt ← member? j "prompt" Wording.ofJson
  let least ← member? j "min" Expr.ofJson
  let most ← member? j "max" Expr.ofJson
  let count ← member? j "count" Expr.ofJson
  let pattern ← member? j "pattern" Json.asString
  let initial ← member? j "initial" Json.asString
  let area ← member? j "area" Offer.areaOfJson
  let skip ← member? j "skip" SkipPolicy.ofJson
  let confirm ← member? j "confirm" Json.asString
  let check ← member? j "validate" Expr.ofJson
  pure
    { kind, name, prompt, least, most, count, pattern, initial, area,
      skip := skip.getD .onlyOne, confirm, check }

/-- The items of a member that is an array; without it there are none. -/
def itemsAt (j : Json) (key : String) : Playing (List Json) := do
  pure ((← member? j key (Json.asList .ok)).getD [])

/-- An action is read from an object. -/
def ActionScript.ofJson (j : Json) : Playing ActionScript := do
  let prompt ← member? j "prompt" Json.asString
  let condition ← member? j "condition" Expr.ofJson
  let selections ← (← itemsAt j "selections").mapM SelectionScript.ofJson
  let callbacks ← (← itemsAt j "do").mapM fun item => reading (Statement.scriptOfJson item)
  let messages ← (← itemsAt j "messages").mapM fun item => reading item.asString
  pure { prompt, condition, selections, callbacks, messages }

end Tabletop.Script
