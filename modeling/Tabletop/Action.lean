import Tabletop.Dice
import Tabletop.Move
import Tabletop.Selection
import Tabletop.Text.Template

/-! # Actions

An action is a move made of selections that are answered in order. Answers a
player has no say in are filled in. An accepted move runs the callbacks of the
action and announces itself.
-/

namespace Tabletop

variable {G : Type}

/-- What a callback of an action sees. -/
structure Deed (G : Type) where
  game : G
  dice : Dice
  player : Player
  args : Args

/-- What a callback of an action leaves behind. -/
structure Effect (G : Type) where
  game : G
  dice : Dice
  followUps : List FollowUp := []
  messages : List String := []

/-- A callback that runs when a move is accepted. -/
abbrev ActionCallback (G : Type) := Deed G → Checked (Effect G)

/-- A declared move. -/
structure Action (G : Type) where
  name : String
  prompt : Option String := none
  /-- The action is offered only while this holds. -/
  condition : Option (G → Bool) := none
  selections : List (Selection G) := []
  callbacks : List (ActionCallback G) := []
  /-- Templates of the messages that announce the move. -/
  messages : List String := []

/-- What an accepted move did besides changing the game. -/
structure Outcome where
  /-- The arguments with skipped selections filled in. -/
  args : Args
  followUps : List FollowUp
  messages : List String
  deriving DecidableEq

namespace Action

/-- The action is offered at the moment. -/
def isAvailable (a : Action G) (g : G) : Bool :=
  a.condition.all fun holds => holds g

/-- The first selection to be answered, and the arguments with the skipped
selections before it filled in. -/
def nextAmong (g : G) : List (Selection G) → Args → Args × Option (Selection G × Offer)
  | [], args => (args, none)
  | s :: rest, args =>
      if args.contains s.name then nextAmong g rest args
      else
        let offer := s.offer g args
        match offer.skipped? with
        | some value => nextAmong g rest (args.insert s.name value)
        | none => (args, some (s, offer))

/-- What the player has to answer next. -/
def nextOffer (a : Action G) (g : G) (args : Args) : Args × Option Offer :=
  let (args, next) := nextAmong g a.selections args
  (args, next.map (·.2))

/-- Checks selections in order, filling in the skipped ones. The first refusal
ends the check. -/
def checkAmong (g : G) : List (Selection G) → Args → Args × Option Refusal
  | [], args => (args, none)
  | s :: rest, args =>
      if args.contains s.name then
        match s.refusal? g args with
        | some refusal => (args, some refusal)
        | none => checkAmong g rest args
      else
        match (s.offer g args).skipped? with
        | none => (args, some (.missing s.name))
        | some value =>
            let args := args.insert s.name value
            match s.refusal? g args with
            | some refusal => (args, some refusal)
            | none => checkAmong g rest args

/-- Checks the arguments of a move and fills in the skipped ones. -/
def check (a : Action G) (g : G) (args : Args) : Args × Option Refusal :=
  checkAmong g a.selections args

/-- Runs callbacks one after the other and gathers what they leave behind. -/
def runCallbacks (player : Player) (args : Args) :
    List (ActionCallback G) → Effect G → Checked (Effect G)
  | [], done => .ok done
  | callback :: rest, done => do
      let effect ← callback { game := done.game, dice := done.dice, player, args }
      runCallbacks player args rest
        { effect with
          followUps := done.followUps ++ effect.followUps
          messages := done.messages ++ effect.messages }

/-- Runs the action without any check. -/
def execute (a : Action G) (g : G) (dice : Dice) (player : Player) (args : Args) :
    Checked (Outcome × G × Dice) := do
  let effect ← runCallbacks player args a.callbacks { game := g, dice }
  let announced := a.messages.map fun template => Text.render template player args
  pure
    ({ args, followUps := effect.followUps, messages := effect.messages ++ announced },
      effect.game, effect.dice)

/-- Runs the action if it is offered and its arguments are accepted. -/
def process (a : Action G) (g : G) (dice : Dice) (player : Player) (args : Args) :
    Checked (Except Refusal (Outcome × G × Dice)) :=
  if a.isAvailable g then
    match a.check g args with
    | (_, some refusal) => .ok (.error refusal)
    | (args, none) => .ok <$> a.execute g dice player args
  else .ok (.error (.unavailable a.name))

end Action

end Tabletop
