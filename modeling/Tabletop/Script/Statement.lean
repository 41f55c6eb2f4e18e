import Tabletop.Action
import Tabletop.Flow
import Tabletop.Script.Host

/-! # Statements

A callback of a described game is a list of statements. They run in order up to
the first one that asks for what comes next.
-/

namespace Tabletop.Script

/-- A statement. -/
inductive Statement where
  | set (var : String) (value : Expr)
  | add (var : String) (amount : Expr)
  | push (var : String) (item : Expr)
  | log (line : Expr)
  | roll (var : String) (low high : Expr)
  | branch (condition : Expr) (yes no : List Statement)
  | stop (control : Control)
  | subflow (name : String) (args : List (String × Expr))
  | followUp (who : Expr) (name : String) (args : List (String × Expr)) (prompt : Option String)
  | announce (template : String)
  deriving Inhabited

/-- A callback. -/
abbrev Callback := List Statement

/-- Named expressions as arguments. -/
def argsOf (env : Env) (args : List (String × Expr)) : Args :=
  Dict.ofList (args.map fun a => (a.1, a.2.eval env))

/-- Draws a number for a variable. -/
def rollFor (var : String) (low high : Int64) (done : Effect Host) : Checked (Effect Host) := do
  let (value, dice) ← done.dice.roll low high
  pure { done with game := done.game.set var (.number value), dice }

namespace Statement

/-- The effect of a statement that takes up no control, other than a roll. -/
def effect (args : Args) (player : Option Player) (s : Statement) (done : Effect Host) :
    Effect Host :=
  let host := done.game
  let env := host.env args player
  match s with
  | set var value => { done with game := host.set var (value.eval env) }
  | add var amount =>
      let sum := saturatingAdd (numberOf ((host.vars.get? var).getD (.number 0)))
        (numberOf (amount.eval env))
      { done with game := host.set var (.number sum) }
  | push var item =>
      let items := ((host.vars.get? var).map itemsOf).getD []
      { done with game := host.set var (.list (items ++ [item.eval env])) }
  | log line => { done with game := host.write (line.eval env).display }
  | followUp who name params prompt =>
      match (who.eval env).asPlayer with
      | none => done
      | some player =>
          let followUp : FollowUp := { player, name, args := argsOf env params, prompt }
          { done with followUps := done.followUps ++ [followUp] }
  | announce template =>
      match player with
      | none => done
      | some player =>
          { done with messages := done.messages ++ [Text.render template player args] }
  | _ => done

mutual
/-- Runs a statement. -/
def run (args : Args) (player : Option Player) :
    Statement → Effect Host → Checked (Option Control × Effect Host)
  | roll var low high, done => do
      let value e := numberOf (done.game.eval args player e)
      let done ← rollFor var (value low) (value high) done
      pure (none, done)
  | branch condition yes no, done =>
      if isTrue (done.game.eval args player condition) then runAll args player yes done
      else runAll args player no done
  | stop control, done => .ok (some control, done)
  | subflow name params, done =>
      .ok (some (.subflow ⟨name, argsOf (done.game.env args player) params⟩), done)
  | s, done => .ok (none, s.effect args player done)
termination_by structural s => s
/-- Runs statements up to the first one that takes up control. -/
def runAll (args : Args) (player : Option Player) :
    List Statement → Effect Host → Checked (Option Control × Effect Host)
  | [], done => .ok (none, done)
  | s :: rest, done => do
      match ← s.run args player done with
      | (some control, done) => pure (some control, done)
      | (none, done) => runAll args player rest done
termination_by structural ss => ss
end

end Statement

/-- A script as a callback of a step. There it can neither announce anything
nor offer a follow-up. -/
def stepCallback (script : Callback) : StepCallback Host := fun scene => do
  let (control, done) ←
    Statement.runAll scene.args scene.player script { game := scene.game, dice := scene.dice }
  pure { control := control.getD .proceed, game := done.game, dice := done.dice }

/-- A script as a callback of an action. Control it takes up only ends it. -/
def actionCallback (script : Callback) : ActionCallback Host := fun deed => do
  let (_, done) ←
    Statement.runAll deed.args (some deed.player) script { game := deed.game, dice := deed.dice }
  pure done

namespace Statement

/-- Named expressions are read from an object. -/
def argsOfJson : Json → Reading (List (String × Expr))
  | .obj members => members.mapM fun m => do
      let e ← Expr.ofJson m.2
      pure (m.1, e)
  | _ => Json.unfit

/-- A statement without statements in it is read from its name and what
follows. -/
def ofItems (name : String) (items : List Json) : Reading Statement :=
  match items with
  | [] =>
      if name = "proceed" then .ok (stop .proceed)
      else if name = "continue" then .ok (stop (.interrupt .skipOn))
      else if name = "repeat" then .ok (stop (.interrupt .again))
      else if name = "break" then .ok (stop (.interrupt .leave))
      else Json.unfit
  | [e] =>
      if name = "log" then log <$> Expr.ofJson e
      else if name = "message" then announce <$> e.asString
      else Json.unfit
  | [var, e] => do
      let var ← var.asString
      if name = "set" then set var <$> Expr.ofJson e
      else if name = "add" then add var <$> Expr.ofJson e
      else if name = "push" then push var <$> Expr.ofJson e
      else if name = "subflow" then subflow var <$> argsOfJson e
      else Json.unfit
  | [var, low, high] => do
      if name = "roll" then
        pure (roll (← var.asString) (← Expr.ofJson low) (← Expr.ofJson high))
      else Json.unfit
  | [who, action, args, prompt] => do
      if name = "follow_up" then
        pure (followUp (← Expr.ofJson who) (← action.asString) (← argsOfJson args)
          (← prompt.nullable Json.asString))
      else Json.unfit
  | _ => Json.unfit

mutual
/-- A statement is read from an array that starts with its name. -/
def ofJson : Json → Reading Statement
  | .arr items => ofTagged items
  | _ => Json.unfit
termination_by structural j => j
/-- A statement is read from its name and what follows it. -/
def ofTagged : List Json → Reading Statement
  | .str name :: items =>
      if name = "if" then ofBranch items else ofItems name items
  | _ => Json.unfit
termination_by structural items => items
/-- A choice between statements; the second ones may be missing. -/
def ofBranch : List Json → Reading Statement
  | condition :: yes :: no => do
      let condition ← Expr.ofJson condition
      let yes ← scriptOfJson yes
      let no ← ofOtherwise no
      pure (branch condition yes no)
  | _ => Json.unfit
termination_by structural items => items
/-- The second statements of a choice. -/
def ofOtherwise : List Json → Reading (List Statement)
  | [] => .ok []
  | no :: _ => scriptOfJson no
termination_by structural items => items
/-- Statements are read from an array. -/
def scriptOfJson : Json → Reading (List Statement)
  | .arr items => scriptOfItems items
  | _ => Json.unfit
termination_by structural j => j
/-- Statements are read in order. -/
def scriptOfItems : List Json → Reading (List Statement)
  | [] => .ok []
  | item :: rest => do
      let s ← ofJson item
      let ss ← scriptOfItems rest
      pure (s :: ss)
termination_by structural items => items
end

end Statement

end Tabletop.Script
