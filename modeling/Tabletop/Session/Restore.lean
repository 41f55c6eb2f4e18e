import Tabletop.Flow.Fit
import Tabletop.Session

/-! # Saving and restoring

A snapshot is taken up only if every flow under way is known and its trail
fits. Otherwise the session stays as it is.
-/

namespace Tabletop

variable {G : Type}

namespace Session

/-- Where the game stands. -/
def snapshot (s : Session) : Snapshot where
  status := s.status
  stack := s.stack
  dice := s.dice.state
  nextFollowUp := s.followUps.next
  history := s.history

/-- The follow-ups under way in some flows, taken up from the bottom. -/
def followUpsOf (stack : List Activation) : FollowUps :=
  stack.foldr
    (fun a followUps =>
      match a.flow with
      | .followUp id f => followUps.restore id f
      | _ => followUps)
    .empty

/-- Whether there may be numbers after those of the follow-ups under way in some
flows. -/
def numbersGoOn (overflow : Overflow) (stack : List Activation) : Checked Unit :=
  stack.reverse.forM fun a =>
    match a.flow with
    | .followUp id _ => FollowUps.goOn overflow id
    | _ => .ok ()

/-- The session that a snapshot was taken of. -/
def ofSnapshot (s : Snapshot) : Session where
  status := s.status
  stack := s.stack
  dice := .ofState s.dice
  followUps := (followUpsOf s.stack).raise s.nextFollowUp
  history := s.history
  messages := []

end Session

namespace Rules

variable [Game G]

/-- The flow that a saved activation is of. A follow-up tells its own. -/
def savedFlow (rules : Rules G) (followUps : FollowUps) (id : FlowId) : Playing (Flow G) :=
  match id with
  | .followUp number f =>
      if rules.repertoire.contains f.name then .ok (f.flow number)
      else .error (.unknownAction id.display f.name)
  | id => rules.flows.get followUps id

/-- Checks a saved activation. -/
def checkSaved (rules : Rules G) (followUps : FollowUps) (a : Activation) : Playing Unit := do
  let flow ← rules.savedFlow followUps a.flow
  (flow.fit a.trail).mapError (.invalidTrail a.flow.display)

/-- Checks a snapshot, the flows under way from the bottom up. -/
def checkSnapshot (rules : Rules G) (followUps : FollowUps) (s : Snapshot) : Playing Unit :=
  if s.status = .playing ∧ s.stack.isEmpty then
    .error (.invalidTrail FlowId.mainName .noFlow)
  else s.stack.reverse.forM (rules.checkSaved followUps)

/-- Checks a snapshot, and then whether its follow-ups can be counted on. -/
def checkRestore (rules : Rules G) (followUps : FollowUps) (s : Snapshot) (overflow : Overflow) :
    Playing Unit := do
  rules.checkSnapshot followUps s
  Session.numbersGoOn overflow s.stack

/-- Takes up a game where a snapshot was taken. -/
def restore (rules : Rules G) (s : Snapshot) (overflow : Overflow := .faults) : Drive G Unit := do
  rules.checkRestore (← Drive.session).followUps s overflow
  Drive.change fun _ => .ofSnapshot s

/-- Takes up a game from the text of a snapshot. -/
def restoreText (rules : Rules G) (text : String) (overflow : Overflow := .faults) :
    Drive G Unit := do
  match Snapshot.ofText text with
  | .ok s => rules.restore s overflow
  | .error reason => throw (.unreadable reason)

end Rules

end Tabletop
