import Tabletop.Argument

/-! # Signals and requests

A step callback asks for what comes next, and driving a node by one unit ends
in a signal. Interrupts are meant for the nearest loop; every other node hands
them on.
-/

namespace Tabletop

/-- What is asked of the nearest loop. -/
inductive Interrupt where
  /-- Go on with the next iteration. -/
  | skipOn
  /-- Start the current iteration again. -/
  | again
  /-- Leave the loop. -/
  | leave
  deriving DecidableEq, Repr

/-- The result of driving a node by one unit. -/
inductive Signal where
  /-- One unit ran, and there is more to do. -/
  | moved
  /-- Nothing can run before a player moves. -/
  | awaiting
  /-- The node is finished. -/
  | complete
  | interrupt (i : Interrupt)
  deriving DecidableEq, Repr

/-- A request to run a named flow before anything else. -/
structure SubflowCall where
  name : String
  args : Args
  deriving DecidableEq

/-- What a step callback asks for. -/
inductive Control where
  | proceed
  | interrupt (i : Interrupt)
  /-- Go on, after the named flow has run. -/
  | subflow (call : SubflowCall)
  deriving DecidableEq

/-- How an interrupt is called in texts. -/
def Interrupt.display : Interrupt → String
  | skipOn => "continue"
  | again => "repeat"
  | leave => "break"

/-- How a signal is called in texts. -/
def Signal.display : Signal → String
  | moved => "ok"
  | awaiting => "awaiting"
  | complete => "complete"
  | interrupt i => i.display

namespace Control

/-- The signal of the step whose callback asks for this. -/
def signal : Control → Signal
  | proceed | subflow _ => .complete
  | interrupt i => .interrupt i

/-- The flows that are asked for. -/
def calls : Control → List SubflowCall
  | subflow call => [call]
  | proceed | interrupt _ => []

end Control

end Tabletop
