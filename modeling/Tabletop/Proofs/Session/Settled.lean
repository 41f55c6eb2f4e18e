import Tabletop.Proofs.Session.Rest
import Tabletop.Proofs.Session.Resting
import Tabletop.Script.Host

/-! # Settled games

Play that has a result leaves the table at rest, and a table at rest stays at rest under
any limit on the units of play. So a second play has a result as well, takes a single
unit, and does nothing.

Main statement: `play_again`.
-/

namespace Tabletop

namespace Rules

variable {G : Type} [Game G] {rules : Rules G} {t t' : Table G}

/-- The limit on the units of play has no part in whether a table is at rest. -/
theorem rests_within {units : Nat} : (rules.within units).Rests t ↔ rules.Rests t := by
  constructor
  · rintro (status_eq | ⟨status_eq, on_top, found, idle, stay⟩)
    · exact .finished status_eq
    · exact .waiting status_eq on_top found idle stay
  · rintro (status_eq | ⟨status_eq, on_top, found, idle, stay⟩)
    · exact .finished status_eq
    · exact .waiting status_eq on_top found idle stay

/-- A unit of play does nothing to a table at rest: the game is over, or waits. -/
theorem Rests.playOne_eq (h : rules.Rests t) :
    rules.playOne.on t =
      (.ok (if t.session.status = .finished then .complete else .awaiting), t) := by
  cases h with
  | finished status_eq =>
      simp [playOne, Drive.on_bind, Drive.on_session, status_eq, Drive.on_pure]
  | waiting status_eq on_top found idle stay =>
      rw [playOne_of_idle status_eq on_top found idle, status_eq]
      rfl

/-- Under a limit that leaves room for a unit, play does nothing to a table at rest. -/
theorem Rests.play_within (h : rules.Rests t) {units : Nat} (room : 0 < units) :
    (rules.within units).play.on t = (.ok (), t) := by
  obtain ⟨units, rfl⟩ := Nat.exists_eq_succ_of_ne_zero (Nat.pos_iff_ne_zero.1 room)
  exact (rests_within.2 h).playWithin_eq units

/-- Play within no units has no result. -/
theorem maxSteps_pos_of_play (plays : rules.play.on t = (.ok (), t')) :
    0 < rules.config.maxSteps := by
  refine Nat.pos_of_ne_zero fun none => ?_
  rw [play, none] at plays
  cases plays

/-- A game that was played until a player has to move or the game is over is settled: to
play again has a result and leaves the game and the whole session as they were, and one
unit of play is room enough for it. -/
theorem play_again (plays : rules.play.on t = (.ok (), t')) :
    rules.play.on t' = (.ok (), t') ∧
      rules.playOne.on t' =
        (.ok (if t'.session.status = .finished then .complete else .awaiting), t') ∧
      ∀ units, 0 < units → (rules.within units).play.on t' = (.ok (), t') := by
  have rests := rests_of_play plays
  exact ⟨rests.play_within (maxSteps_pos_of_play plays), rests.playOne_eq,
    fun units => rests.play_within⟩

end Rules

namespace Evening

open Script (Host)

/-- A callback that writes a line. -/
def tells (line : String) : Step Host (Flow Host) :=
  .call fun scene => .ok ⟨.proceed, scene.game.write line, scene.dice⟩

/-- A step with one action. -/
def offers (name : String) : Step Host (Flow Host) :=
  .node (.act ⟨none, none, none, [⟨name, [], .empty, false⟩]⟩)

/-- Two players are greeted side by side, nobody can haunt, a round is run, and then a
player may look. -/
def rules : Rules Host where
  flows :=
    { main := .sequence
        [.node (.everyPlayer none [tells "greeted"]), offers "haunt",
          .call fun scene => .ok ⟨.subflow ⟨"round", .empty⟩, scene.game, scene.dice⟩,
          offers "look"]
      subflows := Dict.empty.insert "round" (.sequence [offers "haunt", tells "served"]) }
  repertoire :=
    (Dict.empty.insert "haunt" fun _ _ => .ok { name := "haunt", condition := some fun _ => false })
      |>.insert "look" fun _ _ => .ok { name := "look" }
  config := { maxSteps := 12 }

/-- The trail at which a flow is entered. -/
def entered (flow : Flow Host) : Trail :=
  match flow.reset (Host.fresh 2) (.ofArgs .empty) with
  | .ok trail => trail
  | .error _ => .nil

/-- The start of the evening, with a follow-up under way. -/
def haunted : Snapshot where
  status := .playing
  stack :=
    [⟨.followUp 0 ⟨⟨1⟩, "haunt", .empty, none⟩, .empty,
        entered (FollowUp.flow ⟨⟨1⟩, "haunt", .empty, none⟩ 0)⟩,
      ⟨.main, .empty, entered rules.flows.main⟩]
  dice := Dice.state (.new 7)
  nextFollowUp := 1
  history := []

/-- A play that leaves a follow-up, goes through branches and skipped steps and a subflow,
and comes to rest at the last step. -/
theorem play_again_haunted :
    ∃ t t' : Table Host,
      (rules.restore haunted).on ⟨.new rules.config, .fresh 2⟩ = (.ok (), t) ∧
        t.session.stack.length = 2 ∧
        rules.play.on t = (.ok (), t') ∧
        t'.game.log = ["served", "greeted", "greeted"] ∧
        t'.session.stack.map (·.flow) = [.main] ∧ t'.session.status = .playing ∧
        rules.play.on t' = (.ok (), t') := by
  have restores : ((rules.restore haunted).on ⟨.new rules.config, .fresh 2⟩).1 = .ok () := by
    decide +kernel
  have plays : (rules.play.on
      ((rules.restore haunted).on ⟨.new rules.config, .fresh 2⟩).2).1 = .ok () := by
    decide +kernel
  exact ⟨_, _, Drive.on_eq_of_fst restores, by decide +kernel, Drive.on_eq_of_fst plays,
    by decide +kernel, by decide +kernel, by decide +kernel,
    (Rules.play_again (Drive.on_eq_of_fst plays)).1⟩

end Evening

end Tabletop
