import Tabletop.Proofs.Action.Check
import Tabletop.Proofs.Session.History
import Tabletop.Proofs.Session.Moments
import Tabletop.Script.Host

/-! # Forced moves

A forced move goes past the check of its values and is not recorded. Where every
selection has a value the check fills nothing in, so a move that it accepts is carried
out in the same way without it. What comes after the move takes no notice of the record,
so the record is all that the forced move leaves out.

Main statement: `force_of_submit`.
-/

namespace Tabletop

variable {G : Type}

/-- Where every selection has a value, an accepted move is carried out as it would be
without the check. -/
theorem Action.execute_of_process {a : Action G} {g : G} {dice : Dice} {player : Player}
    {args : Args} {performed : Performed G}
    (answered : ∀ s ∈ a.selections, args.contains s.name)
    (h : a.process g dice player args = .ok (.ok performed)) :
    a.execute g dice player args = .ok performed := by
  obtain ⟨available, checked⟩ := check_of_process h
  have unchanged : a.check g args = (args, none) :=
    Prod.ext (checkAmong_fst_of_contains answered) (congrArg Prod.snd checked :)
  unfold process at h
  rw [if_pos available, unchanged] at h
  dsimp only at h
  cases executes : a.execute g dice player args with
  | error fault =>
      rw [executes] at h
      cases h
  | ok done =>
      rw [executes] at h
      cases h
      rfl

namespace Rules

variable [Game G] {rules : Rules G} {t t' : Table G} {s : Stop G} {move : Move}
  {performed : Performed G}

/-- Where the player may move and the step offers the action, the arguments of the move and
what the step fixes hold a value for every selection of the action. -/
def AnswersAll (rules : Rules G) (t : Table G) (move : Move) : Prop :=
  ∀ s entry action, Stop.findFor t.game move.player (rules.stopsNow t) = .ok (some s) →
    s.step.find? move.name = some entry →
      rules.repertoire.make? move.name t.game move.player = .ok (some action) →
        ∀ selection ∈ action.selections, (entry.fill move.args).contains selection.name

instance : Decidable (rules.AnswersAll t move) :=
  match finds : Stop.findFor t.game move.player (rules.stopsNow t) with
  | .error _ | .ok none => isTrue fun _ _ _ finds' => nomatch finds.symm.trans finds'
  | .ok (some s) =>
      match offered : s.step.find? move.name with
      | none => isTrue fun s' _ _ finds' offered' => by
          obtain ⟨⟩ := finds.symm.trans finds'
          exact nomatch offered.symm.trans offered'
      | some entry =>
          match makes : rules.repertoire.make? move.name t.game move.player with
          | .error _ | .ok none => isTrue fun _ _ _ _ _ makes' => nomatch makes.symm.trans makes'
          | .ok (some action) =>
              decidable_of_iff
                (∀ selection ∈ action.selections, (entry.fill move.args).contains selection.name)
                ⟨fun answered s' entry' action' finds' offered' makes' => by
                  obtain ⟨⟩ := finds.symm.trans finds'
                  obtain ⟨⟩ := offered.symm.trans offered'
                  obtain ⟨⟩ := makes.symm.trans makes'
                  exact answered,
                fun answers => answers s entry action finds offered makes⟩

omit [Game G] in
/-- A move with all values that is accepted at a stop is carried out in the same way without
the check, with its arguments and what the stop fixes. -/
theorem performForced_of_perform {g : G} {dice : Dice} (acts : move.name ≠ ActionStep.pass)
    (answered : ∀ entry action, s.step.find? move.name = some entry →
      rules.repertoire.make? move.name g move.player = .ok (some action) →
        ∀ selection ∈ action.selections, (entry.fill move.args).contains selection.name)
    (performs : rules.perform s g dice move = .ok (.ok performed)) :
    rules.performForced s g dice move = .ok performed ∧
      ∃ entry, s.step.find? move.name = some entry ∧ performed.1.args = entry.fill move.args := by
  unfold perform at performs
  rw [if_neg acts] at performs
  split at performs
  · cases performs
  · rename_i entry offered
    obtain ⟨action, made, processes⟩ := bind_eq_ok.1 performs
    have executes := Action.execute_of_process
      (answered entry action offered (actionOf_eq_ok.1 made)) (Playing.ofChecked_eq_ok.1 processes)
    refine ⟨?_, entry, offered, Action.args_of_execute executes⟩
    have accepted : s.step.accepts move.name := by
      simp [ActionStep.accepts, offered]
    simp only [performForced, accepted, if_true, offered]
    exact bind_eq_ok.2 ⟨action, made, Playing.ofChecked_eq_ok.2 executes⟩

/-- What comes after a move does the same without a record of the move, and leaves the
history alone then. -/
theorem aftermath_of_record {outcome : Outcome}
    (h : (do
      Drive.change fun session => session.record rules.config move
      rules.takeOutcome outcome
      rules.play : Drive G Unit).on t = (.ok (), t')) :
    (do
      rules.takeOutcome outcome
      rules.play : Drive G Unit).on t =
        (.ok (), { t' with session := { t'.session with history := t.session.history } }) := by
  have ignored := Drive.Ignores.bind (rules.takeOutcome_ignores [] (fun _ =>
    (t.session.record rules.config move).history) outcome) (fun _ => rules.play_ignores [] _) t
  have kept := rules.aftermath_keeps outcome t
  rw [Table.mapSession, ← Session.record_eq_withPast] at ignored
  have recorded := ignored.symm.trans h
  rcases ends : (do rules.takeOutcome outcome; rules.play : Drive G Unit).on t with ⟨result, t₁⟩
  rw [ends] at recorded kept
  obtain ⟨rfl, rfl⟩ := Prod.mk.inj recorded
  refine Prod.ext rfl ?_
  rw [← kept]
  rfl

/-- Where moves may be forced, take a move of an action that is accepted with a value for
every selection, given or fixed by the step. From the same table the forced move has a
result as well, and leaves the same game and the same session, apart from the history: that
has the record of the move in the one case, and is left alone in the other. -/
theorem force_of_submit (allowed : rules.config.allowForce) (acts : move.name ≠ ActionStep.pass)
    (answers : rules.AnswersAll t move) (accepted : (rules.submit move).on t = (.ok none, t')) :
    (rules.force move).on t =
        (.ok (), { t' with session := { t'.session with history := t.session.history } }) ∧
      ∃ s entry, Stop.findFor t.game move.player (rules.stopsNow t) = .ok (some s) ∧
        s.step.find? move.name = some entry ∧
        t'.session.history =
          if rules.config.keepHistory then
            t.session.history ++
              [⟨{ move with args := entry.fill move.args },
                  MoveRecord.numberAfter t.session.history⟩]
          else t.session.history := by
  obtain ⟨s, finds, ⟨refusal, -, ⟨⟩, -⟩ | ⟨performed, performs, carries, -⟩⟩ :=
    submit_eq_ok.1 accepted
  obtain ⟨forces, entry, offered, filled⟩ :=
    performForced_of_perform acts (answers s · · finds) performs
  have stop_eq : rules.forcedStop? move t = some s := by
    simp only [forcedStop?, allowed, if_true, finds, Option.some_or]
  obtain ⟨_, t₁, settles, records⟩ := Drive.on_bind_eq_ok.1 carries
  have settled := settleMove_keeps s move performed t
  have recorded := rules.history_of_record { move with args := performed.1.args } performed.1 t₁
  rw [settles] at settled
  rw [records, Session.history_record, settled, filled] at recorded
  refine ⟨?_, s, entry, finds, offered, recorded⟩
  rw [on_force stop_eq, forces]
  dsimp only
  rw [Drive.on_bind, settles]
  dsimp only
  rw [aftermath_of_record records, settled]

end Rules

namespace Duel

open Script (Host)

/-- The second player is to parry. -/
def parry : FollowUp := ⟨⟨1⟩, "parry", .empty, some "Parry?"⟩

/-- The first player strikes with a fixed weapon, and both are marked side by side before
the second one parries. -/
def rules : Rules Host where
  flows := .ofMain (.sequence
    [.node (.act ⟨some fun _ _ => .ok [⟨0⟩], none, none,
        [⟨"strike", [.node (.everyPlayer none [.call fun scene =>
            .ok ⟨.proceed, scene.game.write "marked", scene.dice⟩])],
          Dict.empty.insert "weapon" (.text "sword"), false⟩]⟩),
      .node (.act ⟨none, none, none, [⟨"rest", [], .empty, false⟩]⟩)])
  repertoire :=
    (Dict.empty.insert "strike" fun _ _ => .ok
      { name := "strike"
        selections := [{ name := "weapon", kind := .text none none },
          { name := "strength", kind := .number none none }]
        callbacks := [fun deed => .ok ⟨deed.game.write "struck", deed.dice, [parry], []⟩]
        messages := ["a strike"] })
      |>.insert "parry" (fun _ _ => .ok { name := "parry" })
      |>.insert "rest" fun _ _ => .ok { name := "rest" }
  config := { maxSteps := 8, allowForce := true }

/-- A strike with a value for what the step leaves open. -/
def strike : Move := ⟨⟨0⟩, "strike", Dict.empty.insert "strength" (.number 3)⟩

/-- The table at which the first player has to move. -/
def opening : Table Host :=
  (rules.runAll [.start, .play] ⟨.new rules.config, .fresh 2⟩).2

/-- The strike and the forced strike leave the same table, with the parry under way, apart
from the record. -/
theorem force_of_submit_strike :
    ∃ t' : Table Host, (rules.submit strike).on opening = (.ok none, t') ∧
      t'.session.stack.map (·.flow) = [.followUp 0 parry, .main] ∧
      t'.session.messages = ["a strike"] ∧
      t'.session.history.length = 1 ∧
      (rules.force strike).on opening =
        (.ok (), { t' with session := { t'.session with history := [] } }) := by
  have accepted : ((rules.submit strike).on opening).1 = .ok none := by decide +kernel
  obtain ⟨forces, -⟩ := @Rules.force_of_submit Host _ rules opening _ strike
    rfl (by decide) (by decide +kernel) (Drive.on_eq_of_fst accepted)
  have none_before : opening.session.history = [] := by decide +kernel
  rw [none_before] at forces
  exact ⟨_, Drive.on_eq_of_fst accepted, by decide +kernel, by decide +kernel,
    by decide +kernel, forces⟩

end Duel

end Tabletop
