import Tabletop.Proofs.Session.Past
import Tabletop.Proofs.Session.Runs
import Tabletop.Script.Host

/-! # Saving and restoring

A snapshot of a table that a run has led to can be taken up by any other session
under the same rules, and the game then goes on as it would have done. Only messages
that nobody has taken before the snapshot are lost.

Main statement: `restore_exact`.
-/

namespace Tabletop

variable {G : Type} [Game G]

/-- Replies to the same operations on two tables, the first of which holds old
messages besides those of the second. All replies are the same, except that old
messages come first where messages are drained for the first time, if they were not
forgotten until then. -/
inductive SameReplies (old : List String) :
    List (Operation G) → List (Playing Reply) → List (Playing Reply) → Prop
  | same (ops replies) : SameReplies old ops replies replies
  | reply {op ops replies replies'} (other : op ≠ .drain) (reply : Playing Reply)
      (later : SameReplies old ops replies replies') :
      SameReplies old (op :: ops) (reply :: replies) (reply :: replies')
  | drain (ops messages replies) :
      SameReplies old (.drain :: ops) (.ok (.messages (old ++ messages)) :: replies)
        (.ok (.messages messages) :: replies)

namespace Operation

/-- All operations but the taking of messages take no notice of them. -/
theorem run_forgetful (rules : Rules G) {op : Operation G} (other : op ≠ .drain) :
    (op.run rules).Forgetful := by
  cases op with
  | start => exact .bind_pure (.of_ignores fun old => rules.start_ignores old id) _
  | playOne => exact .bind_pure (.of_ignores fun old => rules.playOne_ignores old id) _
  | play => exact .bind_pure (.of_ignores fun old => rules.play_ignores old id) _
  | submit move => exact .bind_pure (.of_blind (rules.submit_blind move)) _
  | force move => exact .bind_pure (.of_ignores fun old => rules.force_ignores old id move) _
  | replay moves => exact .bind_pure (rules.replay_forgetful moves) _
  | save => exact .of_ignores fun _ => .session (fun _ => rfl) fun _ => .pure _
  | restore s => exact .bind_pure (rules.restore_forgetful s) _
  | restoreText text => exact .bind_pure (rules.restoreText_forgetful text) _
  | drain => exact absurd rfl other
  | draw use =>
      refine .of_ignores fun _ => .session (fun _ => rfl) fun s =>
        .bind (.checked _) fun rolled => ?_
      exact .bind (.change fun _ => rfl) fun _ => .pure _
  | host change =>
      refine .of_ignores fun _ => .get (fun _ => rfl) fun t => ?_
      exact .bind (.putGame _ _ fun _ => rfl) fun _ => .pure _
  | awaiting =>
      exact .of_ignores fun _ => .get (fun _ => rfl) fun t => .bind (.checked _) fun _ => .pure _
  | menu player name args =>
      exact .of_ignores fun _ => .get (fun _ => rfl) fun t => .bind (.checked _) fun _ => .pure _

end Operation

/-- Old messages are all that tells two tables apart, whatever is done with them. -/
theorem runAll_withOld (rules : Rules G) (ops : List (Operation G)) (old : List String)
    (t : Table G) :
    SameReplies old ops (rules.runAll ops (t.withOld old)).1 (rules.runAll ops t).1 ∧
      ∃ old', (rules.runAll ops (t.withOld old)).2 = (rules.runAll ops t).2.withOld old' := by
  induction ops generalizing t with
  | nil => exact ⟨.same _ _, old, rfl⟩
  | cons op ops ih =>
      by_cases other : op = .drain
      · subst other
        exact ⟨.drain _ _ _, [], rfl⟩
      · simp only [Rules.runAll]
        rcases op.run_forgetful rules other old t with same | same <;> rw [same]
        · obtain ⟨replies, old', left⟩ := ih ((op.run rules).on t).2
          exact ⟨.reply other _ replies, old', left⟩
        · exact ⟨.same _ _, [], rfl⟩

/-- Any session under the same rules takes up a snapshot of a table that a run without
errors has led to, and stands there itself then. From there on all operations have the
same replies and do the same to the game and to the session. -/
theorem restore_exact {rules : Rules G} {replies : List (Playing Reply)} {t : Table G}
    (run : Runs rules replies t) (replied : Replied replies) (other : Session) :
    ∃ restored : Table G,
      (rules.restore t.session.snapshot).on ⟨other, t.game⟩ = (.ok (), restored) ∧
        restored.session.snapshot = t.session.snapshot ∧ restored.game = t.game ∧
        ∀ ops : List (Operation G),
          SameReplies t.session.messages ops (rules.runAll ops t).1
              (rules.runAll ops restored).1 ∧
            (rules.runAll ops t).2.game = (rules.runAll ops restored).2.game ∧
            (rules.runAll ops t).2.session.snapshot =
              (rules.runAll ops restored).2.session.snapshot := by
  let restored : Table G := ⟨{ t.session with messages := [] }, t.game⟩
  refine ⟨restored, Rules.restore_snapshot (run.sound replied) _, rfl, rfl, fun ops => ?_⟩
  have t_eq : t = restored.withOld t.session.messages := by
    simp [restored, Table.withOld, Session.withOld]
  obtain ⟨replies_same, old', left⟩ := runAll_withOld rules ops t.session.messages restored
  rw [← t_eq] at replies_same left
  exact ⟨replies_same, by rw [left]; rfl, by rw [left]; rfl⟩

/-- Round after round a player asks, and the second player has to answer. -/
def questions : Rules Script.Host where
  flows := .ofMain (.forever [.node (.act ⟨none, none, none, [⟨"ask", [], .empty, false⟩]⟩)])
  repertoire :=
    (Dict.empty.insert "ask" fun _ _ => .ok
      { name := "ask"
        callbacks := [fun deed => .ok ⟨deed.game, deed.dice, [⟨⟨1⟩, "answer", .empty, none⟩], []⟩]
        messages := ["asked"] }).insert "answer" fun _ _ => .ok { name := "answer" }
  config := { maxSteps := 8 }

/-- A table where the first player has asked, before anyone took the message: the
answer is saved and restored under way. -/
theorem restore_exact_asked :
    ∃ (replies : List (Playing Reply)) (t : Table Script.Host),
      Runs questions replies t ∧ Replied replies ∧
        t.session.stack.map (·.flow) = [.followUp 0 ⟨⟨1⟩, "answer", .empty, none⟩, .main] ∧
        t.session.messages = ["asked"] ∧
        ∃ restored : Table Script.Host,
          (questions.restore t.session.snapshot).on ⟨.new questions.config, t.game⟩ =
              (.ok (), restored) ∧
            ∀ ops : List (Operation Script.Host),
              SameReplies t.session.messages ops (questions.runAll ops t).1
                (questions.runAll ops restored).1 := by
  have new : Runs questions [] ⟨.new questions.config, .fresh 2⟩ := .new _
  have run := new.runAll [.start, .play, .submit ⟨⟨0⟩, "ask", .empty⟩]
    (by simp [Operation.isRestore])
  have replied : Replied ([] ++ (questions.runAll [.start, .play, .submit ⟨⟨0⟩, "ask", .empty⟩]
      ⟨.new questions.config, .fresh 2⟩).1) := by
    unfold Replied
    decide +kernel
  obtain ⟨restored, accepted, -, -, same⟩ := restore_exact run replied (.new questions.config)
  exact ⟨_, _, run, replied, by decide +kernel, by decide +kernel, restored, accepted,
    fun ops => (same ops).1⟩

end Tabletop
