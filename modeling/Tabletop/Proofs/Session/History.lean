import Tabletop.Proofs.Flow.Waiting
import Tabletop.Proofs.Session.Past

/-! # The history of a game

Only a move that is accepted adds to the history, and what it adds is the move with the
arguments that were filled in. All that happens besides takes no notice of the history,
and leaves it alone.

Main statements: `record_of_carryOn` and `history_of_carryOn`.
-/

namespace Tabletop

variable {G : Type} [Game G] (rules : Rules G)

namespace Session

variable (s : Session)

theorem history_record (config : Config) (move : Move) :
    (s.record config move).history =
      if config.keepHistory then s.history ++ [⟨move, MoveRecord.numberAfter s.history⟩] else s.history := by
  unfold record
  split <;> rfl

end Session

namespace Rules

/-- The operation leaves the history alone. -/
abbrev KeepsHistory {α : Type} (d : Drive G α) : Prop := d.Keeps Session.history

theorem start_keeps : KeepsHistory rules.start := Drive.keeps_history (rules.start_ignores [])

theorem play_keeps : KeepsHistory rules.play := Drive.keeps_history (rules.play_ignores [])

theorem settleMove_keeps (s : Stop G) (move : Move) (performed : Performed G) :
    KeepsHistory (settleMove s move performed) :=
  Drive.keeps_history fun h => settleMove_ignores [] h s move performed

/-- What follows a move leaves the history alone. -/
theorem aftermath_keeps (outcome : Outcome) :
    KeepsHistory (do rules.takeOutcome outcome; rules.play) :=
  Drive.keeps_history fun h =>
    .bind (rules.takeOutcome_ignores [] h outcome) fun _ => rules.play_ignores [] h

/-- Nothing adds to the history after the move. -/
theorem history_of_record (move : Move) (outcome : Outcome) (t : Table G) :
    ((do
      Drive.change fun session => session.record rules.config move
      rules.takeOutcome outcome
      rules.play : Drive G Unit).on t).2.session.history =
      (t.session.record rules.config move).history :=
  rules.aftermath_keeps outcome { t with session := t.session.record rules.config move }

variable {rules}

/-- What follows a move that was carried out adds the move to the history, with its
arguments filled in, unless a mistake of the author keeps it out of the flow. -/
theorem record_of_carryOn {s : Stop G} {t : Table G} (mem : s ∈ rules.stopsNow t) (move : Move)
    (performed : Performed G) :
    (∃ fault, ((rules.carryOn s move performed).on t).1 = .error (.fault fault)) ∨
      ((rules.carryOn s move performed).on t).2.session.history =
        (t.session.record rules.config { move with args := performed.1.args }).history := by
  have settled := settleMove_keeps s move performed t
  rw [carryOn, Drive.on_bind]
  rcases settles : (settleMove s move performed).on t with ⟨e | _, t₁⟩
  · left
    obtain ⟨playing, top, flow, on_top, found⟩ :=
      exists_of_stopsNow_ne_nil (List.ne_nil_of_mem mem)
    rw [stopsNow_eq playing on_top found] at mem
    rw [on_settleMove on_top] at settles
    split at settles
    · rename_i fails
      cases settles
      obtain ⟨fault, rfl⟩ := Stop.fault_of_settle (Flow.waits_of_mem_stops mem) fails
      exact ⟨fault, rfl⟩
    · cases settles
  · right
    rw [settles] at settled
    dsimp only
    rw [history_of_record, Session.history_record, Session.history_record, settled]

/-- What follows a move that was carried out adds the move to the history, with its
arguments filled in. -/
theorem history_of_carryOn {s : Stop G} {move : Move} {performed : Performed G} {t t' : Table G}
    (kept : rules.config.keepHistory) (h : (rules.carryOn s move performed).on t = (.ok (), t')) :
    t'.session.history = t.session.history ++
      [⟨{ move with args := performed.1.args }, MoveRecord.numberAfter t.session.history⟩] := by
  obtain ⟨_, t₁, settles, records⟩ := Drive.on_bind_eq_ok.1 h
  have settled := settleMove_keeps s move performed t
  rw [settles] at settled
  have recorded := rules.history_of_record { move with args := performed.1.args } performed.1 t₁
  rw [records] at recorded
  rw [recorded, Session.history_record, settled, if_pos kept]

end Rules

end Tabletop
