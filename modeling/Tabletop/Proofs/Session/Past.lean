import Tabletop.Proofs.Session.Steps
import Tabletop.Session.Restore

/-! # The past is only kept

No operation of a game reads what accepted moves have announced, and none but the record
of a move reads the history. So a session may have any past: whatever was announced and
recorded before, the game goes on in the same way. Starting over and restoring forget
it.

Main statements: `play_ignores`, `force_ignores`, `submit_blind`, `replay_forgetful` and
`restore_forgetful`.
-/

namespace Tabletop

variable {G : Type}

namespace Session

/-- The session with another past: messages that were announced before, and another
history. -/
def withPast (old : List String) (h : List MoveRecord → List MoveRecord) (s : Session) : Session :=
  { s with messages := old ++ s.messages, history := h s.history }

variable (old : List String) (h : List MoveRecord → List MoveRecord) (s : Session)

theorem pop_withPast : (s.withPast old h).pop = s.pop.withPast old h := by
  obtain ⟨status, stack, dice, followUps, history, messages⟩ := s
  cases stack with
  | nil => rfl
  | cons a stack =>
      obtain ⟨flow, args, trail⟩ := a
      cases flow <;> rfl

theorem setTrail_withPast (trail : Trail) :
    (s.withPast old h).setTrail trail = (s.setTrail trail).withPast old h := by
  obtain ⟨status, stack, dice, followUps, history, messages⟩ := s
  cases stack <;> rfl

theorem announce_withPast (messages : List String) :
    (s.withPast old h).announce messages = (s.announce messages).withPast old h := by
  simp [announce, withPast]

theorem record_withOld (config : Config) (move : Move) :
    (s.withOld old).record config move = (s.record config move).withOld old := by
  unfold record
  split <;> rfl

/-- To record a move gives the session another history, and nothing else. -/
theorem record_eq_withPast (config : Config) (move : Move) :
    s.record config move = s.withPast [] fun _ => (s.record config move).history := by
  unfold record
  split <;> rfl

end Session

/-- What takes no notice of the history leaves it alone. -/
theorem Drive.keeps_history {α : Type} {d : Drive G α}
    (ignores : ∀ h, d.Ignores (Session.withPast [] h)) : d.Keeps Session.history := by
  intro t
  -- With the history that it has, the table is the same.
  have ends : d.on t = _ := ignores (fun _ => t.session.history) t
  exact congrArg (·.2.session.history) ends

namespace Rules

variable [Game G] (rules : Rules G) (old : List String) (h : List MoveRecord → List MoveRecord)

omit [Game G] in
theorem flow_ignores (id : FlowId) : (rules.flow id).Ignores (.withPast old h) :=
  .session (fun _ => rfl) fun _ => .playing _

omit [Game G] in
theorem stops_ignores (a : Activation) : (rules.stops a).Ignores (.withPast old h) :=
  .bind (rules.flow_ignores old h a.flow) fun _ => .pure _

theorem enterFlow_ignores (id : FlowId) (args : Args) :
    (rules.enterFlow id args).Ignores (.withPast old h) :=
  .bind (rules.flow_ignores old h id) fun _ => .game fun _ =>
    .bind (.checked _) fun _ => .change fun _ => rfl

theorem enterCalls_ignores (calls : List SubflowCall) :
    (rules.enterCalls calls).Ignores (.withPast old h) :=
  .forM fun _ => rules.enterFlow_ignores old h _ _

theorem start_ignores : rules.start.Ignores (.withPast old h) := by
  refine .session (fun _ => rfl) fun s => ?_
  split
  · exact .throw_bind _
  · exact .bind (rules.enterFlow_ignores old h _ _) fun _ => .change fun _ => rfl

theorem closeUnit_ignores (p : Progress Trail G) :
    (rules.closeUnit p).Ignores (.withPast old h) := by
  refine .bind (rules.enterCalls_ignores old h _) fun _ => .session (fun _ => rfl) fun s => ?_
  split
  · exact .bind (.change fun _ => rfl) fun _ => .pure _
  · exact .pure _

theorem playTop_ignores (top : Activation) : (rules.playTop top).Ignores (.withPast old h) := by
  rw [playTop_eq]
  refine .bind (rules.flow_ignores old h _) fun flow => .get (fun _ => rfl) fun t => ?_
  refine .bind (.playing _) fun p => .bind (.putGame _ _ fun _ => rfl) fun _ => ?_
  refine .bind (.change fun s => s.setTrail_withPast old h _) fun _ => ?_
  split
  · exact .throw _
  · dsimp only
    split
    · exact .bind (.change fun s => s.pop_withPast old h) fun _ => rules.closeUnit_ignores old h _
    · exact rules.closeUnit_ignores old h _

theorem playOne_ignores : rules.playOne.Ignores (.withPast old h) := by
  refine .session (fun _ => rfl) fun s => ?_
  split
  · exact .throw _
  · exact .pure _
  · exact .bind (.change fun _ => rfl) fun _ => .pure _
  · exact rules.playTop_ignores old h _

theorem skipUnplayable_ignores : rules.skipUnplayable.Ignores (.withPast old h) := by
  refine .session (fun _ => rfl) fun s => ?_
  split
  · exact .pure _
  · refine .game fun g => .bind (rules.stops_ignores old h _) fun stops => ?_
    refine .bind (.playing _) fun p => ?_
    exact .bind (.change fun s => s.setTrail_withPast old h _) fun _ => .pure _

theorem playWithin_ignores (units : Nat) : (rules.playWithin units).Ignores (.withPast old h) := by
  induction units with
  | zero => exact .throw _
  | succ units ih =>
      refine .bind (rules.playOne_ignores old h) fun signal => .session (fun _ => rfl) fun s => ?_
      split
      · exact .pure _
      split
      · refine .bind (rules.skipUnplayable_ignores old h) fun skipped => ?_
        split
        · exact ih
        · exact .pure _
      · exact ih

theorem play_ignores : rules.play.Ignores (.withPast old h) := rules.playWithin_ignores old h _

omit [Game G] in
theorem requirePlaying_ignores : (requirePlaying : Drive G Unit).Ignores (.withPast old h) := by
  refine .session (fun _ => rfl) fun s => ?_
  split
  · exact .throw _
  · exact .throw _
  · exact .pure _

omit [Game G] in
theorem requireTop_ignores : (requireTop : Drive G Activation).Ignores (.withPast old h) := by
  refine .session (fun _ => rfl) fun s => ?_
  split
  · exact .pure _
  · exact .throw _

theorem settleMove_ignores (s : Stop G) (move : Move) (performed : Performed G) :
    (settleMove s move performed).Ignores (.withPast old h) := by
  refine .bind (.putGame _ _ fun _ => rfl) fun _ => .bind (requireTop_ignores old h) fun top => ?_
  exact .bind (.playing _) fun trail => .change fun s => s.setTrail_withPast old h _

theorem enterFollowUp_ignores (f : FollowUp) :
    (rules.enterFollowUp f).Ignores (.withPast old h) := by
  unfold enterFollowUp
  split
  · refine .session (fun _ => rfl) fun s => ?_
    refine .bind (.checked _) fun _ => ?_
    exact .bind (.change fun _ => rfl) fun _ => rules.enterFlow_ignores old h _ _
  · exact .throw _

theorem takeOutcome_ignores (outcome : Outcome) :
    (rules.takeOutcome outcome).Ignores (.withPast old h) :=
  .bind (.change fun s => s.announce_withPast old h _) fun _ =>
    .forM (rules.enterFollowUp_ignores old h)

theorem force_ignores (move : Move) : (rules.force move).Ignores (.withPast old h) := by
  unfold force
  dsimp only
  split
  · exact .throw_bind _
  refine .bind (requirePlaying_ignores old h) fun _ => ?_
  refine .bind (requireTop_ignores old h) fun top => .bind (rules.stops_ignores old h _) ?_
  refine fun stops => .get (fun _ => rfl) fun t => .bind (.checked _) fun found => ?_
  split
  · exact .throw _
  · refine .bind (.playing _) fun performed => .bind (settleMove_ignores old h _ _ _) fun _ => ?_
    exact .bind (rules.takeOutcome_ignores old h _) fun _ => rules.play_ignores old h

/-- A submitted move is recorded behind the history, and takes no notice of messages. -/
theorem submit_blind (move : Move) : (rules.submit move).Blind := by
  refine .of_ignores fun old => ?_
  refine .bind (requirePlaying_ignores old id) fun _ => ?_
  refine .bind (requireTop_ignores old id) fun top => .bind (rules.stops_ignores old id _) ?_
  intro stops
  dsimp only
  split
  · exact .throw_bind _
  refine .get (fun _ => rfl) fun t => .bind (.checked _) fun found => ?_
  split
  · exact .throw _
  refine .bind (.playing _) fun result => ?_
  split
  · exact .pure _
  · refine .bind (settleMove_ignores old id _ _ _) fun _ => ?_
    refine .bind (.change fun s => s.record_withOld old _ _) fun _ => ?_
    exact .bind (rules.takeOutcome_ignores old id _) fun _ =>
      .bind (rules.play_ignores old id) fun _ => .pure _

/-- Starting over forgets what was announced. -/
theorem replay_forgetful (moves : List Move) : (rules.replay moves).Forgetful := by
  intro old t
  right
  simp only [replay, Drive.on_bind, Drive.on_change]
  rfl

omit [Game G] in
/-- A snapshot that is taken up brings no messages along. -/
theorem restore_forgetful (s : Snapshot) : (rules.restore s).Forgetful := by
  intro old t
  simp only [restore, Drive.on_bind, Drive.on_session, Drive.on_playing, Drive.on_change]
  rw [show (t.withOld old).session.followUps = t.session.followUps from rfl]
  cases rules.checkRestore t.session.followUps s .faults with
  | ok _ => exact .inr rfl
  | error e => exact .inl rfl

omit [Game G] in
theorem restoreText_forgetful (text : String) : (rules.restoreText text).Forgetful := by
  unfold restoreText
  split
  · exact rules.restore_forgetful _
  · exact .of_ignores fun _ => .throw _

end Rules

end Tabletop
