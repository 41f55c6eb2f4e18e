import Tabletop.Proofs.Session.Below
import Tabletop.Proofs.Session.Steps

/-! # Errors while a game is played

A game is played by its flows. They know nothing of the players who may move, and nothing of
actions: a unit of play, a stop that is settled and a flow that is entered may run into a
fault, a trail that does not fit, a flow that is missing, an interrupt that nothing handles or
the limit of steps, and into no other error. All that is left to what looks moves up, and to
the follow-ups of a move that was carried out.

Main statements: `Flow.play_errs`, `playWithin_proceeds` and `carryOn_proceeds`.
-/

namespace Tabletop

variable {G : Type} {α β : Type}

/-- An error into which flows may run while they are played. -/
inductive PlayError.InPlay : PlayError → Prop
  | fault (fault : Fault) : InPlay (.fault fault)
  | invalidTrail (flow : String) (mismatch : Mismatch) : InPlay (.invalidTrail flow mismatch)
  | unknownFlow (name : String) : InPlay (.unknownFlow name)
  | unhandled (interrupt flow : String) : InPlay (.unhandled interrupt flow)
  | stepLimit (limit : Nat) : InPlay (.stepLimit limit)

/-- A move is turned away with the error: the game takes no move at the moment, or none of
this player. -/
inductive PlayError.TurnsAway : PlayError → Prop
  | notStarted : TurnsAway .notStarted
  | finished : TurnsAway .finished
  | notAwaiting : TurnsAway .notAwaiting
  | ineligible (player : Player) : TurnsAway (.ineligible player)

/-- All errors are of the kind. -/
def Playing.Errs (kind : PlayError → Prop) (result : Playing α) : Prop :=
  ∀ e, result = .error e → kind e

namespace Playing.Errs

variable {kind : PlayError → Prop} {result : Playing α} {next : α → Playing β}

theorem ok (a : α) : Errs kind (.ok a : Playing α) := nofun

theorem error {e : PlayError} (h : kind e) : Errs kind (.error e : Playing α) := by
  rintro _ ⟨⟩
  exact h

theorem checked (result : Checked α) : (ofChecked result).Errs PlayError.InPlay := by
  cases result with
  | ok a => exact ok a
  | error fault => exact error (.fault fault)

theorem mapMismatch (f : Mismatch → Mismatch) (h : result.Errs PlayError.InPlay) :
    (result.mapMismatch f).Errs PlayError.InPlay := by
  cases result with
  | ok a => exact ok a
  | error e =>
      cases h e rfl with
      | invalidTrail flow mismatch => exact error (.invalidTrail flow (f mismatch))
      | fault fault => exact error (.fault fault)
      | unknownFlow name => exact error (.unknownFlow name)
      | unhandled interrupt flow => exact error (.unhandled interrupt flow)
      | stepLimit limit => exact error (.stepLimit limit)

theorem bind (h : result.Errs kind) (hn : ∀ a, (next a).Errs kind) :
    (result >>= next).Errs kind := by
  cases result with
  | ok a => exact hn a
  | error e => exact error (h e rfl)

end Playing.Errs

/-! ### Flows -/

namespace Flow

variable [Game G] (flow : Flow G) (g : G) (scope : Scope) (mark : Mark Trail)

omit [Game G] in
theorem invalid_errs (mismatch : Mismatch) :
    (flow.invalid mismatch : Playing α).Errs PlayError.InPlay :=
  .error (.invalidTrail _ _)

theorem nextIteration_errs : (flow.nextIteration g scope mark).Errs PlayError.InPlay := by
  unfold nextIteration
  split
  · exact invalid_errs _ _
  · split
    · exact .bind (.checked _) fun _ => .ok _
    · exact .ok _

theorem finishBlock_errs : (flow.finishBlock g scope mark).Errs PlayError.InPlay := by
  unfold finishBlock
  split
  · exact nextIteration_errs _ _ _ _
  · exact .ok _

theorem advance_errs : (flow.advance g scope mark).Errs PlayError.InPlay := by
  unfold advance
  split
  · exact .bind (.checked _) fun _ => .ok _
  · exact finishBlock_errs _ _ _ _

theorem takeIn_errs (i : Interrupt) : (flow.takeIn g scope mark i).Errs PlayError.InPlay := by
  cases i with
  | skipOn => exact nextIteration_errs _ _ _ _
  | again => exact .bind (.checked _) fun _ => .ok _
  | leave => exact .ok _

theorem goOn_errs (below : Trail) (signal : Signal) :
    (flow.goOn g scope mark below signal).Errs PlayError.InPlay := by
  cases signal with
  | complete => exact advance_errs _ _ _ _
  | interrupt i =>
      unfold goOn
      dsimp only
      split
      · exact takeIn_errs _ _ _ _ _
      · exact .ok _
  | _ => exact .ok _

theorem playLanes_errs {lanes : List Trail}
    (each : ∀ lane ∈ lanes, ∀ (flow : Flow G) scope g dice,
      (play lane flow scope g dice).Errs PlayError.InPlay)
    (body : Flow G) (players : List Player) (completed : List Bool) (dice : Dice) :
    (playLanes lanes flow body players completed scope g dice).Errs PlayError.InPlay := by
  induction lanes generalizing players completed g dice with
  | nil =>
      rcases players with _ | ⟨player, players⟩ <;> rcases completed with _ | ⟨done, completed⟩
      · exact .ok _
      all_goals exact invalid_errs _ _
  | cons lane lanes ih =>
      obtain ⟨lane_errs, lanes_errs⟩ := List.forall_mem_cons.1 each
      rcases players with _ | ⟨player, players⟩
      · rcases completed with _ | ⟨_ | _, completed⟩ <;> exact invalid_errs _ _
      rcases completed with _ | ⟨_ | _, completed⟩
      · exact invalid_errs _ _
      · refine .bind (lane_errs _ _ _ _) fun p => ?_
        split
        · exact .bind (ih _ lanes_errs _ _ _) fun _ => .ok _
        · exact .ok _
      · exact .bind (ih _ lanes_errs _ _ _) fun _ => .ok _

/-- A unit of play runs into such errors only. -/
theorem play_errs (trail : Trail) (flow : Flow G) (scope : Scope) (g : G) (dice : Dice) :
    (play trail flow scope g dice).Errs PlayError.InPlay := by
  induction trail using Trail.induction generalizing flow scope g dice with
  | nil => exact invalid_errs _ _
  | cons mark below below_errs lanes_errs =>
      cases hp : flow.isParallel with
      | true =>
          obtain ⟨players, body, kind_eq⟩ := eq_parallel_of_isParallel hp
          rw [play_parallel kind_eq]
          obtain ⟨name, position, stepIndex⟩ := mark
          refine .bind (.mapMismatch _ (.bind ?_ fun _ => .ok _)) fun _ => .ok _
          cases position with
          | parallel seated lanes completed =>
              exact .bind (playLanes_errs _ _ _ (lanes_errs _ _ _ rfl) _ _ _ _) fun _ => .ok _
          | _ => exact invalid_errs _ _
      | false =>
          cases hw : flow.waiting? mark with
          | some step =>
              rw [play_waiting (by simp [hw])]
              exact .ok _
          | none =>
              rcases hn : flow.next? mark with _ | callback | child
              · rw [play_finish hp hw hn]
                exact .bind (finishBlock_errs _ _ _ _) fun _ => .ok _
              · rw [play_call hp hw hn]
                exact .bind (.checked _) fun r => .bind (goOn_errs _ _ _ _ _ _) fun _ => .ok _
              · rw [play_node hp hw hn]
                exact .bind (.mapMismatch _ (below_errs _ _ _ _)) fun p =>
                  .bind (goOn_errs _ _ _ _ _ _) fun _ => .ok _

end Flow

theorem Stop.settle_errs [Game G] (s : Stop G) (g : G) (status : ActionStatus) (trail : Trail) :
    (s.settle g status trail).Errs PlayError.InPlay := by
  unfold settle
  split
  · exact Flow.invalid_errs _ _
  · exact Flow.invalid_errs _ _
  · exact .bind (.checked _) fun _ => .ok _

/-! ### Operations on a game that has started -/

/-- The operation goes on with a game that has started: it leaves a game that has started,
and its errors are of the kind. -/
def Drive.Proceeds (kind : PlayError → Prop) (d : Drive G α) : Prop :=
  ∀ t : Table G, t.session.status ≠ .notStarted →
    d.Ends t (fun _ t' => t'.session.status ≠ .notStarted) fun e _ => kind e

namespace Drive.Proceeds

variable {kind : PlayError → Prop} {d : Drive G α} {k : α → Drive G β}

theorem mono {kind' : PlayError → Prop} (h : d.Proceeds kind) (weaker : ∀ e, kind e → kind' e) :
    d.Proceeds kind' :=
  fun t started => (h t started).imp (fun _ _ => id) fun e _ => weaker e

theorem pure (a : α) : (Pure.pure a : Drive G α).Proceeds kind := fun _ started => started

theorem throw {e : PlayError} (h : kind e) : (MonadExcept.throw e : Drive G α).Proceeds kind :=
  fun _ _ => h

theorem bind (hd : d.Proceeds kind) (hk : ∀ a, (k a).Proceeds kind) : (d >>= k).Proceeds kind :=
  fun t started => .bind ((hd t started).mono fun a t' => hk a t')

theorem session {k : Session → Drive G β} (hk : ∀ s, (k s).Proceeds kind) :
    (Drive.session >>= k).Proceeds kind := fun t started => .session (hk _ t started)

theorem game {k : G → Drive G β} (hk : ∀ g, (k g).Proceeds kind) :
    (Drive.game >>= k).Proceeds kind := fun t started => .game (hk _ t started)

theorem get {k : Table G → Drive G β} (hk : ∀ t, (k t).Proceeds kind) :
    ((MonadState.get : Drive G (Table G)) >>= k).Proceeds kind :=
  fun t started => .get (hk _ t started)

theorem change {f : Session → Session} (same : ∀ s, (f s).status = s.status) :
    (Drive.change f : Drive G Unit).Proceeds kind := by
  intro t started
  apply Ends.change
  rwa [same]

theorem putGame (g : G) (dice : Dice) : (Drive.putGame g dice).Proceeds kind :=
  fun _ started => started

theorem finish : (Drive.change Session.finish : Drive G Unit).Proceeds kind :=
  fun _ _ => .change nofun

theorem playing {result : Playing α} (h : result.Errs kind) :
    (liftM result : Drive G α).Proceeds kind :=
  fun _ started => .playing (fun _ _ => started) h

theorem checked (result : Checked α) : (liftM result : Drive G α).Proceeds PlayError.InPlay :=
  fun _ started => .checked (fun _ _ => started) .fault

theorem forM {γ : Type} {items : List γ} {f : γ → Drive G Unit}
    (each : ∀ item ∈ items, (f item).Proceeds kind) : (items.forM f).Proceeds kind := by
  induction items with
  | nil => exact pure ()
  | cons item items ih =>
      obtain ⟨first, rest⟩ := List.forall_mem_cons.1 each
      exact bind first fun _ => ih rest

end Drive.Proceeds

namespace Rules

variable (rules : Rules G)

theorem flow_proceeds (id : FlowId) : (rules.flow id).Proceeds PlayError.InPlay := by
  refine .session fun s => .playing ?_
  unfold FlowBook.get
  split
  · exact .ok _
  · exact .error (.unknownFlow _)

variable [Game G]

theorem enterFlow_proceeds (id : FlowId) (args : Args) :
    (rules.enterFlow id args).Proceeds PlayError.InPlay :=
  .bind (rules.flow_proceeds id) fun _ => .game fun _ =>
    .bind (.checked _) fun _ => .change fun _ => rfl

theorem closeUnit_proceeds (p : Progress Trail G) :
    (rules.closeUnit p).Proceeds PlayError.InPlay := by
  refine .bind (.forM fun _ _ => rules.enterFlow_proceeds _ _) fun _ => .session fun s => ?_
  split
  · exact .bind .finish fun _ => .pure _
  · exact .pure _

theorem playTop_proceeds (top : Activation) : (rules.playTop top).Proceeds PlayError.InPlay := by
  rw [playTop_eq]
  refine .bind (rules.flow_proceeds _) fun flow => .get fun t => ?_
  refine .bind (.playing (Flow.play_errs _ _ _ _ _)) fun p => .bind (.putGame _ _) fun _ => ?_
  refine .bind (.change fun s => Session.status_setTrail _) fun _ => ?_
  split
  · exact .throw (.unhandled _ _)
  · dsimp only
    split
    · exact .bind (.change fun s => Session.status_pop) fun _ => rules.closeUnit_proceeds _
    · exact rules.closeUnit_proceeds _

theorem playOne_proceeds : rules.playOne.Proceeds PlayError.InPlay := by
  intro t started
  refine .session ?_
  split
  · rename_i not_started
    exact absurd not_started started
  · exact .pure started
  · exact (Drive.Proceeds.bind .finish fun _ => .pure _) t started
  · exact rules.playTop_proceeds _ t started

theorem skipStops_errs (g : G) (stops : List (Stop G)) (trail : Trail) :
    (rules.skipStops g stops trail).Errs PlayError.InPlay := by
  induction stops generalizing trail with
  | nil => exact .ok _
  | cons s rest ih =>
      unfold skipStops
      split
      · exact ih _
      refine .bind (.checked _) fun players => .bind (.checked _) fun playable => ?_
      split
      · exact ih _
      · exact .bind (s.settle_errs _ _ _) fun _ => .bind (ih _) fun _ => .ok _

theorem skipUnplayable_proceeds : rules.skipUnplayable.Proceeds PlayError.InPlay := by
  refine .session fun s => ?_
  split
  · exact .pure _
  · refine .game fun g => .bind (.bind (rules.flow_proceeds _) fun _ => .pure _) fun stops => ?_
    exact .bind (.playing (rules.skipStops_errs _ _ _)) fun p =>
      .bind (.change fun s => Session.status_setTrail _) fun _ => .pure _

theorem playWithin_proceeds (units : Nat) : (rules.playWithin units).Proceeds PlayError.InPlay := by
  induction units with
  | zero => exact .throw (.stepLimit _)
  | succ units ih =>
      refine .bind rules.playOne_proceeds fun signal => .session fun s => ?_
      split
      · exact .pure _
      split
      · refine .bind rules.skipUnplayable_proceeds fun skipped => ?_
        split
        · exact ih
        · exact .pure _
      · exact ih

/-- The error is met in play, or it is about a follow-up that was asked for and whose action
is not declared. -/
def FollowsMove (outcome : Outcome) (e : PlayError) : Prop :=
  e.InPlay ∨ ∃ f ∈ outcome.followUps, rules.repertoire.contains f.name = false ∧
    e = .unknownAction "follow-up" f.name

omit [Game G] in
/-- Nobody is turned away once a move was carried out. -/
theorem FollowsMove.not_turnsAway {rules : Rules G} {outcome : Outcome} {e : PlayError}
    (h : rules.FollowsMove outcome e) : ¬e.TurnsAway := by
  rintro ⟨⟩
  all_goals
    rcases h with ⟨⟨⟩⟩ | ⟨_, _, _, about⟩
    cases about

theorem takeOutcome_proceeds (outcome : Outcome) :
    (rules.takeOutcome outcome).Proceeds (rules.FollowsMove outcome) := by
  refine .bind (.change fun _ => rfl) fun _ => .forM fun f mem => ?_
  unfold enterFollowUp
  split
  · refine .mono (.session fun s => .bind (.checked _) fun _ => ?_) fun _ => .inl
    exact .bind (.change fun _ => rfl) fun _ => rules.enterFlow_proceeds _ _
  · rename_i undeclared
    exact .throw (.inr ⟨f, List.mem_reverse.1 mem, by simpa using undeclared, rfl⟩)

variable {rules} {t : Table G}

/-- Once the move was carried out at a stop, no error is met but those of play and of its
follow-ups. -/
theorem carryOn_proceeds {s : Stop G} (mem : s ∈ rules.stopsNow t) (move : Move)
    (performed : Performed G) :
    (rules.carryOn s move performed).Ends t (fun _ t' => t'.session.status ≠ .notStarted)
      fun e _ => rules.FollowsMove performed.1 e := by
  obtain ⟨playing, top, flow, on_top, -⟩ := exists_of_stopsNow_ne_nil (List.ne_nil_of_mem mem)
  obtain ⟨outcome, g, dice⟩ := performed
  refine .bind ?_
  unfold Drive.Ends
  rw [on_settleMove on_top]
  cases settles : s.settle g (.taken ⟨move.player, move.name, outcome.args⟩) top.trail with
  | error e => exact .inl (s.settle_errs _ _ _ e settles)
  | ok trail =>
      have later : (do
          Drive.change fun session =>
            session.record rules.config { move with args := outcome.args }
          rules.takeOutcome outcome
          rules.play : Drive G Unit).Proceeds (rules.FollowsMove outcome) :=
        .bind (.change fun s => Session.status_record _ _) fun _ =>
          .bind (rules.takeOutcome_proceeds _) fun _ =>
            (rules.playWithin_proceeds _).mono fun _ => .inl
      apply later
      dsimp only
      rw [Session.status_setTrail, playing]
      nofun

end Rules

end Tabletop
