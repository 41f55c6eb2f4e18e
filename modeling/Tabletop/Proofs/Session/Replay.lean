import Tabletop.Proofs.Action.Check
import Tabletop.Proofs.Session.History
import Tabletop.Proofs.Session.Rest
import Tabletop.Proofs.Session.Runs
import Tabletop.Script.Host

/-! # Replaying a history

The history of a game holds the accepted moves with their arguments filled in, which are
not always the arguments they were submitted with. Where no selection looks at the
answers of later ones, such a move is carried out in the same way as the submitted one,
so submitting the history leads to the same table again.

Main statement: `replay_history`.
-/

namespace Tabletop

variable {G : Type}

/-- All actions of the rules look back, for every game and player. -/
def Rules.LooksBack (rules : Rules G) : Prop :=
  ∀ name g player action, rules.repertoire.make? name g player = .ok (some action) →
    action.LooksBack g

/-- What a player does in turn: to submit a move, to look what there is to do, and to let
the game play on. -/
def Operation.isTurn : Operation G → Bool
  | .submit _ | .menu .. | .awaiting | .play => true
  | _ => false

namespace Rules

variable [Game G] {rules : Rules G} {t t' t'' : Table G}

/-! ### Submitting a recorded move -/

omit [Game G] in
/-- A move that was carried out is carried out in the same way with the arguments that
were filled in. -/
theorem perform_again {s : Stop G} {g : G} {dice : Dice} {move : Move} {performed : Performed G}
    (looksBack : rules.LooksBack)
    (h : rules.perform s g dice move = .ok (.ok performed)) :
    rules.perform s g dice { move with args := performed.1.args } = .ok (.ok performed) := by
  unfold perform at h ⊢
  dsimp only
  split at h
  · rename_i passes
    rw [if_pos passes]
    exact h
  · rename_i acts
    rw [if_neg acts]
    split at h
    · cases h
    · rename_i entry offered
      obtain ⟨action, made, h⟩ := bind_eq_ok.1 h
      obtain ⟨outcome, g', dice'⟩ := performed
      have processed := Playing.ofChecked_eq_ok.1 h
      have action_looksBack : action.LooksBack g := looksBack _ _ _ _ (actionOf_eq_ok.1 made)
      have filled : entry.fill outcome.args = outcome.args := by
        obtain ⟨-, checked⟩ := Action.check_of_process processed
        have sub := (Action.checkAmong_settles action_looksBack (List.nil_append _).symm checked).1
        exact Dict.merge_of_subset (Dict.Subset.trans (Dict.subset_merge _ _) sub)
      refine bind_eq_ok.2 ⟨action, made, ?_⟩
      rw [filled]
      exact Playing.ofChecked_eq_ok.2 (Action.process_again action_looksBack processed)

/-- A move that was accepted does the same with the arguments that were filled in. -/
theorem submit_again {move : Move} (looksBack : rules.LooksBack)
    (kept : rules.config.keepHistory) (h : (rules.submit move).on t = (.ok none, t')) :
    ∃ args index, t'.session.history = t.session.history ++ [⟨{ move with args }, index⟩] ∧
      (rules.submit { move with args }).on t = (.ok none, t') := by
  obtain ⟨s, finds, ⟨refusal, -, ⟨⟩, -⟩ | ⟨performed, performs, carries, -⟩⟩ := submit_eq_ok.1 h
  refine ⟨performed.1.args, MoveRecord.numberAfter t.session.history, history_of_carryOn kept carries, ?_⟩
  exact submit_eq_ok.2 ⟨s, finds, .inr ⟨performed, perform_again looksBack performs, carries, rfl⟩⟩

/-- One more move goes on where the moves before it have led to. -/
theorem submitAll_append {moves : List Move} {move : Move} {index : Nat}
    (before : (rules.submitAll index moves).on t = (.ok (), t'))
    (last : (rules.submit move).on t' = (.ok none, t'')) :
    (rules.submitAll index (moves ++ [move])).on t = (.ok (), t'') := by
  induction moves generalizing index t with
  | nil =>
      cases before
      simp [submitAll, Drive.on_bind, last, Drive.on_pure]
  | cons first rest ih =>
      obtain ⟨answer, t₁, submits, goes_on⟩ := Drive.on_bind_eq_ok.1 before
      refine Drive.on_bind_eq_ok.2 ⟨answer, t₁, submits, ?_⟩
      cases answer with
      | some refusal => cases goes_on
      | none => exact ih goes_on

/-! ### Runs -/

/-- The table is at rest, and to replay its history from a game leads to it. -/
structure Replays (rules : Rules G) (g : G) (t : Table G) : Prop where
  rests : rules.Rests t
  replays : ∀ other,
    (rules.replay (t.session.history.map (·.move))).on ⟨other, g⟩ = (.ok (), t)

theorem replay_eq {moves : List Move} {other : Session} {g : G} :
    (rules.replay moves).on ⟨other, g⟩ = (do
      rules.start
      rules.play
      rules.submitAll 0 moves : Drive G Unit).on ⟨.new rules.config, g⟩ := rfl

/-- A game that has just been started replays without a move. -/
theorem replays_of_start {g : G} (starts : rules.start.on ⟨.new rules.config, g⟩ = (.ok (), t))
    (plays : rules.play.on t = (.ok (), t')) : rules.Replays g t' := by
  have no_history : t'.session.history = [] := by
    have started := rules.start_keeps ⟨.new rules.config, g⟩
    have played := rules.play_keeps t
    rw [starts] at started
    rw [plays] at played
    exact played.trans started
  refine ⟨rests_of_play plays, fun other => ?_⟩
  rw [replay_eq, no_history, Drive.on_bind, starts]
  dsimp only
  rw [Drive.on_bind, plays]
  rfl

/-- To replay one more move leads on from where the replay of the others led to. -/
theorem replay_append {moves : List Move} {move : Move} {other : Session} {g : G}
    (replays : (rules.replay moves).on ⟨other, g⟩ = (.ok (), t))
    (last : (rules.submit move).on t = (.ok none, t')) :
    (rules.replay (moves ++ [move])).on ⟨other, g⟩ = (.ok (), t') := by
  rw [replay_eq] at replays ⊢
  obtain ⟨_, t₁, starts, goes_on⟩ := Drive.on_bind_eq_ok.1 replays
  obtain ⟨_, t₂, plays, submits⟩ := Drive.on_bind_eq_ok.1 goes_on
  refine Drive.on_bind_eq_ok.2 ⟨(), t₁, starts, Drive.on_bind_eq_ok.2 ⟨(), t₂, plays, ?_⟩⟩
  exact submitAll_append submits last

omit [Game G] in
/-- To look leaves the table as it is. -/
theorem eq_of_look {α β : Type} {look : Table G → Checked α} {answer : α → β} {b : β}
    (h : (do return answer (← look (← get)) : Drive G β).on t = (.ok b, t')) : t' = t := by
  rw [Drive.on_bind, Drive.on_get] at h
  obtain ⟨a, t₁, looks, answers⟩ := Drive.on_bind_eq_ok.1 h
  rw [Drive.on_checked] at looks
  cases answers
  exact (congrArg Prod.snd looks).symm

/-- What is done in turn and has a reply leads from a table that replays to one that
does. -/
theorem Replays.turn {g : G} {op : Operation G} {reply : Reply} (looksBack : rules.LooksBack)
    (kept : rules.config.keepHistory) (h : rules.Replays g t) (turn : op.isTurn)
    (replied : (op.run rules).on t = (.ok reply, t')) : rules.Replays g t' := by
  cases op with
  | submit move =>
      obtain ⟨answer, t₁, submits, answers⟩ := Drive.on_bind_eq_ok.1 replied
      cases answers
      cases answer with
      | none =>
          obtain ⟨args, index, history_eq, again⟩ := submit_again looksBack kept submits
          refine ⟨rests_of_submit submits, fun other => ?_⟩
          rw [history_eq, List.map_append]
          exact replay_append (h.replays other) again
      | some refusal =>
          obtain ⟨s, -, ⟨_, -, -, rfl⟩ | ⟨performed, -, -, ⟨⟩⟩⟩ := submit_eq_ok.1 submits
          exact h
  | play =>
      obtain ⟨_, t₁, plays, answers⟩ := Drive.on_bind_eq_ok.1 replied
      cases answers
      obtain rfl := h.rests.eq_of_play plays
      exact h
  | awaiting =>
      obtain rfl := eq_of_look replied
      exact h
  | menu player name args =>
      obtain rfl := eq_of_look replied
      exact h
  | _ => cases turn

theorem Replays.runAll {g : G} {ops : List (Operation G)} (looksBack : rules.LooksBack)
    (kept : rules.config.keepHistory) (h : rules.Replays g t) (turns : ∀ op ∈ ops, op.isTurn)
    (replied : Replied (rules.runAll ops t).1) : rules.Replays g (rules.runAll ops t).2 := by
  induction ops generalizing t with
  | nil => exact h
  | cons op ops ih =>
      obtain ⟨turn, later_turns⟩ := List.forall_mem_cons.1 turns
      rw [runAll_cons] at replied ⊢
      obtain ⟨answered, later_replied⟩ := replied_cons.1 replied
      refine ih ?_ later_turns later_replied
      rcases ends : (op.run rules).on t with ⟨_ | reply, t₁⟩
      · rw [ends] at answered
        cases answered
      · exact h.turn looksBack kept turn ends

/-- A game is started and played, and then players submit moves, look what there is to do
and let the game play on. If all actions look back, moves are kept, and everything had a
reply, refused moves included, then any session under the same rules replays the history
on the game as it was at first: it comes to stand where the run left the table, with the
same game, dice and history. -/
theorem replay_history {g : G} {ops : List (Operation G)} (looksBack : rules.LooksBack)
    (kept : rules.config.keepHistory) (turns : ∀ op ∈ ops, op.isTurn)
    (replied : Replied (rules.runAll (.start :: .play :: ops) ⟨.new rules.config, g⟩).1)
    (other : Session) :
    let t := (rules.runAll (.start :: .play :: ops) ⟨.new rules.config, g⟩).2
    (rules.replay (t.session.history.map (·.move))).on ⟨other, g⟩ = (.ok (), t) := by
  rw [runAll_cons, runAll_cons] at replied ⊢
  obtain ⟨started, replied⟩ := replied_cons.1 replied
  obtain ⟨played, replied⟩ := replied_cons.1 replied
  have new_replays :=
    replays_of_start (Drive.on_of_confirmed started) (Drive.on_of_confirmed played)
  exact (new_replays.runAll looksBack kept turns replied).replays other

end Rules

/-- A choice with one option is made for the player. -/
def pickOne : Action Script.Host where
  name := "pick"
  selections := [{ name := "n", kind := .number none (some fun _ _ => 1) }]
  callbacks := [fun deed => .ok ⟨deed.game.write "picked", deed.dice, [], []⟩]

/-- The players pick over and over. -/
def picks : Rules Script.Host where
  flows := .ofMain (.forever [.node (.act ⟨none, none, none, [⟨"pick", [], .empty, false⟩]⟩)])
  repertoire := Dict.empty.insert "pick" fun _ _ => .ok pickOne
  config := { maxSteps := 8 }

theorem pickOne_looksBack (g : Script.Host) : pickOne.LooksBack g := by
  have only : ∀ {before s after}, pickOne.selections = before ++ s :: after →
      pickOne.selections = [s] := by
    intro before s after split
    cases before <;> simp_all [pickOne]
  constructor
  · intro before s after split x y _
    cases only split
    rfl
  · intro before s after split x y _
    cases only split
    rfl

theorem picks_looksBack : picks.LooksBack := by
  intro name g player action made
  by_cases same : name = "pick"
  · subst same
    cases made
    exact pickOne_looksBack g
  · have missing : picks.repertoire.get? name = none := by
      simp [picks, same]
    simp only [Repertoire.make?, missing] at made
    cases made

/-- A player picks without a word, then another move is refused. -/
def pickOnce : List (Operation Script.Host) :=
  [.submit ⟨⟨0⟩, "pick", .empty⟩, .submit ⟨⟨1⟩, "sing", .empty⟩, .awaiting]

/-- The choice is filled in where the move is recorded, and the record replays. -/
theorem replay_history_picks :
    let t := (picks.runAll (.start :: .play :: pickOnce) ⟨.new picks.config, .fresh 2⟩).2
    t.session.history = [⟨⟨⟨0⟩, "pick", Dict.empty.insert "n" (.number 1)⟩, 0⟩] ∧
      t.game.log = ["picked"] ∧ ∀ other : Session,
        (picks.replay (t.session.history.map (·.move))).on ⟨other, .fresh 2⟩ = (.ok (), t) := by
  have turns : ∀ op ∈ pickOnce, op.isTurn := by simp [pickOnce, Operation.isTurn]
  have replied :
      Replied (picks.runAll (.start :: .play :: pickOnce) ⟨.new picks.config, .fresh 2⟩).1 := by
    unfold Replied
    decide +kernel
  exact ⟨by decide +kernel, by decide +kernel,
    Rules.replay_history picks_looksBack rfl turns replied⟩

end Tabletop
