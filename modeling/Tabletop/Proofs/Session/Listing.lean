import Tabletop.Proofs.Action.Search
import Tabletop.Proofs.Session.History
import Tabletop.Proofs.Session.Runs
import Tabletop.Script.Host

/-! # Playing what is listed

A menu lists the complete moves of all entries of a step, each under the arguments that
its own entry fixes. A submitted move is carried out under the first entry of its name.
So a listed move is played as it is listed if and only if this entry fixes nothing else;
and a move under the name of passing passes, whatever entry it was listed for.

Main statement: `plays_as_listed`.
-/

namespace Tabletop

variable {G : Type}

/-! ### Complete moves -/

section Complete

variable {a : Action G} {g : G} {args : Args} {moves : List OpenMove} {m : OpenMove}

/-- The move goes on from some arguments, is complete, and passes the check of its action
as it is. -/
structure Action.Completes (a : Action G) (g : G) (args : Args) (m : OpenMove) : Prop where
  name_eq : m.name = a.name
  sub : args ⊆ m.args
  checked : a.check g m.args = (m.args, none)

namespace Action

theorem Completes.mono {fewer : Args} (h : a.Completes g args m) (sub : fewer ⊆ args) :
    a.Completes g fewer m := ⟨h.name_eq, Dict.Subset.trans sub h.sub, h.checked⟩

/-- A complete move among the open moves of an action is one the action accepts. -/
theorem completes_of_openMoves (found : a.openMoves g args = some moves) (mem : m ∈ moves)
    (complete : m.isComplete) : a.isAvailable g ∧ a.Completes g args m := by
  obtain ⟨available, found⟩ := openMoves_eq_some.1 found
  obtain ⟨m', rfl, reaches⟩ := reaches_of_searchAmong found
  obtain rfl := List.mem_singleton.1 mem
  exact ⟨available, reaches.name_eq, reaches.sub, reaches.checked complete⟩

end Action

end Complete

/-! ### What a step lists -/

section Menu

variable {r : Repertoire G} {g : G} {player : Player} {args : Args} {m : OpenMove}

theorem Repertoire.name_of_make? {name : String} {action : Action G}
    (h : r.make? name g player = .ok (some action)) : action.name = name := by
  unfold make? at h
  split at h
  · cases h
  · obtain ⟨made, -, h⟩ := bind_eq_ok.1 h
    cases h
    rfl

/-- The move completes an action that is offered under some fixed arguments. -/
structure StepAction.Lists (r : Repertoire G) (g : G) (player : Player)
    (entry : StepAction G (Flow G)) (action : Action G) (m : OpenMove) : Prop where
  made : r.make? entry.name g player = .ok (some action)
  available : action.isAvailable g
  completes : action.Completes g entry.prefilled m

theorem StepAction.Lists.name_eq {entry : StepAction G (Flow G)} {action : Action G}
    (h : entry.Lists r g player action m) : m.name = entry.name :=
  h.completes.name_eq.trans (Repertoire.name_of_make? h.made)

theorem lists_of_open? {entry : StepAction G (Flow G)} {action : Action G} {moves : List OpenMove}
    (found : r.open? g player entry args = .ok (some (action, moves))) (mem : m ∈ moves)
    (complete : m.isComplete) : entry.Lists r g player action m := by
  obtain ⟨made, makes, opens⟩ := bind_eq_ok.1 found
  cases made with
  | none => cases opens
  | some made =>
      obtain ⟨moves', opens, pair_eq⟩ := Option.map_eq_some_iff.1 (Except.ok.inj opens)
      cases pair_eq
      obtain ⟨available, completes⟩ := Action.completes_of_openMoves opens mem complete
      exact ⟨makes, available, completes.mono (Dict.subset_merge _ _)⟩

/-- The choice between folded actions is not complete, so a complete move is listed or
that of a folded action. -/
theorem Menu.Entries.mem_of_moves {e : Menu.Entries} {prompt : Option String}
    (mem : m ∈ e.moves prompt) (complete : m.isComplete) :
    m ∈ e.listed ∨ ∃ f ∈ e.folded, m ∈ f.2 := by
  unfold moves at mem
  split at mem
  · rcases List.mem_append.1 mem with mem | mem
    · exact .inl mem
    · obtain rfl := List.mem_singleton.1 mem
      cases complete
  · exact (List.mem_append.1 mem).imp_right List.mem_flatMap.1

theorem lists_of_entries {name : Option String} {actions : List (StepAction G (Flow G))}
    {entries : Menu.Entries} (h : Stop.entries r g player name args actions = .ok entries)
    (mem : m ∈ entries.listed ∨ ∃ f ∈ entries.folded, m ∈ f.2) (complete : m.isComplete) :
    ∃ entry ∈ actions, ∃ action, entry.Lists r g player action m := by
  induction actions generalizing entries with
  | nil =>
      cases h
      simp at mem
  | cons entry rest ih =>
      have among_rest : ∀ {later : Menu.Entries},
          Stop.entries r g player name args rest = .ok later →
            (m ∈ later.listed ∨ ∃ f ∈ later.folded, m ∈ f.2) →
              ∃ entry' ∈ entry :: rest, ∃ action, entry'.Lists r g player action m := by
        intro later h mem
        obtain ⟨entry', mem', lists⟩ := ih h mem
        exact ⟨entry', List.mem_cons_of_mem _ mem', lists⟩
      unfold Stop.entries at h
      split at h
      · exact among_rest h mem
      obtain ⟨found, opens, h⟩ := bind_eq_ok.1 h
      obtain ⟨later, entries_later, h⟩ := bind_eq_ok.1 h
      cases found with
      | none =>
          cases h
          exact among_rest entries_later mem
      | some found =>
          obtain ⟨action, moves⟩ := found
          have here : m ∈ moves → ∃ entry' ∈ entry :: rest, ∃ action,
              entry'.Lists r g player action m := fun mem =>
            ⟨entry, List.mem_cons_self, action, lists_of_open? opens mem complete⟩
          dsimp only at h
          split at h
          · cases h
            rcases mem with mem | mem
            · rcases List.mem_append.1 mem with mem | mem
              · exact here mem
              · exact among_rest entries_later (.inl mem)
            · exact among_rest entries_later (.inr mem)
          · cases h
            rcases mem with mem | ⟨f, mem_f, mem⟩
            · exact among_rest entries_later (.inl mem)
            · rcases List.mem_cons.1 mem_f with rfl | mem_f
              · exact here mem
              · exact among_rest entries_later (.inr ⟨f, mem_f, mem⟩)

/-- A complete move of a menu passes an optional step, or is one of an entry of the step. -/
theorem lists_of_menu? {s : Stop G} {name : Option String} {given : Option Args} {menu : Menu}
    (shows : s.menu? r g player name given = .ok (some menu)) (mem : m ∈ menu.moves)
    (complete : m.isComplete) :
    (m = Menu.passMove ∧ s.step.isOptional) ∨
      ∃ entry ∈ s.step.actions, ∃ action, entry.Lists r g player action m := by
  obtain ⟨entries, entries_eq, shows⟩ := bind_eq_ok.1 shows
  obtain ⟨-, menu_eq⟩ := Option.ite_none_left_eq_some.1 (Except.ok.inj shows)
  cases menu_eq
  rcases List.mem_append.1 mem with mem | mem
  · exact .inr (lists_of_entries entries_eq (Menu.Entries.mem_of_moves mem complete) complete)
  · split at mem
    · rename_i passes
      exact .inl ⟨List.mem_singleton.1 mem, (Bool.and_eq_true_iff.1 passes).1⟩
    · cases mem

end Menu

/-! ### Submitting what is listed -/

section Submit

/-- The move of a player that an open move stands for. -/
def OpenMove.by (m : OpenMove) (player : Player) : Move := ⟨player, m.name, m.args⟩

/-- What the step carries out under the name of a move leaves the arguments as they are:
it is passed without any, or the first entry of the name fixes none but theirs. -/
def Stop.Honours (s : Stop G) (move : Move) : Prop :=
  if move.name = ActionStep.pass then s.step.isOptional ∧ move.args = .empty
  else ∃ entry, s.step.find? move.name = some entry ∧ entry.prefilled ⊆ move.args

variable {rules : Rules G} {s : Stop G} {g : G} {dice : Dice} {m : OpenMove}
  {move : Move} {performed : Performed G} {t : Table G}

namespace Rules

/-- Carries out a move at a stop with its arguments as they are. -/
def carryOut (rules : Rules G) (s : Stop G) (g : G) (dice : Dice) (move : Move) :
    Playing (Performed G) :=
  if move.name = ActionStep.pass then .ok (Outcome.none, g, dice)
  else do
    let action ← rules.actionOf s move.name g move.player
    action.execute g dice move.player move.args

/-- The entry of a name is found if the names are distinct. -/
theorem find?_of_nodup {step : ActionStep G (Flow G)} {entry : StepAction G (Flow G)}
    (distinct : (step.actions.map (·.name)).Nodup) (mem : entry ∈ step.actions) :
    step.find? entry.name = some entry := by
  unfold ActionStep.find?
  generalize step.actions = actions at distinct mem
  induction actions with
  | nil => cases mem
  | cons first rest ih =>
      obtain ⟨first_only, distinct⟩ := List.nodup_cons.1 distinct
      rcases List.mem_cons.1 mem with rfl | mem
      · simp
      · have other : first.name ≠ entry.name := by
          intro same
          exact first_only (List.mem_map.2 ⟨entry, mem, same.symm⟩)
        rw [List.find?_cons_of_neg (by simpa using other)]
        exact ih distinct mem

/-- Where the actions of a step have distinct names and none has the name of passing, the
step honours all it lists. -/
theorem honours_of_nodup {r : Repertoire G} {player : Player} {name : Option String}
    {given : Option Args} {menu : Menu}
    (distinct : (s.step.actions.map (·.name)).Nodup)
    (no_pass : ActionStep.pass ∉ s.step.actions.map (·.name))
    (shows : s.menu? r g player name given = .ok (some menu)) (mem : m ∈ menu.moves)
    (complete : m.isComplete) : s.Honours (m.by player) := by
  unfold Stop.Honours
  rcases lists_of_menu? shows mem complete with ⟨rfl, optional⟩ | ⟨entry, mem, action, lists⟩
  · have passes : (Menu.passMove.by player).name = ActionStep.pass := rfl
    rw [if_pos passes]
    exact ⟨optional, rfl⟩
  · have name_eq : (m.by player).name = entry.name := lists.name_eq
    have named : (m.by player).name ≠ ActionStep.pass := by
      rintro passes
      exact no_pass (List.mem_map.2 ⟨entry, mem, name_eq.symm.trans passes⟩)
    rw [if_neg named, name_eq]
    exact ⟨entry, find?_of_nodup distinct mem, lists.completes.sub⟩

/-- An accepted move that the step does not honour is carried out with other arguments. -/
theorem args_ne_of_perform (dishonoured : ¬s.Honours move)
    (h : rules.perform s g dice move = .ok (.ok performed)) : performed.1.args ≠ move.args := by
  intro same
  apply dishonoured
  unfold Stop.Honours
  unfold perform at h
  by_cases passes : move.name = ActionStep.pass
  · rw [if_pos passes] at h ⊢
    split at h
    · rename_i optional
      cases h
      exact ⟨optional, same.symm⟩
    · cases h
  · rw [if_neg passes] at h ⊢
    split at h
    · cases h
    · rename_i entry found
      obtain ⟨action, -, processes⟩ := bind_eq_ok.1 h
      have checked := (Action.check_of_process (Playing.ofChecked_eq_ok.1 processes)).2
      have sub := (Action.checkAmong_adds checked).1
      rw [same] at sub
      exact ⟨entry, found, Dict.Subset.trans (Dict.subset_merge _ _) sub⟩

/-- The move passes, or it is the complete move of an entry of a step. -/
def IsListed (rules : Rules G) (g : G) (move : Move) : Prop :=
  move.name = ActionStep.pass ∨ ∃ (entry : StepAction G (Flow G)) (action : Action G),
    entry.Lists rules.repertoire g move.player action ⟨move.name, move.args, []⟩

theorem actionOf_of_lists {entry : StepAction G (Flow G)} {action : Action G}
    (lists : entry.Lists rules.repertoire g move.player action ⟨move.name, move.args, []⟩) :
    rules.actionOf s move.name g move.player = .ok action := by
  have name_eq : move.name = entry.name := lists.name_eq
  rw [actionOf, name_eq, lists.made]
  rfl

/-- A listed move that the step honours is accepted and carried out as it is. -/
theorem perform_eq_carryOut (listed : rules.IsListed g move) (honours : s.Honours move) :
    rules.perform s g dice move = (rules.carryOut s g dice move).map .ok := by
  unfold perform carryOut
  unfold Stop.Honours at honours
  by_cases passes : move.name = ActionStep.pass
  · rw [if_pos passes] at honours ⊢
    rw [if_pos passes, if_pos honours.1]
    rfl
  · rw [if_neg passes] at honours ⊢
    rw [if_neg passes]
    obtain ⟨first, found, sub⟩ := honours
    obtain ⟨entry, action, lists⟩ := listed.resolve_left passes
    have filled : first.fill move.args = move.args := Dict.merge_of_subset sub
    have processed : action.process g dice move.player move.args =
        .ok <$> action.execute g dice move.player move.args := by
      rw [Action.process, if_pos lists.available, lists.completes.checked]
    simp only [found, actionOf_of_lists lists, filled]
    change Playing.ofChecked (action.process g dice move.player move.args) =
      (Playing.ofChecked (action.execute g dice move.player move.args)).map .ok
    rw [processed]
    cases action.execute g dice move.player move.args <;> rfl

/-- Carrying out a listed move fails only by a mistake of the author, and it leaves the
arguments as they are. -/
theorem carryOut_of_listed (listed : rules.IsListed g move) (honours : s.Honours move)
    (dice : Dice) :
    (∃ fault, rules.carryOut s g dice move = .error (.fault fault)) ∨
      ∃ performed, rules.carryOut s g dice move = .ok performed ∧
        performed.1.args = move.args := by
  unfold carryOut
  unfold Stop.Honours at honours
  by_cases passes : move.name = ActionStep.pass
  · rw [if_pos passes] at honours ⊢
    exact .inr ⟨_, rfl, honours.2.symm⟩
  · rw [if_neg passes]
    obtain ⟨entry, action, lists⟩ := listed.resolve_left passes
    rw [actionOf_of_lists lists]
    cases executes : action.execute g dice move.player move.args with
    | error fault =>
        left
        refine ⟨fault, ?_⟩
        change Playing.ofChecked (action.execute g dice move.player move.args) = _
        rw [executes, Playing.ofChecked_error]
    | ok performed =>
        right
        refine ⟨performed, ?_, Action.args_of_execute executes⟩
        change Playing.ofChecked (action.execute g dice move.player move.args) = _
        rw [executes, Playing.ofChecked_ok]

section Main

variable [Game G]

/-- The move is played at a stop with its arguments as they are: it is not refused, it is
carried out and put into the flow with them, and with them it goes into the history. -/
structure PlaysAsIs (rules : Rules G) (t : Table G) (s : Stop G) (move : Move) : Prop where
  not_refused : ∀ refusal, ((rules.submit move).on t).1 ≠ .ok (some refusal)
  submit_eq : (rules.submit move).on t = (do
      let performed ← liftM (rules.carryOut s t.game t.session.dice move)
      rules.carryOn s move performed
      return none : Drive G (Option Refusal)).on t
  args_eq : ∀ performed, rules.carryOut s t.game t.session.dice move = .ok performed →
    performed.1.args = move.args
  recorded : (∃ fault, ((rules.submit move).on t).1 = .error (.fault fault)) ∨
    ((rules.submit move).on t).2.session.history = (t.session.record rules.config move).history

theorem playsAsIs_of_listed
    (finds : Stop.findFor t.game move.player (rules.stopsNow t) = .ok (some s))
    (listed : rules.IsListed t.game move) (honours : s.Honours move) :
    rules.PlaysAsIs t s move := by
  have submits := on_submit finds
  rw [perform_eq_carryOut listed honours] at submits
  rcases carryOut_of_listed listed honours t.session.dice with
    ⟨fault, fails⟩ | ⟨performed, carries, same⟩
  · rw [fails] at submits
    constructor
    · intro refusal refused
      rw [submits] at refused
      cases refused
    · rw [submits, fails]
      rfl
    · intro performed carries
      rw [fails] at carries
      cases carries
    · exact .inl ⟨fault, congrArg Prod.fst submits⟩
  · rw [carries] at submits
    have recorded := record_of_carryOn (mem_of_findFor finds) move performed
    dsimp only [Except.map] at submits
    constructor
    · intro refusal refused
      rw [submits, Drive.on_bind_pure] at refused
      cases ends : ((rules.carryOn s move performed).on t).1 with
      | error e =>
          rw [ends] at refused
          cases refused
      | ok _ =>
          rw [ends] at refused
          cases refused
    · rw [submits, carries]
      rfl
    · intro performed' carries'
      rw [carries] at carries'
      cases carries'
      exact same
    · rw [submits, Drive.on_bind_pure]
      rw [same] at recorded
      refine recorded.imp_left ?_
      rintro ⟨fault, fails⟩
      exact ⟨fault, by rw [fails]; rfl⟩

/-- A complete move in the menu of a player, sent as it is listed by that player, is found
at the stop that made the menu. If the step honours it, it is played as it is. If not, it
is not carried out with the arguments it is listed with. All moves are honoured by a step
that offers no action twice, and none under the name of passing. -/
theorem plays_as_listed {player : Player} {name : Option String} {given : Option Args}
    {menu : Menu} (shows : rules.menu? t player name given = .ok (some menu))
    (mem : m ∈ menu.moves) (complete : m.isComplete) :
    ∃ s, Stop.findFor t.game player (rules.stopsNow t) = .ok (some s) ∧
      (s.Honours (m.by player) → rules.PlaysAsIs t s (m.by player)) ∧
        (¬s.Honours (m.by player) → ∀ performed,
          rules.perform s t.game t.session.dice (m.by player) = .ok (.ok performed) →
            performed.1.args ≠ m.args) ∧
          ((s.step.actions.map (·.name)).Nodup →
            ActionStep.pass ∉ s.step.actions.map (·.name) → s.Honours (m.by player)) := by
  obtain ⟨found, finds, at_stop⟩ := bind_eq_ok.1 shows
  cases found with
  | none => cases at_stop
  | some s =>
      refine ⟨s, finds, ?_, fun dishonoured _ => args_ne_of_perform dishonoured,
        fun distinct no_pass => honours_of_nodup distinct no_pass at_stop mem complete⟩
      intro honours
      refine playsAsIs_of_listed finds ?_ honours
      obtain ⟨listed_name, listed_args, offers⟩ := m
      obtain rfl : offers = [] := List.isEmpty_iff.1 complete
      rcases lists_of_menu? at_stop mem complete with ⟨passes, -⟩ | ⟨entry, -, action, lists⟩
      · cases passes
        exact .inl rfl
      · exact .inr ⟨entry, action, lists⟩

end Main

/-- A step that offers one action twice, each time with another fixed amount. -/
def taking : Rules Script.Host where
  flows := .ofMain (.act step)
  repertoire := Dict.empty.insert "take" fun _ _ =>
    .ok { name := "take", selections := [{ name := "n", kind := .number none none }] }
  config := { maxSteps := 8 }
where
  amount (n : Int64) : Args := Dict.empty.insert "n" (.number n)
  step : ActionStep Script.Host (Flow Script.Host) :=
    ⟨none, none, none, [⟨"take", [], amount 1, true⟩, ⟨"take", [], amount 2, true⟩]⟩

/-- Both amounts are listed, but the move with the second one is carried out with the
first one, and so it is recorded. -/
theorem listed_second_plays_first :
    let t := (taking.runAll [.start, .play] ⟨.new taking.config, .fresh 2⟩).2
    let second : OpenMove := ⟨"take", taking.amount 2, []⟩
    checkFlow taking.repertoire taking.flows.main = .ok () ∧
      taking.menu? t ⟨0⟩ none none =
          .ok (some ⟨none, none, [⟨"take", taking.amount 1, []⟩, second]⟩) ∧
        ((taking.submit (second.by ⟨0⟩)).on t).2.session.history =
          [⟨⟨⟨0⟩, "take", taking.amount 1⟩, 0⟩] := by
  intro t second
  exact ⟨by decide +kernel, by decide +kernel, by decide +kernel⟩

/-- The first amount is the one that the step honours. -/
theorem plays_as_listed_taking :
    let t := (taking.runAll [.start, .play] ⟨.new taking.config, .fresh 2⟩).2
    let first : OpenMove := ⟨"take", taking.amount 1, []⟩
    let menu : Menu := ⟨none, none, [first, ⟨"take", taking.amount 2, []⟩]⟩
    taking.menu? t ⟨0⟩ none none = .ok (some menu) ∧ first ∈ menu.moves ∧ first.isComplete ∧
      ∃ s, s.Honours (first.by ⟨0⟩) ∧ taking.PlaysAsIs t s (first.by ⟨0⟩) := by
  intro t first menu
  have shows : taking.menu? t ⟨0⟩ none none = .ok (some menu) := by decide +kernel
  have mem : first ∈ menu.moves := List.mem_cons_self
  obtain ⟨s, finds, plays, -, -⟩ := plays_as_listed shows mem rfl
  have at_step : Stop.findFor t.game ⟨0⟩ (taking.stopsNow t) =
      .ok (some ⟨.act taking.step, taking.step, .here, .ofArgs .empty⟩) := rfl
  obtain rfl := Option.some.inj (Except.ok.inj (finds.symm.trans at_step))
  have honours : Stop.Honours ⟨.act taking.step, taking.step, .here, .ofArgs .empty⟩
      (first.by ⟨0⟩) := ⟨_, rfl, Dict.Subset.refl _⟩
  exact ⟨shows, mem, rfl, _, honours, plays honours⟩

end Rules

end Submit

end Tabletop
