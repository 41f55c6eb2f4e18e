import Tabletop.Proofs.Session.Listing
import Tabletop.Proofs.Session.Turns

/-! # What a menu presents

The menu of a step is worked out from the entries of the step that can be completed, each of
which has a single open move. Entries that are to be shown directly come with their moves;
of the others a single one is shown in the same way, and several are folded into one move
that chooses between them. Nothing is lost by that, and nothing else is shown. To ask for a
name, and whether the player can do anything at all, are walks of their own over the same
entries, with the same outcome.

Main statements: `menu?_eq` and `menu_presents`.
-/

namespace Tabletop

variable {G : Type}

/-! ### Entries that can be completed -/

/-- The action of the entry is made for the player, and can be completed from what the entry
fixes. -/
def StepAction.CanOpen (entry : StepAction G (Flow G)) (r : Repertoire G) (g : G)
    (player : Player) : Prop :=
  ∃ action moves, r.make? entry.name g player = .ok (some action) ∧
    action.openMoves g entry.prefilled = some moves

/-- An entry of a step that can be completed, with its action and its open move. -/
structure Opened (r : Repertoire G) (g : G) (player : Player) where
  entry : StepAction G (Flow G)
  action : Action G
  move : OpenMove
  made : r.make? entry.name g player = .ok (some action)
  opens : action.openMoves g entry.prefilled = some [move]

section Opened

variable {r : Repertoire G} {g : G} {player : Player} {entry : StepAction G (Flow G)}
  {o : Opened r g player}

/-- An action that can be completed has one open move, under its name. -/
theorem Action.openMoves_eq_singleton {a : Action G} {args : Args} {moves : List OpenMove}
    (h : a.openMoves g args = some moves) : ∃ m, moves = [m] ∧ m.name = a.name := by
  obtain ⟨m, rfl, reaches⟩ := reaches_of_searchAmong (openMoves_eq_some.1 h).2
  exact ⟨m, rfl, reaches.name_eq⟩

theorem Opened.name_eq (o : Opened r g player) : o.move.name = o.entry.name := by
  obtain ⟨m, same, name_eq⟩ := Action.openMoves_eq_singleton o.opens
  obtain rfl := List.singleton_inj.1 same
  exact name_eq.trans (Repertoire.name_of_make? o.made)

theorem exists_opened : (∃ o : Opened r g player, o.entry = entry) ↔ entry.CanOpen r g player := by
  constructor
  · rintro ⟨o, rfl⟩
    exact ⟨o.action, [o.move], o.made, o.opens⟩
  · rintro ⟨action, moves, made, opens⟩
    obtain ⟨m, rfl, -⟩ := Action.openMoves_eq_singleton opens
    exact ⟨⟨entry, action, m, made, opens⟩, rfl⟩

/-- What an entry opens is determined by the entry. -/
theorem Opened.ext_entry {o' : Opened r g player} (h : o.entry = o'.entry) : o = o' := by
  obtain ⟨entry, action, move, made, opens⟩ := o
  obtain ⟨entry', action', move', made', opens'⟩ := o'
  obtain rfl : entry = entry' := h
  obtain ⟨⟩ := made.symm.trans made'
  obtain ⟨⟩ := opens.symm.trans opens'
  rfl

/-- What an entry opens, if it can be completed. -/
def Opened.of? (r : Repertoire G) (g : G) (player : Player) (entry : StepAction G (Flow G)) :
    Option (Opened r g player) :=
  match made : r.make? entry.name g player with
  | .ok (some action) =>
      match opens : action.openMoves g entry.prefilled with
      | some [move] => some ⟨entry, action, move, made, opens⟩
      | _ => none
  | _ => none

theorem Opened.entry_of_of? (h : of? r g player entry = some o) : o.entry = entry := by
  unfold of? at h
  split at h
  · split at h
    · cases h
      rfl
    · cases h
  · cases h

theorem Opened.of?_eq_none (h : of? r g player entry = none) : ¬entry.CanOpen r g player := by
  rintro ⟨action, moves, made, opens⟩
  obtain ⟨m, rfl, -⟩ := Action.openMoves_eq_singleton opens
  unfold of? at h
  split at h
  · rename_i action' made'
    obtain ⟨⟩ := made.symm.trans made'
    split at h
    · cases h
    · rename_i other
      exact other m opens
  · rename_i other
    exact other action made

theorem Opened.of?_eq_some : of? r g player entry = some o ↔ o.entry = entry := by
  refine ⟨entry_of_of?, ?_⟩
  rintro rfl
  cases found : of? r g player o.entry with
  | none => exact absurd (exists_opened.1 ⟨o, rfl⟩) (of?_eq_none found)
  | some o' => rw [Opened.ext_entry (entry_of_of? found)]

/-- Where the making of an action has a result, an entry that is looked up is what it
opens. -/
theorem open?_eq_of? (makes : ∃ found, r.make? entry.name g player = .ok found) :
    r.open? g player entry .empty =
      .ok ((Opened.of? r g player entry).map fun o => (o.action, [o.move])) := by
  obtain ⟨found, made⟩ := makes
  have filled : entry.fill .empty = entry.prefilled := Dict.empty_merge _
  have looked_up : r.open? g player entry .empty =
      .ok (found.bind fun action =>
        (action.openMoves g entry.prefilled).map fun moves => (action, moves)) := by
    rw [Repertoire.open?, made, filled]
    rfl
  rw [looked_up]
  cases opened : Opened.of? r g player entry with
  | some o =>
      obtain rfl := Opened.entry_of_of? opened
      obtain ⟨⟩ := made.symm.trans o.made
      rw [Option.bind_some, o.opens]
      rfl
  | none =>
      have not_open := Opened.of?_eq_none opened
      cases found with
      | none => rfl
      | some action =>
          cases opens : action.openMoves g entry.prefilled with
          | none => rw [Option.bind_some, opens]; rfl
          | some moves => exact absurd ⟨action, moves, made, opens⟩ not_open

instance : Decidable (entry.CanOpen r g player) :=
  match found : Opened.of? r g player entry with
  | some o => isTrue (exists_opened.1 ⟨o, Opened.entry_of_of? found⟩)
  | none => isFalse (Opened.of?_eq_none found)

namespace Opened

/-- The choice of the entry where several are folded. -/
def choice (o : Opened r g player) : Choice :=
  ⟨.text o.entry.name, o.action.prompt.getD o.entry.name⟩

/-- The entries among some actions that can be completed, in the order of declaration. -/
def among (r : Repertoire G) (g : G) (player : Player) (actions : List (StepAction G (Flow G))) :
    List (Opened r g player) := actions.filterMap (of? r g player)

variable {actions : List (StepAction G (Flow G))}

theorem among_cons :
    among r g player (entry :: actions) =
      match of? r g player entry with
      | none => among r g player actions
      | some o => o :: among r g player actions := by
  unfold among
  rw [List.filterMap_cons]
  cases of? r g player entry <;> rfl

theorem mem_among : o ∈ among r g player actions ↔ o.entry ∈ actions := by
  simp [among, List.mem_filterMap, of?_eq_some]

theorem map_entry_among :
    (among r g player actions).map (·.entry) = actions.filter (·.CanOpen r g player) := by
  induction actions with
  | nil => rfl
  | cons entry rest ih =>
      rw [among_cons]
      cases found : of? r g player entry with
      | none =>
          have not_open := of?_eq_none found
          rw [ih, List.filter_cons_of_neg (by simpa using not_open)]
      | some o =>
          obtain rfl := entry_of_of? found
          have can_open := exists_opened.1 ⟨o, rfl⟩
          rw [List.map_cons, ih, List.filter_cons_of_pos (by simpa using can_open)]

/-- Something of a kind is among the entries if and only if some action of the kind can be
completed. -/
theorem exists_mem_among {kind : StepAction G (Flow G) → Prop} :
    (∃ o ∈ among r g player actions, kind o.entry) ↔
      ∃ entry ∈ actions, kind entry ∧ entry.CanOpen r g player := by
  constructor
  · rintro ⟨o, mem, of_kind⟩
    exact ⟨o.entry, mem_among.1 mem, of_kind, exists_opened.1 ⟨o, rfl⟩⟩
  · rintro ⟨entry, mem, of_kind, can_open⟩
    obtain ⟨o, rfl⟩ := exists_opened.2 can_open
    exact ⟨o, mem_among.2 mem, of_kind⟩

end Opened

end Opened

/-! ### The moves of a menu -/

/-- The entries of a menu that some entries of a step open: all of them are listed directly,
or only the ones that are to be. -/
def Menu.Entries.ofOpened {r : Repertoire G} {g : G} {player : Player} (all : Bool)
    (opened : List (Opened r g player)) : Menu.Entries where
  listed := (opened.filter fun o => all || o.entry.expanded).map (·.move)
  folded := (opened.filter fun o => !(all || o.entry.expanded)).map fun o => (o.choice, [o.move])

theorem Menu.Entries.ofOpened_cons {r : Repertoire G} {g : G} {player : Player} (all : Bool)
    (o : Opened r g player) (rest : List (Opened r g player)) :
    ofOpened all (o :: rest) =
      if all || o.entry.expanded then
        { ofOpened all rest with listed := o.move :: (ofOpened all rest).listed }
      else
        { ofOpened all rest with
          folded := (o.choice, [o.move]) :: (ofOpened all rest).folded } := by
  unfold ofOpened
  rw [List.filter_cons, List.filter_cons]
  cases all || o.entry.expanded <;> rfl

namespace Stop

variable {s : Stop G} {r : Repertoire G} {g : G} {player : Player}

/-- The entries of a menu, for all actions of the step or for those of one name. -/
theorem entries_eq {name : Option String} {actions : List (StepAction G (Flow G))}
    (makes : ∀ entry ∈ actions, name.all (· == entry.name) →
      ∃ found, r.make? entry.name g player = .ok found) :
    Stop.entries r g player name .empty actions =
      .ok (.ofOpened name.isSome
        (Opened.among r g player (actions.filter fun entry => name.all (· == entry.name)))) := by
  induction actions with
  | nil => rfl
  | cons entry rest ih =>
      obtain ⟨here, later⟩ := List.forall_mem_cons.1 makes
      rw [Stop.entries, ih later, List.filter_cons]
      have other : name.any (· != entry.name) = !name.all (· == entry.name) := by
        cases name <;> rfl
      cases named : name.all (· == entry.name) with
      | false =>
          rw [other, named]
          rfl
      | true =>
          rw [other, named, open?_eq_of? (here named), if_pos rfl, Opened.among_cons]
          cases found : Opened.of? r g player entry with
          | none => rfl
          | some o =>
              obtain rfl := Opened.entry_of_of? found
              dsimp only
              rw [Menu.Entries.ofOpened_cons]
              cases name.isSome || o.entry.expanded <;> rfl

/-- The menu of the step with some moves, none if there are no moves. -/
def menuWith (s : Stop G) (moves : List OpenMove) : Option Menu :=
  if moves.isEmpty then none else some { step := s.flow.name, prompt := s.step.prompt, moves }

theorem isSome_menuWith {moves : List OpenMove} : (s.menuWith moves).isSome ↔ moves ≠ [] := by
  cases moves <;> simp [menuWith]

/-- What a menu shows of its entries, if no arguments are sent along. -/
theorem menu?_of_entries {name : Option String} {e : Menu.Entries}
    (entries_are : Stop.entries r g player name .empty s.step.actions = .ok e) :
    s.menu? r g player name none = .ok (s.menuWith (e.moves s.step.prompt ++
      if s.step.isOptional && name.all (· == ActionStep.pass) then [Menu.passMove] else [])) := by
  have given : (if name.isSome || s.step.actions.length == 1 then
      (none : Option Args).getD .empty else .empty) = .empty := by
    split <;> rfl
  rw [menu?, given, entries_are]
  rfl

/-- The moves of entries that can be completed: those that are listed directly, and one of
the others or a choice between them. -/
def movesOf (s : Stop G) (opened : List (Opened r g player)) : List OpenMove :=
  let folded := opened.filter fun o => !o.entry.expanded
  (opened.filter (·.entry.expanded)).map (·.move) ++
    if folded.length > 1 then [Menu.chooseMove s.step.prompt (folded.map (·.choice))]
    else folded.map (·.move)

theorem moves_ofOpened_false (opened : List (Opened r g player)) :
    (Menu.Entries.ofOpened false opened).moves s.step.prompt = s.movesOf opened := by
  unfold Menu.Entries.moves Menu.Entries.ofOpened movesOf
  simp only [Bool.false_or, List.length_map, List.map_map, List.flatMap_map]
  split
  · rfl
  · exact congrArg _ List.map_eq_flatMap.symm

theorem moves_ofOpened_true {prompt : Option String} (opened : List (Opened r g player)) :
    (Menu.Entries.ofOpened true opened).moves prompt = opened.map (·.move) := by
  have listed : opened.filter (fun _ => true) = opened := List.filter_eq_self.2 fun _ _ => rfl
  have folded : opened.filter (fun _ => false) = [] := List.filter_eq_nil_iff.2 fun _ _ => nofun
  simp only [Menu.Entries.moves, Menu.Entries.ofOpened, Bool.true_or, Bool.not_true, listed,
    folded, List.map_nil, List.flatMap_nil, List.append_nil, List.length_nil]
  rfl

/-- Without a name the menu of a step has the moves of all entries that can be completed. -/
theorem menu?_eq (makes : ∀ entry ∈ s.step.actions, ∃ found,
      r.make? entry.name g player = .ok found) :
    s.menu? r g player none none =
      .ok (s.menuWith (s.movesOf (Opened.among r g player s.step.actions) ++
        if s.step.isOptional then [Menu.passMove] else [])) := by
  have all : s.step.actions.filter (fun _ => true) = s.step.actions :=
    List.filter_eq_self.2 fun _ _ => rfl
  rw [menu?_of_entries (entries_eq fun entry mem _ => makes entry mem)]
  simp only [Option.all_none, all, Bool.and_true, Option.isSome_none, moves_ofOpened_false]

/-- With a name the menu of a step has the moves of the entries of this name that can be
completed, all listed directly. -/
theorem menu?_named_eq {name : String} (makes : ∀ entry ∈ s.step.actions, entry.name = name →
      ∃ found, r.make? entry.name g player = .ok found) :
    s.menu? r g player (some name) none =
      .ok (s.menuWith
        ((Opened.among r g player (s.step.actions.filter (name == ·.name))).map (·.move) ++
          if s.step.isOptional && name == ActionStep.pass then [Menu.passMove] else [])) := by
  have makes : ∀ entry ∈ s.step.actions, (some name).all (· == entry.name) →
      ∃ found, r.make? entry.name g player = .ok found := by
    intro entry mem named
    exact makes entry mem (eq_of_beq named).symm
  rw [menu?_of_entries (entries_eq makes), Option.isSome_some, moves_ofOpened_true]
  rfl

/-! ### What is presented -/

end Stop

/-- The menu presents the action of a name: with a move of its own, or as a choice of the move
that chooses between several actions. -/
def Menu.Presents (menu : Menu) (name : String) : Prop :=
  (∃ m ∈ menu.moves, m.name = name) ∨ ∃ prompt choices,
    Menu.chooseMove prompt choices ∈ menu.moves ∧ ∃ c ∈ choices, c.value = .text name

namespace Stop

variable {s : Stop G} {r : Repertoire G} {g : G} {player : Player} {name : String}

/-- Moves of entries that can be completed stand for the entries, but for names that are
kept. -/
theorem mem_movesOf {m : OpenMove} {opened : List (Opened r g player)}
    (mem : m ∈ s.movesOf opened) :
    (∃ o ∈ opened, m = o.move) ∨ ∃ choices : List Choice,
      m = Menu.chooseMove s.step.prompt choices ∧
        ∀ c ∈ choices, ∃ o ∈ opened, c = o.choice := by
  unfold movesOf at mem
  rcases List.mem_append.1 mem with mem | mem
  · obtain ⟨o, o_mem, rfl⟩ := List.mem_map.1 mem
    exact .inl ⟨o, (List.mem_filter.1 o_mem).1, rfl⟩
  · split at mem
    · refine .inr ⟨_, List.mem_singleton.1 mem, fun c c_mem => ?_⟩
      obtain ⟨o, o_mem, rfl⟩ := List.mem_map.1 c_mem
      exact ⟨o, (List.mem_filter.1 o_mem).1, rfl⟩
    · obtain ⟨o, o_mem, rfl⟩ := List.mem_map.1 mem
      exact .inl ⟨o, (List.mem_filter.1 o_mem).1, rfl⟩

/-- Every entry that can be completed has its move, or is one of the choices. -/
theorem shown_of_mem {o : Opened r g player} {opened : List (Opened r g player)}
    (mem : o ∈ opened) :
    o.move ∈ s.movesOf opened ∨ ∃ choices,
      Menu.chooseMove s.step.prompt choices ∈ s.movesOf opened ∧ o.choice ∈ choices := by
  unfold movesOf
  cases expanded : o.entry.expanded with
  | true =>
      left
      exact List.mem_append_left _ (List.mem_map_of_mem (List.mem_filter.2 ⟨mem, expanded⟩))
  | false =>
      have folded : o ∈ opened.filter fun o => !o.entry.expanded :=
        List.mem_filter.2 ⟨mem, by simp [expanded]⟩
      dsimp only
      split
      · right
        exact ⟨_, List.mem_append_right _ List.mem_cons_self, List.mem_map_of_mem folded⟩
      · left
        exact List.mem_append_right _ (List.mem_map_of_mem folded)

theorem exists_presents {moves : List OpenMove} :
    (∃ menu ∈ s.menuWith moves, menu.Presents name) ↔
      Menu.Presents ⟨s.flow.name, s.step.prompt, moves⟩ name := by
  unfold menuWith
  cases moves with
  | nil => simp [Menu.Presents]
  | cons m moves => simp

/-- Where no entry has the name of the move that chooses between several actions, a menu
presents exactly the actions that can be completed, apart from names that are kept. -/
theorem presents_iff (no_choose : Menu.choose ∉ s.step.actions.map (·.name))
    (not_pass : name ≠ ActionStep.pass) (not_choose : name ≠ Menu.choose) :
    (∃ menu ∈ s.menuWith (s.movesOf (Opened.among r g player s.step.actions) ++
        if s.step.isOptional then [Menu.passMove] else []), menu.Presents name) ↔
      ∃ entry ∈ s.step.actions, entry.name = name ∧ entry.CanOpen r g player := by
  rw [exists_presents, ← Opened.exists_mem_among]
  constructor
  · rintro (⟨m, mem, rfl⟩ | ⟨prompt, choices, mem, c, c_mem, c_eq⟩)
    · rcases List.mem_append.1 mem with mem | mem
      · rcases mem_movesOf mem with ⟨o, o_mem, rfl⟩ | ⟨choices, rfl, -⟩
        · exact ⟨o, o_mem, o.name_eq.symm⟩
        · exact absurd rfl not_choose
      · split at mem
        · obtain rfl := List.mem_singleton.1 mem
          exact absurd rfl not_pass
        · cases mem
    · rcases List.mem_append.1 mem with mem | mem
      · rcases mem_movesOf mem with ⟨o, o_mem, same⟩ | ⟨choices', same, of_entries⟩
        · -- The move of an entry is not the one that chooses.
          have named : o.entry.name = Menu.choose := o.name_eq.symm.trans (same ▸ rfl)
          exact absurd (List.mem_map.2 ⟨o.entry, Opened.mem_among.1 o_mem, named⟩) no_choose
        · cases same
          obtain ⟨o, o_mem, rfl⟩ := of_entries c c_mem
          exact ⟨o, o_mem, Argument.text.inj c_eq⟩
      · split at mem
        · have same : Menu.choose = ActionStep.pass :=
            congrArg OpenMove.name (List.mem_singleton.1 mem)
          exact absurd same (by decide)
        · cases mem
  · rintro ⟨o, o_mem, rfl⟩
    rcases shown_of_mem (s := s) o_mem with mem | ⟨choices, mem, c_mem⟩
    · exact .inl ⟨o.move, List.mem_append_left _ mem, o.name_eq⟩
    · exact .inr ⟨_, choices, List.mem_append_left _ mem, o.choice, c_mem, rfl⟩

/-- For a name other than that of passing there is a menu if and only if an action of that
name can be completed. -/
theorem isSome_named_iff (not_pass : name ≠ ActionStep.pass) :
    (s.menuWith ((Opened.among r g player (s.step.actions.filter (name == ·.name))).map (·.move) ++
        if s.step.isOptional && name == ActionStep.pass then [Menu.passMove] else [])).isSome ↔
      ∃ entry ∈ s.step.actions, entry.name = name ∧ entry.CanOpen r g player := by
  have no_pass : (s.step.isOptional && name == ActionStep.pass) = false := by simp [not_pass]
  rw [isSome_menuWith, no_pass, if_neg Bool.false_ne_true, List.append_nil, ne_eq,
    List.map_eq_nil_iff]
  constructor
  · intro some_open
    obtain ⟨o, mem⟩ := List.exists_mem_of_ne_nil _ some_open
    obtain ⟨entry_mem, named⟩ := List.mem_filter.1 (Opened.mem_among.1 mem)
    exact ⟨o.entry, entry_mem, (eq_of_beq named).symm, exists_opened.1 ⟨o, rfl⟩⟩
  · rintro ⟨entry, mem, rfl, can_open⟩
    obtain ⟨o, rfl⟩ := exists_opened.2 can_open
    exact List.ne_nil_of_mem
      (Opened.mem_among.2 (List.mem_filter.2 ⟨mem, beq_self_eq_true o.entry.name⟩))

/-- What a menu presents, for any step, game and player, where the actions on offer can be made.
Without a name and arguments the menu has the moves of the entries that can be completed: in
the order of declaration those that are listed directly, then a choice between the others in
the same order, or the move of a single one, and then the move that passes an optional step. So
it presents exactly the actions that can be completed from what their entries fix, apart from
names that are kept for choosing and passing. There is a menu if and only if the player can do
something at the stop, and for a name there is one if and only if an action of that name can
be completed. -/
theorem menu_presents (makes : ∀ entry ∈ s.step.actions, ∃ found,
      r.make? entry.name g player = .ok found) :
    ∃ (opened : List (Opened r g player)) (menu : Option Menu),
      opened.map (·.entry) = s.step.actions.filter (·.CanOpen r g player) ∧
      menu = s.menuWith (s.movesOf opened ++
        if s.step.isOptional then [Menu.passMove] else []) ∧
      s.menu? r g player none none = .ok menu ∧
      s.isPlayable r g player = .ok menu.isSome ∧
      (Menu.choose ∉ s.step.actions.map (·.name) → ∀ name, name ≠ ActionStep.pass →
        name ≠ Menu.choose → ((∃ shown ∈ menu, shown.Presents name) ↔
          ∃ entry ∈ s.step.actions, entry.name = name ∧ entry.CanOpen r g player)) ∧
      ∀ name, name ≠ ActionStep.pass → ∃ named, s.menu? r g player (some name) none = .ok named ∧
        (named.isSome ↔
          ∃ entry ∈ s.step.actions, entry.name = name ∧ entry.CanOpen r g player) := by
  have shows := menu?_eq makes
  refine ⟨Opened.among r g player s.step.actions, _, Opened.map_entry_among, rfl, shows,
    isPlayable_of_menu? shows, fun no_choose name => presents_iff no_choose, ?_⟩
  intro name not_pass
  exact ⟨_, menu?_named_eq fun entry mem _ => makes entry mem, isSome_named_iff not_pass⟩

end Stop

namespace Market

open Script (Host)

/-- An entry of a step without a block. -/
def entry (name : String) (expanded : Bool) : StepAction Host (Flow Host) :=
  ⟨name, [], .empty, expanded⟩

/-- At the market a player may buy, sell, look or leave, and what is stolen is gone. -/
def step : ActionStep Host (Flow Host) where
  players := none
  prompt := some "At the market"
  passPrompt := some "Wait"
  actions :=
    [entry "sell" false, entry "look" true, entry "steal" false, entry "buy" false,
      entry "sell" true]

def stop : Stop Host := ⟨.act step, step, .here, .ofArgs .empty⟩

def repertoire : Repertoire Host :=
  (Dict.empty.insert "sell" fun _ _ => .ok { name := "sell", prompt := some "Sell fish" })
    |>.insert "look" (fun _ _ => .ok { name := "look" })
    |>.insert "steal" (fun _ _ => .ok { name := "steal", condition := some fun _ => false })
    |>.insert "buy" fun _ _ => .ok { name := "buy" }

theorem makes (g : Host) (player : Player) :
    ∀ entry ∈ step.actions, ∃ found, repertoire.make? entry.name g player = .ok found := by
  intro entry mem
  simp only [step, Market.entry, List.mem_cons, List.not_mem_nil, or_false] at mem
  rcases mem with rfl | rfl | rfl | rfl | rfl <;> exact ⟨_, rfl⟩

/-- What can be done is shown, partly as a choice, and what cannot be done is not. -/
theorem menu_presents_market :
    let g := Host.fresh 2
    ∃ menu : Option Menu, stop.menu? repertoire g ⟨0⟩ none none = .ok menu ∧
      menu.map (·.names) = some ["look", "sell", Menu.choose, ActionStep.pass] ∧
      stop.isPlayable repertoire g ⟨0⟩ = .ok true ∧
      (∃ shown ∈ menu, shown.Presents "buy") ∧ (¬∃ shown ∈ menu, shown.Presents "steal") ∧
      ∃ named, stop.menu? repertoire g ⟨0⟩ (some "buy") none = .ok named ∧ named.isSome := by
  intro g
  obtain ⟨opened, menu, opened_eq, menu_eq, shows, playable, presents, by_name⟩ :=
    Stop.menu_presents (s := stop) (makes g ⟨0⟩)
  have no_choose : Menu.choose ∉ stop.step.actions.map (·.name) := by decide
  have can_buy : ∃ entry ∈ stop.step.actions, entry.name = "buy" ∧
      entry.CanOpen repertoire g ⟨0⟩ := by decide +kernel
  have cannot_steal : ¬∃ entry ∈ stop.step.actions, entry.name = "steal" ∧
      entry.CanOpen repertoire g ⟨0⟩ := by decide +kernel
  have names : (stop.menu? repertoire g ⟨0⟩ none none).map (·.map (·.names)) =
      .ok (some ["look", "sell", Menu.choose, ActionStep.pass]) := by decide +kernel
  rw [shows] at names
  have names := Except.ok.inj names
  obtain ⟨named, named_eq, some_named⟩ := by_name "buy" (by decide)
  refine ⟨menu, shows, names, ?_, (presents no_choose "buy" (by decide) (by decide)).2 can_buy, ?_,
    named, named_eq, some_named.2 can_buy⟩
  · cases menu with
    | none => cases names
    | some menu => exact playable
  · rw [presents no_choose "steal" (by decide) (by decide)]
    exact cannot_steal

end Market

end Tabletop
