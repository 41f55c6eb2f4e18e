import Tabletop.Proofs.Flow.Callbacks

/-! # What a callback sees

A node at its mark gives values to the nodes below it: a loop its value or its number, a
switch its value, an action step what was sent with the move that it rests with. The
arguments that a callback sees are those of the flow with all of these on top, the ones
of nearer nodes over the ones of nodes further out.

Main statements: `Stands.args_eq`, `CallsAt.args_eq` and `ranAt_of_play`.
-/

namespace Tabletop

variable {G : Type}

/-! ### What a node gives -/

/-- The value that a loop or a switch holds for the nodes below it. -/
def Position.captured? {τ : Type} : Position τ → Option Argument
  | loop (some index) value => some (value.getD (Scope.ofIndex index))
  | each _ (some value) _ => some value
  | switch _ _ value => some value
  | _ => none

namespace Mark

/-- What a node at its mark gives to the nodes below it. -/
def given (mark : Mark Trail) : Args :=
  match mark.position with
  | .action (.taken move) => ((Scope.ofArgs move.args).bindMove mark.name move).args
  | position =>
      match position.captured? with
      | some value => ((Scope.ofArgs .empty).bind mark.name value).args
      | none => .empty

/-- Arguments under what nodes at some marks give, the last one on top. -/
def giveAll (marks : List (Mark Trail)) (args : Args) : Args :=
  marks.foldl (fun args mark => args.merge mark.given) args

/-- A key that a step of a name takes for itself when it rests with a move: its name, or
a key under its name. -/
def Owns (stepName : Option String) (key : String) : Prop :=
  ∃ name, stepName = some name ∧ (key = name ∨ ∃ rest, key = name ++ "." ++ rest)

variable {marks marks' : List (Mark Trail)} {mark : Mark Trail} {args : Args} {key : String}

theorem giveAll_append : giveAll (marks ++ marks') args = giveAll marks' (giveAll marks args) :=
  List.foldl_append

/-- Nodes that give no value for a key leave the one there is. -/
theorem get?_giveAll_of_clear (clear : ∀ mark ∈ marks, mark.given.get? key = none) :
    (giveAll marks args).get? key = args.get? key := by
  induction marks generalizing args with
  | nil => rfl
  | cons mark marks ih =>
      obtain ⟨mark_clear, marks_clear⟩ := List.forall_mem_cons.1 clear
      calc (giveAll (mark :: marks) args).get? key
        _ = (args.merge mark.given).get? key := ih marks_clear
        _ = args.get? key := by rw [Dict.get?_merge, mark_clear]; rfl

/-- What is seen is what the innermost node with a value for the key gives. -/
theorem get?_giveAll_of_nearest {value : Argument} (gives : mark.given.get? key = some value)
    (clear : ∀ mark ∈ marks', mark.given.get? key = none) :
    (giveAll (marks ++ mark :: marks') args).get? key = some value := by
  rw [giveAll_append]
  calc (giveAll marks' ((giveAll marks args).merge mark.given)).get? key
    _ = ((giveAll marks args).merge mark.given).get? key := get?_giveAll_of_clear clear
    _ = some value := by rw [Dict.get?_merge, gives]; rfl

/-- A named loop or switch gives its value under its name. -/
theorem get?_given_of_captured {name : String} {value : Argument} (named : mark.name = some name)
    (captured : mark.position.captured? = some value) : mark.given.get? name = some value := by
  obtain ⟨markName, position, stepIndex⟩ := mark
  obtain rfl : markName = some name := named
  have plain : given ⟨some name, position, stepIndex⟩ = Dict.empty.insert name value := by
    cases position with
    | action status => cases captured
    | _ =>
        simp only [given, captured]
        rfl
  rw [plain, Dict.get?_insert, if_pos rfl]

/-- Under a key that is not its own, a step that rests with a move gives what was sent
with the move. -/
theorem get?_given_of_taken {name : Option String} {move : Taken} {stepIndex : Option Nat}
    (free : ¬ Owns name key) :
    (given ⟨name, .action (.taken move), stepIndex⟩).get? key = move.args.get? key := by
  cases name with
  | none => rfl
  | some name =>
      have own : ∀ key', (∃ rest, key' = name ++ "." ++ rest) ∨ key' = name → key ≠ key' := by
        rintro key' own rfl
        exact free ⟨name, rfl, own.symm⟩
      have under : ∀ entries : List (String × Argument), ∀ args : Args,
          (entries.foldl (fun args e => args.insert (name ++ "." ++ e.1) e.2) args).get? key =
            args.get? key := by
        intro entries
        induction entries with
        | nil => exact fun args => rfl
        | cons e rest ih =>
            intro args
            rw [List.foldl_cons, ih, Dict.get?_insert, if_neg (own _ (.inl ⟨_, rfl⟩))]
      have player : name ++ ".player" = name ++ "." ++ "player" := by
        rw [String.append_assoc]
        rfl
      simp only [given, Scope.bindMove, Scope.ofArgs]
      rw [under, Dict.get?_insert, if_neg (own _ (.inl ⟨_, player⟩)), Dict.get?_insert,
        if_neg (own _ (.inr rfl))]

end Mark

namespace Scope

theorem args_bind (s : Scope) (name : Option String) (value : Argument) :
    (s.bind name value).args = s.args.merge ((ofArgs .empty).bind name value).args := by
  cases name with
  | none => rfl
  | some name => exact (Dict.merge_insert s.args .empty name value).symm

theorem args_bindMove (s : Scope) (args : Args) (name : Option String) (move : Taken) :
    (bindMove { s with args := s.args.merge args } name move).args =
      s.args.merge ((ofArgs args).bindMove name move).args := by
  cases name with
  | none => rfl
  | some name =>
      have under : ∀ (entries : List (String × Argument)) (upper : Args),
          entries.foldl (fun args e => args.insert (name ++ "." ++ e.1) e.2) (s.args.merge upper) =
            s.args.merge
              (entries.foldl (fun args e => args.insert (name ++ "." ++ e.1) e.2) upper) := by
        intro entries
        induction entries with
        | nil => exact fun upper => rfl
        | cons e rest ih =>
            intro upper
            rw [List.foldl_cons, ← Dict.merge_insert, ih, List.foldl_cons]
      simp only [bindMove, ofArgs]
      rw [← Dict.merge_insert, ← Dict.merge_insert, under]

/-- Below a node a scope has what the node gives on top. -/
theorem args_enter (s : Scope) (flow : Flow G) (mark : Mark Trail) :
    (s.enter flow mark).args = s.args.merge mark.given := by
  obtain ⟨name, position, stepIndex⟩ := mark
  cases position with
  | loop index value =>
      cases index with
      | none => rfl
      | some index => exact args_bind s name _
  | each index value collection =>
      cases value with
      | none => rfl
      | some value =>
          refine Eq.trans ?_ (args_bind s name value)
          simp only [enter]
          split <;> rfl
  | switch index isDefault value => exact args_bind s name value
  | action status =>
      cases status with
      | taken move => exact args_bindMove s move.args name move
      | _ => rfl
  | _ => rfl

end Scope

/-! ### Places -/

namespace Place

/-- The place that is reached from another one. -/
def append : Place → Place → Place
  | here, inner => inner
  | down place, inner => down (place.append inner)
  | lane index place, inner => lane index (place.append inner)

instance : Append Place := ⟨append⟩

/-- The place of the step that a node at a place runs. -/
def inside (place : Place) : Place := place ++ down here

end Place

namespace Trail

/-- The marks that are passed on the way to a place, but for those of nodes that run
side by side, which give nothing. -/
def around : Trail → Place → List (Mark Trail)
  | _, .here => []
  | cons mark below, .down place => mark :: below.around place
  | cons mark _, .lane index place =>
      match mark.position with
      | .parallel _ lanes _ => (lanes[index]?.map fun lane => lane.around place).getD []
      | _ => []
  | nil, _ => []
termination_by structural _ place => place

variable {trail inner lane below : Trail} {mark : Mark Trail} {place : Place} {players : List Player}
  {lanes : List Trail} {completed : List Bool} {index : Nat}

theorem eq_nil_of_at?_nil (found : nil.at? place = some inner) : inner = nil := by
  induction place with
  | here =>
      cases found
      rfl
  | down place ih => exact ih found
  | lane index place ih => cases found

theorem around_nil (place : Place) : nil.around place = [] := by cases place <;> rfl

theorem at?_lane (position_eq : mark.position = .parallel players lanes completed)
    (at_lane : lanes[index]? = some lane) :
    (cons mark below).at? (.lane index place) = lane.at? place := by
  simp [at?, position_eq, at_lane]

theorem around_lane (position_eq : mark.position = .parallel players lanes completed)
    (at_lane : lanes[index]? = some lane) :
    (cons mark below).around (.lane index place) = lane.around place := by
  simp [around, position_eq, at_lane]

/-- There is something in the trail of a player only if there is the trail. -/
theorem exists_lane_of_at? (found : (cons mark below).at? (.lane index place) = some inner) :
    ∃ players lanes completed lane, mark.position = .parallel players lanes completed ∧
      lanes[index]? = some lane ∧ lane.at? place = some inner := by
  unfold at? at found
  split at found
  · rename_i players lanes completed position_eq
    obtain ⟨lane, at_lane, found⟩ := Option.bind_eq_some_iff.1 found
    exact ⟨players, lanes, completed, lane, position_eq, at_lane, found⟩
  · cases found

/-- The way to a place that is reached from another one goes by that one. -/
theorem around_append (found : trail.at? place = some inner) (place' : Place) :
    trail.around (place ++ place') = trail.around place ++ inner.around place' := by
  induction place generalizing trail with
  | here =>
      cases found
      rfl
  | down place ih =>
      cases trail with
      | nil =>
          obtain rfl := eq_nil_of_at?_nil found
          rw [around_nil, around_nil, around_nil]
          rfl
      | cons mark below => exact congrArg (mark :: ·) (ih found)
  | lane index place ih =>
      cases trail with
      | nil => cases found
      | cons mark below =>
          obtain ⟨players, lanes, completed, lane, position_eq, at_lane, found⟩ :=
            exists_lane_of_at? found
          rw [around_lane position_eq at_lane]
          exact (around_lane position_eq at_lane).trans (ih found)

end Trail

namespace Flow

/-! ### What stands at a place -/

/-- At the place of a flow stands a node, in a scope. -/
inductive Stands : Trail → Flow G → Scope → Place → Flow G → Scope → Prop
  | here {trail flow scope} : Stands trail flow scope .here flow scope
  | down {mark below flow child scope place node inner}
      (next : flow.next? mark = some (.node child))
      (stands : Stands below child (scope.enter flow mark) place node inner) :
      Stands (.cons mark below) flow scope (.down place) node inner
  | lane {mark below flow players body seated lanes completed index player lane scope place node
        inner}
      (kind_eq : flow.kind = .parallel players body)
      (position_eq : mark.position = .parallel seated lanes completed)
      (at_lane : lanes[index]? = some lane) (at_player : seated[index]? = some player)
      (stands : Stands lane body (scope.withPlayer player) place node inner) :
      Stands (.cons mark below) flow scope (.lane index place) node inner

/-- At the place of a flow a callback is next, in a scope. -/
inductive CallsAt (trail : Trail) (flow : Flow G) (scope : Scope) :
    Place → StepCallback G → Scope → Prop
  | intro {place node outer mark below callback}
      (stands : Stands trail flow scope place node outer)
      (at_place : trail.at? place = some (.cons mark below))
      (next : node.next? mark = some (.call callback)) :
      CallsAt trail flow scope place.inside callback (outer.enter node mark)

variable {trail below : Trail} {flow node child body : Flow G} {scope inner : Scope}
  {mark : Mark Trail} {place : Place} {callback : StepCallback G}

/-- The scope at a place has on top what the marks on the way there give. -/
theorem Stands.args_eq (stands : Stands trail flow scope place node inner) :
    inner.args = Mark.giveAll (trail.around place) scope.args := by
  induction stands with
  | here => rfl
  | down next stands ih =>
      rw [ih, Scope.args_enter]
      rfl
  | lane kind_eq position_eq at_lane at_player stands ih =>
      rw [ih, Trail.around_lane position_eq at_lane]
      rfl

/-- A callback sees the arguments of the flow under what the marks around it give. -/
theorem CallsAt.args_eq (calls : CallsAt trail flow scope place callback inner) :
    inner.args = Mark.giveAll (trail.around place) scope.args := by
  obtain ⟨stands, at_place, next⟩ := calls
  rw [Scope.args_enter, stands.args_eq, Place.inside, Trail.around_append at_place,
    Mark.giveAll_append]
  rfl

/-! ### Callbacks that a unit runs -/

theorem CallsAt.down (next : flow.next? mark = some (.node child))
    (calls : CallsAt below child (scope.enter flow mark) place callback inner) :
    CallsAt (.cons mark below) flow scope (.down place) callback inner := by
  obtain ⟨stands, at_place, next'⟩ := calls
  exact .intro (.down next stands) at_place next'

theorem CallsAt.lane {players : Option (G → Args → Checked (List Player))} {lane : Trail}
    {seated : List Player} {lanes : List Trail} {completed : List Bool} {index : Nat}
    {player : Player} (kind_eq : flow.kind = .parallel players body)
    (position_eq : mark.position = .parallel seated lanes completed)
    (at_lane : lanes[index]? = some lane) (at_player : seated[index]? = some player)
    (calls : CallsAt lane body (scope.withPlayer player) place callback inner) :
    CallsAt (.cons mark below) flow scope (.lane index place) callback inner := by
  obtain ⟨stands, at_place, next⟩ := calls
  exact .intro (.lane kind_eq position_eq at_lane at_player stands)
    ((Trail.at?_lane position_eq at_lane).trans at_place) next

/-- A callback that was run was next at a place of the flow, and saw the scope there. -/
def RanAt (trail : Trail) (flow : Flow G) (scope : Scope) (g : G) (dice : Dice) (place : Place)
    (run : CallbackRun G) : Prop :=
  ∃ inner, CallsAt trail flow scope place run.callback inner ∧ run.scene = inner.scene g dice

section Play

variable [Game G] {g : G} {dice : Dice} {run : CallbackRun G}

/-- The callback that a unit comes to is next there. -/
theorem RunsAt.callsAt (runs : RunsAt trail flow scope place callback inner) :
    CallsAt trail flow scope place.inside callback inner := by
  induction runs with
  | here next => exact .intro .here rfl next
  | down next runs ih => exact ih.down next
  | lane kind_eq position_eq turn runs ih =>
      obtain ⟨at_lane, at_player, -⟩ := turn.at_lane
      exact ih.lane kind_eq position_eq at_lane at_player

/-- Each callback that a unit of play runs was next at a place of the flow, and saw the
scope there. -/
theorem ranAt_of_play {p : Progress Trail G} (h : play trail flow scope g dice = .ok p)
    (mem : run ∈ p.runs) : ∃ place, RanAt trail flow scope g dice place run := by
  obtain ⟨place, inner, runs, scene_eq⟩ := exists_runsAt_of_play h mem
  exact ⟨place.inside, inner, runs.callsAt, scene_eq⟩

end Play

end Flow

end Tabletop
