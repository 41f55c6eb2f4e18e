import Tabletop.Flow.TrailJson
import Tabletop.Proofs.Argument.RoundTrip

/-! # Reading trails back

What a position looks like is settled by its kind, which is written in front of it, so a
mark is read back whole. Positions are written plainly; settling leaves them as they are.

Main statement: `Trail.ofJson_toJson`.
-/

namespace Tabletop

open Json

/-! ### Moves and statuses -/

namespace Taken

theorem plain_toJson (m : Taken) : Plain m.toJson := by
  refine .obj (by simp) ?_
  simp [m.player.plain_toJson, m.args.plain_toJson, Plain.str]

theorem ofJson_toJson (m : Taken) : ofJson m.toJson = .ok m := by
  obtain ⟨r, read, at_key⟩ := fields_of_plain ["player", "name", "args"] m.plain_toJson
  have player : r.required "player" Player.ofJson = .ok m.player :=
    Record.required_of_get? (at_key _ (by simp)) m.player.ofJson_toJson
  have name : r.required "name" asString = .ok m.name :=
    Record.required_of_get? (at_key _ (by simp)) rfl
  have args : r.orElse "args" Dict.empty Args.ofJson = .ok m.args :=
    Record.orElse_of_get? (at_key _ (by simp)) m.args.ofJson_toJson
  rw [ofJson, toJson, read, ok_bind, player, ok_bind, name, ok_bind, args]
  rfl

end Taken

namespace ActionStatus

theorem plain_toJson (status : ActionStatus) : Plain status.toJson := by
  cases status with
  | awaiting => exact .null
  | skipped => exact .str _
  | taken move => exact move.plain_toJson

theorem ofJson_toJson (status : ActionStatus) : ofJson status.toJson = .ok status := by
  cases status with
  | awaiting => rfl
  | skipped => rfl
  | taken move =>
      have reads := move.ofJson_toJson
      rw [Taken.toJson] at reads
      rw [toJson, Taken.toJson, ofJson, reads]
      · rfl
      · nofun
      · nofun

end ActionStatus

/-! ### Positions -/

namespace Position

variable {τ : Type}

/-- The trails side by side at the position. -/
def lanes : Position τ → List τ
  | parallel _ lanes _ => lanes
  | _ => []

/-- The iteration, the step or the case of the position is a number of 64 bits. -/
def InRange : Position τ → Prop
  | sequence index => index < UInt64.size
  | loop index _ | each index _ _ | switch index _ _ => ∀ n ∈ index, n < UInt64.size
  | action _ | parallel .. => True

end Position

/-- The members of a mark, as they are written. -/
def Mark.members (mark : Mark Trail) : List (String × Json) :=
  markMembers mark.position.kind mark.name (Trail.positionToJson mark.position) mark.stepIndex

namespace Trail

/-- All steps, iterations and cases of a trail are numbers of 64 bits. -/
inductive InRange : Trail → Prop
  | nil : InRange .nil
  | cons {mark : Mark Trail} {below : Trail} (steps : ∀ n ∈ mark.stepIndex, n < UInt64.size)
      (position : mark.position.InRange)
      (lanes : ∀ lane ∈ mark.position.lanes, InRange lane)
      (rest : InRange below) : InRange (.cons mark below)

theorem lanesToJson_eq (lanes : List Trail) : lanesToJson lanes = lanes.map toJson := by
  induction lanes with
  | nil => rfl
  | cons lane lanes ih => rw [lanesToJson, ih]; rfl

section Positions

variable {position : Position Trail}

theorem plain_indexToJson {index : Option Nat} (small : ∀ n ∈ index, n < UInt64.size) :
    Plain (indexToJson index) := by
  cases index with
  | none => exact .null
  | some n => exact plain_index (small n rfl)

theorem plain_positionToJson (small : position.InRange)
    (lanes_plain : ∀ lane ∈ position.lanes, Plain lane.toJson) :
    Plain (positionToJson position) := by
  cases position with
  | sequence index => exact plain_index small
  | loop index value =>
      refine .obj (by cases value <;> simp [member?]) ?_
      exact List.forall_mem_cons.2
        ⟨plain_indexToJson small, plain_member? fun a _ => a.plain_toJson⟩
  | each index value collection =>
      refine .obj (by cases value <;> simp [member?]) ?_
      have items_plain : Plain (.arr (collection.map Argument.toJson)) :=
        .arr (List.forall_mem_map.2 fun item _ => item.plain_toJson)
      exact List.forall_mem_append.2
        ⟨List.forall_mem_cons.2
          ⟨plain_indexToJson small, plain_member? fun a _ => a.plain_toJson⟩,
          List.forall_mem_singleton.2 items_plain⟩
  | switch index isDefault value =>
      refine .obj (by cases index <;> cases isDefault <;> simp [member?]) ?_
      cases index <;> cases isDefault <;>
        simp_all [member?, Plain.bool, plain_index, Argument.plain_toJson, Position.InRange]
  | action status => exact status.plain_toJson
  | parallel players lanes completed =>
      refine .obj (by simp) ?_
      have players_plain : Plain (.arr (players.map Player.toJson)) :=
        .arr (List.forall_mem_map.2 fun player _ => player.plain_toJson)
      have lanes_plain : Plain (.arr (lanesToJson lanes)) := by
        rw [lanesToJson_eq]
        exact .arr (List.forall_mem_map.2 lanes_plain)
      have completed_plain : Plain (.arr (completed.map .bool)) :=
        .arr (List.forall_mem_map.2 fun done _ => .bool done)
      simp [players_plain, lanes_plain, completed_plain]

theorem laneItems_map {lanes : List Trail}
    (back : ∀ lane ∈ lanes, trailOfJson lane.toJson = .ok lane) :
    laneItems (lanes.map toJson) = .ok lanes := by
  induction lanes with
  | nil => rfl
  | cons lane lanes ih =>
      obtain ⟨first, back⟩ := List.forall_mem_cons.1 back
      rw [List.map_cons, laneItems, first, ih back]
      rfl

theorem nullable_indexToJson {index : Option Nat} (small : ∀ n ∈ index, n < UInt64.size) :
    nullable asIndex (indexToJson index) = .ok index := by
  cases index with
  | none => rfl
  | some n => exact nullable_index (small n rfl)

theorem positionOfJson_of_ne {kind : String} (plain_kind : kind ≠ "parallel") (j : Json) :
    positionOfJson kind j = plainPosition kind j := by
  cases j <;> simp [positionOfJson, plain_kind]

theorem plainPosition_loop {index : Option Nat} {value : Option Argument}
    (small : ∀ n ∈ index, n < UInt64.size) (plain : Plain (positionToJson (.loop index value))) :
    plainPosition "loop" (positionToJson (.loop index value)) = .ok (.loop index value) := by
  rw [positionToJson] at plain ⊢
  obtain ⟨r, read, at_key⟩ := fields_of_plain ["index", "value"] plain
  have index_back : r.optional "index" asIndex = .ok index :=
    Record.optional_of_get? (at_key _ (by simp)) (nullable_indexToJson small)
  have value_back : r.orElse "value" none (nullable Argument.ofJson) = .ok value := by
    refine Record.orElse_nullable ?_ fun a _ => Argument.nullable_toJson a
    rw [at_key _ (by simp)]
    simp [List.lookup_cons, lookup_member?]
  simp only [plainPosition, String.reduceEq, if_false, if_true, read, index_back, value_back,
    ok_bind]
  rfl

theorem plainPosition_each {index : Option Nat} {value : Option Argument}
    {collection : List Argument} (small : ∀ n ∈ index, n < UInt64.size)
    (plain : Plain (positionToJson (.each index value collection))) :
    plainPosition "foreach" (positionToJson (.each index value collection)) =
      .ok (.each index value collection) := by
  rw [positionToJson] at plain ⊢
  obtain ⟨r, read, at_key⟩ := fields_of_plain ["index", "value", "collection"] plain
  have index_back : r.optional "index" asIndex = .ok index :=
    Record.optional_of_get? (at_key _ (by simp)) (nullable_indexToJson small)
  have value_back : r.orElse "value" none (nullable Argument.ofJson) = .ok value := by
    refine Record.orElse_nullable ?_ fun a _ => Argument.nullable_toJson a
    rw [at_key _ (by simp)]
    simp [List.lookup_cons, List.lookup_append, lookup_member?]
  have collection_back : r.required "collection" (asList Argument.ofJson) = .ok collection := by
    refine Record.required_of_get? ?_ (Argument.asList_toJson collection)
    rw [at_key _ (by simp)]
    simp [List.lookup_cons, List.lookup_append, lookup_member?]
  simp only [plainPosition, String.reduceEq, if_false, if_true, read, index_back, value_back,
    collection_back, ok_bind]
  rfl

theorem plainPosition_switch {index : Option Nat} {isDefault : Bool} {value : Argument}
    (small : ∀ n ∈ index, n < UInt64.size)
    (plain : Plain (positionToJson (.switch index isDefault value))) :
    plainPosition "switch-case" (positionToJson (.switch index isDefault value)) =
      .ok (.switch index isDefault value) := by
  rw [positionToJson] at plain ⊢
  obtain ⟨r, read, at_key⟩ := fields_of_plain ["index", "default", "value"] plain
  have index_back : r.orElse "index" none (nullable asIndex) = .ok index := by
    refine Record.orElse_nullable ?_ fun n mem => nullable_index (small n mem)
    rw [at_key _ (by simp)]
    cases index <;> simp [List.lookup_append, lookup_member?]
  have default_back : r.orElse "default" false asBool = .ok isDefault := by
    have written : r.get? "default" = if isDefault then some (.bool true) else none := by
      rw [at_key _ (by simp)]
      simp [List.lookup_cons, List.lookup_append, lookup_member?]
    cases isDefault with
    | false => exact Record.orElse_of_missing written
    | true => exact Record.orElse_of_get? written rfl
  have value_back : r.required "value" Argument.ofJson = .ok value := by
    refine Record.required_of_get? ?_ value.ofJson_toJson
    rw [at_key _ (by simp)]
    simp [List.lookup_append, lookup_member?]
  simp only [plainPosition, String.reduceEq, if_false, if_true, read, index_back, default_back,
    value_back, ok_bind]
  rfl

/-- A position that holds no trails is read back under its kind. -/
theorem plainPosition_positionToJson (small : position.InRange)
    (plain : Plain (positionToJson position)) (no_lanes : position.kind ≠ "parallel") :
    plainPosition position.kind (positionToJson position) = .ok position := by
  cases position with
  | sequence index =>
      simp only [Position.kind, positionToJson, plainPosition, if_true, asIndex_natCast small]
      rfl
  | loop index value => exact plainPosition_loop small plain
  | each index value collection => exact plainPosition_each small plain
  | switch index isDefault value => exact plainPosition_switch small plain
  | action status =>
      simp only [Position.kind, positionToJson, plainPosition, String.reduceEq, if_false, if_true,
        status.ofJson_toJson]
      rfl
  | parallel => exact absurd rfl no_lanes

/-- The trails side by side at a position are read back if each of them is. -/
theorem positionOfJson_parallel {players : List Player} {lanes : List Trail}
    {completed : List Bool} (plain : Plain (positionToJson (.parallel players lanes completed)))
    (lanes_back : ∀ lane ∈ lanes, trailOfJson lane.toJson = .ok lane) :
    positionOfJson "parallel" (positionToJson (.parallel players lanes completed)) =
      .ok (.parallel players lanes completed) := by
  have players_back : asList Player.ofJson (.arr (players.map Player.toJson)) = .ok players :=
    asList_map fun player _ => player.ofJson_toJson
  have completed_back : asList asBool (.arr (completed.map .bool)) = .ok completed :=
    asList_map fun _ _ => rfl
  have lanes_back : lanesOfJson (.arr (lanesToJson lanes)) = .ok lanes := by
    rw [lanesToJson_eq, lanesOfJson]
    exact laneItems_map lanes_back
  have owners : laneOwners (positionToJson (.parallel players lanes completed)) =
      .ok (players, completed) := by
    rw [positionToJson] at plain ⊢
    obtain ⟨r, read, at_key⟩ := fields_of_plain ["players", "branches", "completed"] plain
    have players_back : r.required "players" (asList Player.ofJson) = .ok players :=
      Record.required_of_get? (at_key _ (by simp)) players_back
    have completed_back : r.required "completed" (asList asBool) = .ok completed :=
      Record.required_of_get? (at_key _ (by simp)) completed_back
    rw [laneOwners, read, ok_bind, players_back, ok_bind, completed_back]
    rfl
  rw [positionToJson] at owners ⊢
  simp only [positionOfJson, if_true, owners, ok_bind, memberLanes, String.reduceEq, if_false,
    lanes_back, Option.getD_some]
  rfl

/-- A position is read back under its kind. -/
theorem positionOfJson_positionToJson (small : position.InRange)
    (plain : Plain (positionToJson position))
    (lanes_back : ∀ lane ∈ position.lanes, trailOfJson lane.toJson = .ok lane) :
    positionOfJson position.kind (positionToJson position) = .ok position := by
  cases position with
  | parallel players lanes completed =>
      exact positionOfJson_parallel plain lanes_back
  | _ =>
      have no_lanes : ∀ kind ∈ ["sequence", "loop", "foreach", "switch-case", "action"],
          kind ≠ "parallel" := by simp
      rw [positionOfJson_of_ne (no_lanes _ (by simp [Position.kind]))]
      exact plainPosition_positionToJson small plain (no_lanes _ (by simp [Position.kind]))

end Positions

/-! ### Marks -/

section Marks

variable {mark : Mark Trail}

theorem plain_members (steps : ∀ n ∈ mark.stepIndex, n < UInt64.size)
    (plain : Plain (positionToJson mark.position)) : Plain (.obj mark.members) := by
  obtain ⟨name, position, stepIndex⟩ := mark
  refine .obj ?_ ?_
  · cases name <;> cases stepIndex <;> simp [Mark.members, markMembers, member?]
  · cases name <;> cases stepIndex <;>
      simp_all [Mark.members, markMembers, member?, Plain.str, plain_index]

/-- The position of a mark is found under its key. -/
theorem memberPosition_members (kind : String) :
    memberPosition kind mark.members =
      some (positionOfJson kind (positionToJson mark.position)) := by
  obtain ⟨name, position, stepIndex⟩ := mark
  cases name <;> simp [Mark.members, markMembers, member?, memberPosition]

theorem markHead_members (steps : ∀ n ∈ mark.stepIndex, n < UInt64.size)
    (plain : Plain (positionToJson mark.position)) :
    markHead (.obj mark.members) = .ok ⟨mark.position.kind, mark.name, mark.stepIndex⟩ := by
  obtain ⟨r, read, at_key⟩ := fields_of_plain ["kind", "name", "position", "sequenceIndex"]
    (plain_members steps plain)
  have readable := isReadable_of_plain plain
  obtain ⟨name, position, stepIndex⟩ := mark
  have kind_back : r.required "kind" asString = .ok position.kind := by
    refine Record.required_of_get? (j := .str position.kind) ?_ rfl
    rw [at_key _ (by simp)]
    simp [Mark.members, markMembers]
  have name_written : r.get? "name" = name.map Json.str := by
    rw [at_key _ (by simp)]
    cases name <;> cases stepIndex <;> simp [Mark.members, markMembers, member?, List.lookup_cons]
  have name_back : r.orElse "name" none (nullable asString) = .ok name :=
    Record.orElse_nullable name_written fun _ _ => rfl
  have position_back : r.orElse "position" ()
      (fun position => if position.isReadable then .ok () else unfit) = .ok () := by
    refine Record.orElse_of_get? (j := positionToJson position) ?_ (if_pos readable)
    rw [at_key _ (by simp)]
    cases name <;> simp [Mark.members, markMembers, member?, List.lookup_cons]
  have step_back : r.orElse "sequenceIndex" none (nullable asIndex) = .ok stepIndex := by
    refine Record.orElse_nullable ?_ fun n mem => nullable_index (steps n mem)
    rw [at_key _ (by simp)]
    cases name <;> cases stepIndex <;>
      simp [Mark.members, markMembers, member?, List.lookup_cons]
  rw [markHead, read, ok_bind, kind_back, ok_bind, name_back, ok_bind, position_back, ok_bind,
    step_back]
  rfl

/-- A mark is read back if its position is. -/
theorem markOfJson_members (steps : ∀ n ∈ mark.stepIndex, n < UInt64.size)
    (plain : Plain (positionToJson mark.position))
    (back : positionOfJson mark.position.kind (positionToJson mark.position) = .ok mark.position) :
    markOfJson (.obj mark.members) = .ok mark := by
  have known : kinds.contains mark.position.kind := by
    cases mark.position <;> simp [kinds, Position.kind]
  rw [markOfJson, markHead_members steps plain]
  simp only [bind, Except.bind, memberPosition_members, Option.getD_some, back, markAt, known,
    if_true]

end Marks

/-! ### Trails -/

theorem inRange_cons {mark : Mark Trail} {below : Trail} :
    (Trail.cons mark below).InRange ↔ (∀ n ∈ mark.stepIndex, n < UInt64.size) ∧
      mark.position.InRange ∧ (∀ lane ∈ mark.position.lanes, lane.InRange) ∧ below.InRange := by
  constructor
  · rintro (_ | ⟨steps, position, lanes, rest⟩)
    exact ⟨steps, position, lanes, rest⟩
  · rintro ⟨steps, position, lanes, rest⟩
    exact .cons steps position lanes rest

theorem marksToJson_cons (mark : Mark Trail) (below : Trail) :
    marksToJson (.cons mark below) = .obj mark.members :: marksToJson below := rfl

/-- A trail is written plainly. -/
theorem plain_toJson {t : Trail} (small : t.InRange) : Plain t.toJson := by
  induction small with
  | nil => exact .arr (by simp [marksToJson])
  | @cons mark below steps position lanes rest lanes_plain rest_plain =>
      have plain := plain_positionToJson position lanes_plain
      cases rest_plain with
      | arr below_plain =>
          refine .arr ?_
          rw [marksToJson_cons]
          exact List.forall_mem_cons.2 ⟨plain_members steps plain, below_plain⟩

/-- A trail is read back whole. -/
theorem trailOfJson_toJson {t : Trail} (small : t.InRange) : trailOfJson t.toJson = .ok t := by
  induction small with
  | nil => rfl
  | @cons mark below steps position lanes rest lanes_back rest_back =>
      have plain := plain_positionToJson position fun lane mem => plain_toJson (lanes lane mem)
      have back := positionOfJson_positionToJson position plain lanes_back
      have mark_back := markOfJson_members steps plain back
      rw [toJson, trailOfJson] at rest_back ⊢
      rw [marksToJson_cons, marksOfJson, mark_back, rest_back]
      rfl

/-- Settling leaves what was written as it is. -/
theorem settleMark_members {mark : Mark Trail} (plain : Plain (positionToJson mark.position)) :
    settleMark (.obj mark.members) = .obj mark.members := by
  have settled : settle (positionToJson mark.position) = positionToJson mark.position := by
    rw [settle, lastOnly_of_plain plain]
    exact ite_self _
  obtain ⟨name, position, stepIndex⟩ := mark
  cases name <;> cases stepIndex <;>
    simp [settleMark, Mark.members, markMembers, member?, settled]

theorem map_settleMark_marksToJson {t : Trail} (small : t.InRange) :
    t.marksToJson.map settleMark = t.marksToJson := by
  induction small with
  | nil => rfl
  | @cons mark below steps position lanes rest _ rest_same =>
      have plain := plain_positionToJson position fun lane mem => plain_toJson (lanes lane mem)
      rw [marksToJson_cons, List.map_cons, settleMark_members plain, rest_same]

theorem ofJson_toJson {t : Trail} (small : t.InRange) : ofJson t.toJson = .ok t := by
  rw [toJson, ofJson, map_settleMark_marksToJson small]
  exact trailOfJson_toJson small

end Trail

end Tabletop
