import Tabletop.Session.Snapshot
import Tabletop.Proofs.Flow.TrailRoundTrip

/-! # The save format

The text of a snapshot tells all of it. Each part is written plainly and is read back as
itself: moves and follow-ups, the identities of flows, the flows under way, the dice, and
in the end the snapshot.

Main statement: `Snapshot.ofText_text`.
-/

namespace Tabletop

open Json

/-! ### Moves and follow-ups -/

namespace Move

theorem plain_toJson (m : Move) : Plain m.toJson := by
  refine .obj (by simp) ?_
  simp [m.player.plain_toJson, m.args.plain_toJson, Plain.str]

theorem ofJson_toJson (m : Move) : ofJson m.toJson = .ok m := by
  obtain ⟨r, read, at_key⟩ := fields_of_plain ["player", "name", "args"] m.plain_toJson
  have player_back : r.required "player" Player.ofJson = .ok m.player :=
    Record.required_of_get? (at_key _ (by simp)) m.player.ofJson_toJson
  have name_back : r.required "name" asString = .ok m.name :=
    Record.required_of_get? (at_key _ (by simp)) rfl
  have args_back : r.orElse "args" Dict.empty Args.ofJson = .ok m.args :=
    Record.orElse_of_get? (at_key _ (by simp)) m.args.ofJson_toJson
  rw [ofJson, toJson, read, ok_bind, player_back, ok_bind, name_back, ok_bind, args_back]
  rfl

end Move

/-- A number of 32 bits is written plainly. -/
theorem Json.plain_id (n : UInt32) : Plain (.int n.toNat) := by
  have bound : n.toNat < 2 ^ 32 := n.toNat_lt
  exact .int (by omega)

theorem Json.asId_toNat (n : UInt32) : asId (.int n.toNat) = .ok n := by
  rw [asId, asNatBelow_natCast n.toNat_lt]
  exact congrArg Except.ok n.ofNat_toNat

namespace MoveRecord

theorem plain_toJson (m : MoveRecord) : Plain m.toJson := by
  refine .obj (by simp) ?_
  simp [m.move.plain_toJson, plain_id m.sequence]

theorem ofJson_toJson (m : MoveRecord) : ofJson m.toJson = .ok m := by
  obtain ⟨r, read, at_key⟩ := fields_of_plain ["move", "sequence"] m.plain_toJson
  have move_back : r.required "move" Move.ofJson = .ok m.move :=
    Record.required_of_get? (at_key _ (by simp)) m.move.ofJson_toJson
  have sequence_back : r.required "sequence" asId = .ok m.sequence :=
    Record.required_of_get? (at_key _ (by simp)) (asId_toNat m.sequence)
  rw [ofJson, toJson, read, ok_bind, move_back, ok_bind, sequence_back]
  rfl

end MoveRecord

namespace FollowUp

theorem plain_toJson (f : FollowUp) : Plain f.toJson := by
  refine .obj ?_ ?_
  · cases f.prompt <;> simp [member?]
  · cases f.prompt <;>
      simp [member?, f.player.plain_toJson, f.args.plain_toJson, Plain.str]

theorem ofJson_toJson (f : FollowUp) : ofJson f.toJson = .ok f := by
  obtain ⟨r, read, at_key⟩ := fields_of_plain ["player", "name", "args", "prompt"] f.plain_toJson
  have player_back : r.required "player" Player.ofJson = .ok f.player :=
    Record.required_of_get? (at_key _ (by simp)) f.player.ofJson_toJson
  have name_back : r.required "name" asString = .ok f.name :=
    Record.required_of_get? (at_key _ (by simp)) rfl
  have args_back : r.orElse "args" Dict.empty Args.ofJson = .ok f.args :=
    Record.orElse_of_get? (at_key _ (by simp)) f.args.ofJson_toJson
  have prompt_written : r.get? "prompt" = f.prompt.map Json.str := by
    rw [at_key _ (by simp)]
    simp [List.lookup_cons, lookup_member?]
  have prompt_back : r.orElse "prompt" none (nullable asString) = .ok f.prompt :=
    Record.orElse_nullable prompt_written fun _ _ => rfl
  rw [ofJson, toJson, read, ok_bind, player_back, ok_bind, name_back, ok_bind, args_back, ok_bind,
    prompt_back]
  rfl

end FollowUp

/-! ### Flows under way -/

namespace FlowId

theorem plain_toJson (id : FlowId) : Plain id.toJson := by
  cases id with
  | main => exact .obj (by simp) (by simp [Plain.str])
  | subflow name => exact .obj (by simp) (by simp [Plain.str])
  | followUp id f =>
      refine .obj (by simp) ?_
      simp [f.plain_toJson, plain_id id, Plain.str]

/-- An identity is read by its kind, which comes first, from the other members. -/
theorem ofJson_of_kind {kind : String} {members : List (String × Json)}
    (plain : Plain (.obj (("kind", .str kind) :: members))) :
    ofJson (.obj (("kind", .str kind) :: members)) = ofFields kind (.obj members) := by
  obtain ⟨r, read, at_key⟩ := fields_of_plain ["kind"] plain
  have kind_back : r.required "kind" asString = .ok kind :=
    Record.required_of_get? (at_key _ (by simp)) rfl
  have others : (("kind", Json.str kind) :: members).filter (fun m => m.1 != "kind") = members := by
    cases plain with
    | obj distinct _ =>
        have new := (List.nodup_cons.1 distinct).1
        have kept : ∀ m ∈ members, m.1 ≠ "kind" := by
          intro m mem same
          exact new (List.mem_map.2 ⟨m, mem, same⟩)
        simpa using kept
  rw [ofJson, if_pos (isReadable_of_plain plain)]
  simp only [read, kind_back, others, ok_bind]

theorem ofJson_toJson (id : FlowId) : ofJson id.toJson = .ok id := by
  have plain := plain_toJson id
  cases id with
  | main =>
      rw [toJson] at plain ⊢
      rw [ofJson_of_kind plain, ofFields, if_pos rfl]
      rfl
  | subflow name =>
      rw [toJson] at plain ⊢
      have plain_name : Plain (.obj [("name", .str name)]) := .obj (by simp) (by simp [Plain.str])
      obtain ⟨r, read, at_key⟩ := fields_of_plain ["name"] plain_name
      have name_back : r.required "name" asString = .ok name :=
        Record.required_of_get? (at_key _ (by simp)) rfl
      rw [ofJson_of_kind plain]
      simp only [ofFields, String.reduceEq, if_false, if_true, read, name_back, ok_bind]
      rfl
  | followUp id f =>
      rw [toJson] at plain ⊢
      have plain_fields : Plain (.obj [("id", .int id.toNat), ("follow_up", f.toJson)]) :=
        .obj (by simp) (by simp [f.plain_toJson, plain_id id])
      obtain ⟨r, read, at_key⟩ := fields_of_plain ["id", "follow_up"] plain_fields
      have id_back : r.required "id" asId = .ok id :=
        Record.required_of_get? (at_key _ (by simp)) (asId_toNat id)
      have follow_up_back : r.required "follow_up" FollowUp.ofJson = .ok f :=
        Record.required_of_get? (at_key _ (by simp)) f.ofJson_toJson
      rw [ofJson_of_kind plain]
      simp only [ofFields, String.reduceEq, if_false, if_true, read, id_back, follow_up_back,
        ok_bind]
      rfl

end FlowId

/-- Looking at a value that is read has no fault. -/
theorem Json.discard_of_reads {α : Type} {value : Reading α} {a : α} (reads : value = .ok a) :
    discard value = .ok () := by
  rw [reads]
  rfl

namespace Activation

variable {a : Activation}

theorem plain_toJson (small : a.trail.InRange) : Plain a.toJson := by
  refine .obj (by simp) ?_
  simp [a.flow.plain_toJson, a.args.plain_toJson, Trail.plain_toJson small]

theorem ofJson_toJson (small : a.trail.InRange) : ofJson a.toJson = .ok a := by
  have flow_reads := a.flow.ofJson_toJson
  have args_reads := a.args.ofJson_toJson
  have trail_reads := Trail.ofJson_toJson small
  obtain ⟨r, read, at_key⟩ := record_of_plain ["flow", "args", "branch"] checkField
    (plain_toJson small) (by
      simp [checkField, discard_of_reads flow_reads, discard_of_reads args_reads,
        discard_of_reads trail_reads])
  have flow_back : r.required "flow" FlowId.ofJson = .ok a.flow :=
    Record.required_of_get? (at_key _ (by simp)) flow_reads
  have args_back : r.orElse "args" Dict.empty Args.ofJson = .ok a.args :=
    Record.orElse_of_get? (at_key _ (by simp)) args_reads
  have trail_back : r.required "branch" Trail.ofJson = .ok a.trail :=
    Record.required_of_get? (at_key _ (by simp)) trail_reads
  rw [ofJson, toJson, read, ok_bind, flow_back, ok_bind, args_back, ok_bind, trail_back]
  rfl

end Activation

/-! ### Snapshots -/

theorem Status.ofJson_name (status : Status) : ofJson (.str status.name) = .ok status := by
  cases status <;> simp [ofJson, asName, name, ok_bind] <;> rfl

namespace Dice.State

/-- The place in the stream is a number of 128 bits. -/
def InRange (s : State) : Prop := s.wordPos < 1 <<< 128

instance (s : State) : Decidable s.InRange := inferInstanceAs (Decidable (_ < _))

variable {s : State}

theorem plain_toJson (small : s.InRange) : Plain s.toJson := by
  have seed_small : s.seed.toNat < 2 ^ 64 := s.seed.toNat_lt
  have seed_plain : Plain (.int s.seed.toNat) := .int (by omega)
  have position_plain : Plain (.int s.wordPos) := .int small
  refine .obj (by simp) ?_
  simp [seed_plain, position_plain]

theorem ofJson_toJson (small : s.InRange) : ofJson s.toJson = .ok s := by
  have seed_small : s.seed.toNat < UInt64.size := s.seed.toNat_lt
  obtain ⟨r, read, at_key⟩ := fields_of_plain ["seed", "wordPos"] (plain_toJson small)
  have seed_back : r.required "seed" asIndex = .ok s.seed.toNat :=
    Record.required_of_get? (at_key _ (by simp)) (asNatBelow_natCast seed_small)
  have position_back : r.required "wordPos" (asNatBelow (1 <<< 128)) = .ok s.wordPos :=
    Record.required_of_get? (at_key _ (by simp)) (asNatBelow_natCast small)
  rw [ofJson, toJson, read, ok_bind, seed_back, ok_bind, position_back]
  exact congrArg (fun seed => Except.ok (State.mk seed s.wordPos)) s.seed.ofNat_toNat

end Dice.State

namespace Snapshot

/-- All numbers of a snapshot fit their bits. -/
structure InRange (s : Snapshot) : Prop where
  stack : ∀ a ∈ s.stack, a.trail.InRange
  dice : s.dice.InRange

variable {s : Snapshot}

theorem plain_toJson (small : s.InRange) : Plain s.toJson := by
  have stack_plain : Plain (.arr (s.stack.reverse.map Activation.toJson)) := by
    refine .arr (List.forall_mem_map.2 fun a mem => ?_)
    exact Activation.plain_toJson (small.stack a (List.mem_reverse.1 mem))
  have history_plain : Plain (.arr (s.history.map MoveRecord.toJson)) :=
    .arr (List.forall_mem_map.2 fun m _ => m.plain_toJson)
  refine .obj (by simp) ?_
  simp [-List.map_reverse, Plain.str, stack_plain, Dice.State.plain_toJson small.dice,
    plain_id s.nextFollowUp, history_plain]

theorem ofJson_toJson (small : s.InRange) : ofJson s.toJson = .ok s := by
  have stack_reads : asList Activation.ofJson (.arr (s.stack.reverse.map Activation.toJson)) =
      .ok s.stack.reverse := by
    refine asList_map fun a mem => ?_
    exact Activation.ofJson_toJson (small.stack a (List.mem_reverse.1 mem))
  have history_reads : asList MoveRecord.ofJson (.arr (s.history.map MoveRecord.toJson)) =
      .ok s.history :=
    asList_map fun m _ => m.ofJson_toJson
  have status_reads := s.status.ofJson_name
  have dice_reads := Dice.State.ofJson_toJson small.dice
  have next_reads := asId_toNat s.nextFollowUp
  obtain ⟨r, read, at_key⟩ := record_of_plain
    ["status", "stack", "rng", "nextFollowUp", "history"] checkField (plain_toJson small) (by
      simp [-List.map_reverse, checkField, discard_of_reads status_reads, discard_of_reads stack_reads,
        discard_of_reads dice_reads, discard_of_reads next_reads, discard_of_reads history_reads])
  have status_back : r.required "status" Status.ofJson = .ok s.status :=
    Record.required_of_get? (at_key _ (by simp)) status_reads
  have stack_back : r.required "stack" (asList Activation.ofJson) = .ok s.stack.reverse :=
    Record.required_of_get? (at_key _ (by simp)) stack_reads
  have dice_back : r.required "rng" Dice.State.ofJson = .ok s.dice :=
    Record.required_of_get? (at_key _ (by simp)) dice_reads
  have next_back : r.orElse "nextFollowUp" 0 asId = .ok s.nextFollowUp :=
    Record.orElse_of_get? (at_key _ (by simp)) next_reads
  have history_back : r.orElse "history" [] (asList MoveRecord.ofJson) = .ok s.history :=
    Record.orElse_of_get? (at_key _ (by simp)) history_reads
  rw [ofJson, toJson, read, ok_bind, status_back, ok_bind, stack_back, ok_bind, dice_back, ok_bind,
    next_back, ok_bind, history_back, ok_bind, List.reverse_reverse]
  rfl

/-- The save format loses nothing: a snapshot is read back from its text, unless the text
nests deeper than a reader goes. -/
theorem ofText_text (small : s.InRange) (shallow : s.toJson.nesting ≤ maxDepth) :
    ofText s.text = .ok s :=
  decode_text (plain_toJson small) shallow (ofJson_toJson small)

/-- A game with a follow-up over a subflow over the main flow, where two players act side by
side, one of them inside a switch. -/
def underWay : Snapshot where
  status := .playing
  stack :=
    [⟨.followUp 3 ⟨⟨1⟩, "discard", Dict.empty, some "Which one?"⟩, Dict.empty,
        .ofList [⟨some "__followup_3__", .sequence 0, none⟩, ⟨none, .action .awaiting, none⟩]⟩,
      ⟨.subflow "hand", Dict.ofList [("card", .element ⟨12⟩), ("note", .text "$p[0]")],
        .ofList
          [⟨some "draws", .loop (some 1) (some (.number 7)), some 0⟩,
            ⟨none, .loop none none, none⟩]⟩,
      ⟨.main, Dict.empty,
        .ofList
          [⟨none, .each (some 0) (some (.player ⟨0⟩)) [.player ⟨0⟩, .list [.bool true]], some 2⟩,
            ⟨some "turns",
              .parallel [⟨0⟩, ⟨1⟩]
                [.ofList
                  [⟨none, .switch (some 0) false (.number (-1)), some 0⟩,
                    ⟨some "deal", .action .skipped, none⟩],
                  .ofList
                    [⟨none, .action (.taken ⟨⟨1⟩, "pass", Dict.empty⟩), some 1⟩]]
                [false, true],
              none⟩]⟩]
  dice := ⟨42, 6⟩
  nextFollowUp := 4
  history := [⟨⟨⟨0⟩, "play", Dict.ofList [("card", .list [.text "a\n", .text "$$"])]⟩, 0⟩]

theorem ofText_text_underWay :
    underWay.InRange ∧ underWay.toJson.nesting ≤ maxDepth ∧
      ofText underWay.text = .ok underWay := by
  have small : underWay.InRange := by
    refine ⟨?_, by decide⟩
    have size : UInt64.size = 2 ^ 64 := rfl
    simp only [underWay, List.forall_mem_cons]
    refine ⟨?_, ?_, ?_, by simp⟩ <;>
      simp [Trail.ofList, Trail.inRange_cons, Trail.InRange.nil, Position.InRange, Position.lanes,
        size]
  have shallow : underWay.toJson.nesting ≤ maxDepth := by decide
  exact ⟨small, shallow, ofText_text small shallow⟩

end Snapshot

end Tabletop
