import Tabletop.Flow.Play

/-! # Where faults come from

A node runs the callbacks of its author, and reads collections and player lists
that the author works out. Each of them may run into a fault. `Raises` collects
the faults of a node and of all nodes below it, and `Returns` says of an
operation on a node that nothing else stops it.

## Implementation notes

Nodes are taken apart by their blocks: whatever a node runs, by itself or after
a player has moved, is in one of them.
-/

namespace Tabletop

variable {G : Type} {α β : Type}

namespace Flow

/-- The blocks of a node. -/
def blocks (flow : Flow G) : List (Block G) :=
  match flow.kind with
  | .sequence block | .loop _ block | .count _ _ _ block | .each _ _ block => [block]
  | .switch _ cases default => cases.map (·.block) ++ default.toList
  | .action step => step.actions.map (·.block)
  | .parallel .. => []

section Blocks

variable {flow child : Flow G} {mark : Mark Trail} {block : Block G}

theorem liveBlock_mem_blocks (h : flow.liveBlock mark = some block) : block ∈ flow.blocks := by
  obtain ⟨name, kind⟩ := flow
  obtain ⟨markName, position, stepIndex⟩ := mark
  cases kind with
  | switch value cases default =>
      cases position with
      | switch index isDefault value' =>
          cases index with
          | none => cases isDefault <;> simp_all [liveBlock, blocks]
          | some index =>
              obtain ⟨c, found, rfl⟩ := Option.map_eq_some_iff.1 h
              exact List.mem_append_left _ (List.mem_map_of_mem (List.mem_of_getElem? found))
      | _ => cases h
  | action step =>
      cases position with
      | action status =>
          cases status with
          | taken move =>
              obtain ⟨h, -⟩ := Option.filter_eq_some_iff.1 h
              obtain ⟨a, found, rfl⟩ := Option.map_eq_some_iff.1 h
              exact List.mem_map_of_mem (List.mem_of_find?_eq_some found)
          | _ => cases h
      | _ => cases h
  | _ => cases position <;> simp_all [liveBlock, blocks]

/-- The step a node runs next is in one of its blocks. -/
theorem mem_blocks_of_next? {step : Step G (Flow G)} (h : flow.next? mark = some step) :
    ∃ block ∈ flow.blocks, step ∈ block := by
  obtain ⟨block, live, found⟩ := Option.bind_eq_some_iff.1 h
  exact ⟨block, liveBlock_mem_blocks live, List.mem_of_getElem? found⟩

theorem mem_nodesOf : child ∈ nodesOf block ↔ .node child ∈ block := by
  simp only [nodesOf, List.mem_filterMap]
  constructor
  · rintro ⟨step, mem, h⟩
    cases step <;> simp_all
  · intro mem
    exact ⟨_, mem, rfl⟩

/-- The nodes directly below a node are those in its blocks, and the body of
nodes side by side. -/
theorem mem_children :
    child ∈ flow.children ↔
      (∃ block ∈ flow.blocks, .node child ∈ block) ∨
        ∃ players, flow.kind = .parallel players child := by
  obtain ⟨name, kind⟩ := flow
  cases kind with
  | switch value cases default =>
      cases default <;> simp only [children, blocks] <;> grind [mem_nodesOf]
  | action step => simp only [children, blocks]; grind [mem_nodesOf]
  | _ => simp [blocks, children, mem_nodesOf, eq_comm]

theorem mem_children_of_next? (h : flow.next? mark = some (.node child)) :
    child ∈ flow.children :=
  mem_children.2 (.inl (mem_blocks_of_next? h))

theorem sizeOf_lt_of_mem_children (h : child ∈ flow.children) : sizeOf child < sizeOf flow := by
  obtain ⟨name, kind⟩ := flow
  rcases mem_children.1 h with ⟨block, hb, mem⟩ | ⟨players, rfl⟩
  · have step_lt := List.sizeOf_lt_of_mem mem
    simp only [Step.node.sizeOf_spec] at step_lt
    cases kind with
    | switch value cases default =>
        simp only [Flow.mk.sizeOf_spec, FlowKind.switch.sizeOf_spec]
        rcases List.mem_append.1 hb with hb | hb
        · obtain ⟨⟨test, block⟩, hc, rfl⟩ := List.mem_map.1 hb
          have case_lt := List.sizeOf_lt_of_mem hc
          simp only [Case.mk.sizeOf_spec] at case_lt step_lt
          omega
        · obtain rfl := Option.mem_toList.1 hb
          simp only [Option.some.sizeOf_spec]
          omega
    | action step =>
        obtain ⟨players, prompt, passPrompt, actions⟩ := step
        obtain ⟨⟨actionName, block, prefilled, expanded⟩, ha, rfl⟩ := List.mem_map.1 hb
        have action_lt := List.sizeOf_lt_of_mem ha
        simp only [StepAction.mk.sizeOf_spec] at action_lt step_lt
        simp only [Flow.mk.sizeOf_spec, FlowKind.action.sizeOf_spec, ActionStep.mk.sizeOf_spec]
        omega
    | parallel players body => cases hb
    | _ =>
        obtain rfl := List.mem_singleton.1 hb
        simp only [Flow.mk.sizeOf_spec, FlowKind.sequence.sizeOf_spec, FlowKind.loop.sizeOf_spec,
          FlowKind.count.sizeOf_spec, FlowKind.each.sizeOf_spec]
        omega
  · simp only [Flow.mk.sizeOf_spec, FlowKind.parallel.sizeOf_spec]
    omega

end Blocks

theorem isParallel_of_next? {flow : Flow G} {mark : Mark Trail} {step : Step G (Flow G)}
    (h : flow.next? mark = some step) : flow.isParallel = false := by
  obtain ⟨block, hb, -⟩ := mem_blocks_of_next? h
  obtain ⟨name, kind⟩ := flow
  cases kind with
  | parallel players body => cases hb
  | _ => rfl

/-- Induction over a node and the nodes directly below each. -/
@[elab_as_elim]
theorem induction {P : Flow G → Prop}
    (node : ∀ flow : Flow G, (∀ child ∈ flow.children, P child) → P flow) (flow : Flow G) :
    P flow :=
  node flow fun child _ => induction node child
termination_by flow
decreasing_by exact sizeOf_lt_of_mem_children ‹_›

/-- A callback of the author, in the node or below it, runs into the fault for
some game. -/
inductive Raises [Game G] : Flow G → Fault → Prop
  | step {flow block callback scene fault} (hb : block ∈ flow.blocks)
      (mem : .call callback ∈ block) (fails : callback scene = .error fault) : Raises flow fault
  | collection {name collection setsPlayer body g args fault}
      (fails : collection g args = .error fault) :
      Raises ⟨name, .each collection setsPlayer body⟩ fault
  | players {name players body g args fault} (fails : seats players g args = .error fault) :
      Raises ⟨name, .parallel players body⟩ fault
  | child {flow child fault} (mem : child ∈ flow.children) (raises : Raises child fault) :
      Raises flow fault

/-- The operation on a node ends with a good result, or with a fault that the
node raises. -/
inductive Returns [Game G] (flow : Flow G) (good : α → Prop) : Playing α → Prop
  | ok {a} (h : good a) : Returns flow good (.ok a)
  | fault {fault} (h : flow.Raises fault) : Returns flow good (.error (.fault fault))

namespace Returns

variable [Game G] {flow child : Flow G} {good : α → Prop} {good' : β → Prop} {result : Playing α}

theorem mono {better : α → Prop} (h : Returns flow better result)
    (weaker : ∀ a, better a → good a) : Returns flow good result := by
  cases h with
  | ok h => exact .ok (weaker _ h)
  | fault h => exact .fault h

theorem good_of_eq_ok {a : α} (h : Returns flow good result) (ok : result = .ok a) : good a := by
  subst ok
  cases h with
  | ok h => exact h

/-- A good result is the one that was told. -/
theorem told (h : Returns flow good result) :
    Returns flow (fun a => result = .ok a ∧ good a) result := by
  cases h with
  | ok h => exact .ok ⟨rfl, h⟩
  | fault raises => exact .fault raises

theorem bind {next : α → Playing β} (h : Returns flow good result)
    (goes_on : ∀ a, good a → Returns flow good' (next a)) :
    Returns flow good' (result >>= next) := by
  cases h with
  | ok h => exact goes_on _ h
  | fault h => exact .fault h

/-- What a node below raises, the node raises. -/
theorem above (mem : child ∈ flow.children) (h : Returns child good result) :
    Returns flow good result := by
  cases h with
  | ok h => exact .ok h
  | fault h => exact .fault (.child mem h)

theorem mapMismatch (f : Mismatch → Mismatch) (h : Returns flow good result) :
    Returns flow good (result.mapMismatch f) := by
  cases h with
  | ok h => exact .ok h
  | fault h => exact .fault h

theorem map {f : α → β} (h : Returns flow good result) (good_f : ∀ a, good a → good' (f a)) :
    Returns flow good' (result.map f) := by
  cases h with
  | ok h => exact .ok (good_f _ h)
  | fault h => exact .fault h

theorem ofChecked {checked : Checked α} (ok : ∀ a, checked = .ok a → good a)
    (error : ∀ fault, checked = .error fault → flow.Raises fault) :
    Returns flow good (Playing.ofChecked checked) := by
  cases checked with
  | ok a => exact .ok (ok a rfl)
  | error fault => exact .fault (error fault rfl)

theorem ofChecked_of_raises {checked : Checked α}
    (h : ∀ fault, checked = .error fault → flow.Raises fault) :
    Returns flow (fun _ => True) (Playing.ofChecked checked) :=
  ofChecked (fun _ _ => trivial) h

theorem ofChecked_bind {checked : Checked α} {next : α → Checked β}
    (h : Returns flow good (Playing.ofChecked checked))
    (goes_on : ∀ a, good a → Returns flow good' (Playing.ofChecked (next a))) :
    Returns flow good' (Playing.ofChecked (checked >>= next)) := by
  cases checked with
  | ok a =>
      cases h with
      | ok h => exact goes_on a h
  | error fault =>
      cases h with
      | fault h => exact .fault h

theorem ofChecked_mapM {γ : Type} {items : List γ} {f : γ → Checked α}
    (h : ∀ item ∈ items, Returns flow good (Playing.ofChecked (f item))) :
    Returns flow (fun results => results.length = items.length ∧ ∀ a ∈ results, good a)
      (Playing.ofChecked (items.mapM f)) := by
  induction items with
  | nil => exact .ok ⟨rfl, by simp⟩
  | cons item items ih =>
      rw [List.mapM_cons]
      refine ofChecked_bind (h item List.mem_cons_self) fun a good_a => ?_
      refine ofChecked_bind (ih fun item mem => h item (List.mem_cons_of_mem _ mem)) ?_
      rintro results ⟨length_eq, good_results⟩
      exact .ok ⟨by simp [length_eq], by simpa using ⟨good_a, good_results⟩⟩

end Returns

end Flow

end Tabletop
