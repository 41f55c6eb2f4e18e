import Tabletop.Proofs.Flow.Faults
import Tabletop.Proofs.Flow.Waiting

/-! # The nodes of a flow

The nodes of a flow are listed once, from the declaration: a node, and then the nodes of
the nodes directly below it. A flow that is played follows its trail from node to node,
and what its trail says of the way is no more than which of the nodes below is next. So
wherever the flow waits, it does so at a node of the list.

Main statements: `nodes_eq` and `Waits.mem_nodes`.
-/

namespace Tabletop.Flow

variable {G : Type} {flow child : Flow G} {mark : Mark Trail} {trail : Trail} {scope : Scope}
  {s : Stop G} {step : ActionStep G (Flow G)}

/-! ### Listing nodes -/

theorem blockNodes_eq (block : Block G) : blockNodes block = (nodesOf block).flatMap nodes := by
  induction block with
  | nil => rfl
  | cons step rest ih =>
      cases step with
      | call callback => exact ih
      | node flow => exact congrArg (flow.nodes ++ ·) ih

theorem casesNodes_eq (cases : List (Case G (Flow G))) :
    casesNodes cases = (cases.flatMap fun c => nodesOf c.block).flatMap nodes := by
  induction cases with
  | nil => rfl
  | cons c rest ih =>
      rw [casesNodes, ih, blockNodes_eq, List.flatMap_cons, List.flatMap_append]

theorem actionsNodes_eq (actions : List (StepAction G (Flow G))) :
    actionsNodes actions = (actions.flatMap fun a => nodesOf a.block).flatMap nodes := by
  induction actions with
  | nil => rfl
  | cons a rest ih =>
      rw [actionsNodes, ih, blockNodes_eq, List.flatMap_cons, List.flatMap_append]

/-- A node comes before the nodes of the nodes directly below it. -/
theorem nodes_eq (flow : Flow G) : flow.nodes = flow :: flow.children.flatMap nodes := by
  obtain ⟨name, kind⟩ := flow
  rw [nodes, List.cons_inj_right]
  cases kind with
  | switch value cases default =>
      rw [nodesBelow, children, List.flatMap_append, casesNodes_eq]
      cases default with
      | none => rfl
      | some block => rw [defaultNodes, blockNodes_eq]; rfl
  | action step =>
      obtain ⟨players, prompt, passPrompt, actions⟩ := step
      exact actionsNodes_eq actions
  | parallel players body => exact (List.append_nil _).symm
  | _ => exact blockNodes_eq _

theorem self_mem_nodes (flow : Flow G) : flow ∈ flow.nodes := by
  rw [nodes_eq]
  exact List.mem_cons_self

theorem nodes_subset_of_mem_children (h : child ∈ flow.children) : child.nodes ⊆ flow.nodes := by
  intro node mem
  rw [nodes_eq flow]
  exact List.mem_cons_of_mem _ (List.mem_flatMap.2 ⟨child, h, mem⟩)

/-! ### Where a flow waits -/

theorem kind_of_waiting? (h : flow.waiting? mark = some step) : flow.kind = .action step := by
  unfold waiting? at h
  split at h
  · rename_i kind_eq _
    cases h
    exact kind_eq
  · cases h

/-- A flow waits at an action step of one of its nodes. -/
theorem Waits.mem_nodes (h : Waits trail flow scope s) :
    s.flow ∈ flow.nodes ∧ s.flow.kind = .action s.step := by
  induction h with
  | here waiting => exact ⟨self_mem_nodes _, kind_of_waiting? waiting⟩
  | down next inner ih =>
      exact ⟨nodes_subset_of_mem_children (mem_children_of_next? next) ih.1, ih.2⟩
  | lane kind_eq position_eq at_lane at_player not_done inner ih =>
      exact ⟨nodes_subset_of_mem_children (mem_children.2 (.inr ⟨_, kind_eq⟩)) ih.1, ih.2⟩

end Tabletop.Flow
