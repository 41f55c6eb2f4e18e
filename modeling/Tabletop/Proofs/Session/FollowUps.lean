import Tabletop.Session.Restore

/-! # Follow-ups of the flows under way

A snapshot leaves out the follow-ups that are kept beside the flows under way. It
can do so because those flows tell them all: each follow-up has a flow under way,
under a number of its own, and nothing else is kept.

Main statement: `ofSnapshot_snapshot`.
-/

namespace Tabletop

/-- The number and the follow-up in an identity, if it is that of a follow-up. -/
def FlowId.followUp? : FlowId → Option (UInt32 × FollowUp)
  | .followUp id f => some (id, f)
  | _ => none

/-- The follow-ups that some flows under way are of, by number. -/
def followUpEntries (stack : List Activation) : List (UInt32 × FollowUp) :=
  stack.filterMap fun a => a.flow.followUp?

theorem exists_of_mem_followUpEntries {stack : List Activation} {id : UInt32} {f : FollowUp}
    (mem : (id, f) ∈ followUpEntries stack) : ∃ a ∈ stack, a.flow = .followUp id f := by
  obtain ⟨a, a_mem, of_a⟩ := List.mem_filterMap.1 mem
  refine ⟨a, a_mem, ?_⟩
  cases flow_eq : a.flow with
  | followUp id' f' =>
      rw [flow_eq] at of_a
      cases of_a
      rfl
  | _ =>
      rw [flow_eq] at of_a
      cases of_a

namespace FollowUps

/-- The follow-ups kept are those of the flows under way, under numbers of their own
that are not given again. -/
structure Track (fs : FollowUps) (stack : List Activation) : Prop where
  entries_eq : fs.entries = followUpEntries stack
  distinct : (followUpEntries stack).Pairwise fun e e' => e.1 ≠ e'.1
  below : ∀ e ∈ followUpEntries stack, e.1 < fs.next

/-! ### Numbers -/

section Numbers

variable {id least next : UInt32} {fs : FollowUps}

/-- All numbers but the last one have a number after them. -/
theorem lt_add_one (more : id ≠ last) : id < id + 1 := by
  unfold last at more
  grind

theorem ne_last_of_lt (lt : id < next) : id ≠ last := by
  unfold last
  grind

theorem next_raise (fs : FollowUps) (least : UInt32) :
    (fs.raise least).next = if fs.next ≤ least then least else fs.next := rfl

theorem le_next_raise (fs : FollowUps) (least : UInt32) :
    fs.next ≤ (fs.raise least).next ∧ least ≤ (fs.raise least).next := by
  rw [next_raise]
  grind

theorem next_raise_le (upper : fs.next ≤ next) (least_le : least ≤ next) :
    (fs.raise least).next ≤ next := by
  rw [next_raise]
  split <;> assumption

end Numbers

section Track

variable {fs : FollowUps} {stack : List Activation} {a : Activation} {id : UInt32} {f : FollowUp}

theorem entries_remove_of_fresh (fresh : ∀ e ∈ fs.entries, id ≠ e.1) :
    (fs.remove id).entries = fs.entries := by
  apply List.filter_eq_self.2
  intro e mem
  simpa using (fresh e mem).symm

theorem followUpEntries_cons_of_none (h : a.flow.followUp? = none) :
    followUpEntries (a :: stack) = followUpEntries stack := List.filterMap_cons_none h

theorem followUpEntries_cons_of_some (h : a.flow.followUp? = some (id, f)) :
    followUpEntries (a :: stack) = (id, f) :: followUpEntries stack := List.filterMap_cons_some h

theorem track_empty : empty.Track [] := ⟨rfl, .nil, by simp [followUpEntries]⟩

/-- A flow that is of no follow-up may come and go. -/
theorem track_cons_of_none (h : a.flow.followUp? = none) :
    fs.Track (a :: stack) ↔ fs.Track stack := by
  constructor
  · rintro ⟨entries_eq, distinct, below⟩
    rw [followUpEntries_cons_of_none h] at entries_eq distinct below
    exact ⟨entries_eq, distinct, below⟩
  · rintro ⟨entries_eq, distinct, below⟩
    rw [← followUpEntries_cons_of_none h] at entries_eq distinct below
    exact ⟨entries_eq, distinct, below⟩

/-- A new follow-up is kept until its flow is over, as long as there is a number after its
own. -/
theorem Track.add (h : fs.Track stack) (more : fs.next ≠ last) (f : FollowUp) (args : Args)
    (trail : Trail) : (fs.add f).2.Track (⟨(fs.add f).1, args, trail⟩ :: stack) := by
  have fresh : ∀ e ∈ followUpEntries stack, fs.next ≠ e.1 := by
    intro e mem
    have lt := h.below e mem
    grind
  have kept : (fs.add f).2.entries = (fs.next, f) :: followUpEntries stack := by
    rw [← h.entries_eq]
    exact congrArg _ (entries_remove_of_fresh (h.entries_eq ▸ fresh))
  refine ⟨kept, List.pairwise_cons.2 ⟨fresh, h.distinct⟩, ?_⟩
  intro e mem
  rcases List.mem_cons.1 mem with rfl | mem
  · exact lt_add_one more
  · exact UInt32.lt_trans (h.below e mem) (lt_add_one more)

/-- With its flow a follow-up is over. -/
theorem Track.remove (h : fs.Track (a :: stack)) (ha : a.flow.followUp? = some (id, f)) :
    (fs.remove id).Track stack := by
  obtain ⟨entries_eq, distinct, below⟩ := h
  rw [followUpEntries_cons_of_some ha] at entries_eq distinct below
  obtain ⟨fresh, distinct⟩ := List.pairwise_cons.1 distinct
  refine ⟨?_, distinct, fun e mem => below e (List.mem_cons_of_mem _ mem)⟩
  simp only [FollowUps.remove, entries_eq, bne_self_eq_false, Bool.false_eq_true,
    not_false_eq_true, List.filter_cons_of_neg]
  apply List.filter_eq_self.2
  intro e mem
  simpa using (fresh e mem).symm

/-- The follow-up that a flow under way is of is found by its number. -/
theorem Track.get?_eq (h : fs.Track stack) (mem : a ∈ stack)
    (ha : a.flow = .followUp id f) : fs.get? id = some f := by
  have mem : (id, f) ∈ followUpEntries stack :=
    List.mem_filterMap.2 ⟨a, mem, by rw [ha]; rfl⟩
  obtain ⟨before, after, split⟩ := List.append_of_mem mem
  rw [get?, h.entries_eq, split, List.lookup_eq_some_iff]
  refine ⟨before, after, rfl, ?_⟩
  intro e before_mem
  have distinct := h.distinct
  rw [split, List.pairwise_append] at distinct
  have fresh : e.1 ≠ id := distinct.2.2 e before_mem (id, f) List.mem_cons_self
  simpa using fresh.symm

end Track

end FollowUps

namespace Session

open FollowUps

theorem entries_followUpsOf {stack : List Activation}
    (distinct : (followUpEntries stack).Pairwise fun e e' => e.1 ≠ e'.1) :
    (followUpsOf stack).entries = followUpEntries stack := by
  induction stack with
  | nil => rfl
  | cons a stack ih =>
      obtain ⟨flow, args, trail⟩ := a
      cases flow with
      | followUp id f =>
          rw [followUpEntries_cons_of_some rfl] at distinct ⊢
          obtain ⟨fresh, distinct⟩ := List.pairwise_cons.1 distinct
          have kept := entries_remove_of_fresh (ih distinct ▸ fresh)
          rw [ih distinct] at kept
          exact congrArg (List.cons (id, f)) kept
      | _ => exact ih distinct

/-- Of several follow-ups with one number the uppermost is found. -/
theorem get?_followUpsOf (stack : List Activation) (id : UInt32) :
    (followUpsOf stack).get? id = (followUpEntries stack).lookup id := by
  induction stack with
  | nil => rfl
  | cons a stack ih =>
      obtain ⟨flow, args, trail⟩ := a
      cases flow with
      | followUp id' f =>
          have restored : (followUpsOf (⟨.followUp id' f, args, trail⟩ :: stack)).get? id =
              ((followUpsOf stack).put id' f).get? id := rfl
          rw [restored, get?_put, ih, followUpEntries_cons_of_some rfl, List.lookup_cons]
          by_cases same : id = id'
          · simp [same]
          · simp [same, beq_false_of_ne same]
      | _ => exact ih

/-- A snapshot has numbers left unless one of its follow-ups has the last one. -/
theorem numbersGoOn_eq_ok {stack : List Activation} :
    numbersGoOn .faults stack = .ok () ↔ ∀ e ∈ followUpEntries stack, e.1 ≠ last := by
  simp only [numbersGoOn, forM_eq_ok, List.mem_reverse, followUpEntries, List.mem_filterMap]
  constructor
  · rintro go_on ⟨id, f⟩ ⟨a, mem, of_a⟩
    obtain ⟨_ | _ | _, args, trail⟩ := a <;> cases of_a
    exact goOn_faults_eq_ok.1 (go_on _ mem)
  · rintro more ⟨_ | _ | ⟨id, f⟩, args, trail⟩ mem
    · rfl
    · rfl
    · exact goOn_faults_eq_ok.2 (more (id, f) ⟨_, mem, rfl⟩)

/-- The next number is above all numbers of follow-ups, if these have numbers after them. -/
theorem lt_next_followUpsOf {stack : List Activation}
    (more : ∀ e ∈ followUpEntries stack, e.1 ≠ last) :
    ∀ e ∈ followUpEntries stack, e.1 < (followUpsOf stack).next := by
  induction stack with
  | nil => simp [followUpEntries]
  | cons a stack ih =>
      obtain ⟨flow, args, trail⟩ := a
      cases flow with
      | followUp id f =>
          rw [followUpEntries_cons_of_some rfl] at more ⊢
          obtain ⟨id_more, more⟩ := List.forall_mem_cons.1 more
          obtain ⟨le, succ_le⟩ := le_next_raise ((followUpsOf stack).put id f) (id + 1)
          intro e mem
          rcases List.mem_cons.1 mem with rfl | mem
          · exact UInt32.lt_of_lt_of_le (lt_add_one id_more) succ_le
          · exact UInt32.lt_of_lt_of_le (ih more e mem) le
      | _ => exact ih more

theorem next_followUpsOf_le {stack : List Activation} {next : UInt32}
    (below : ∀ e ∈ followUpEntries stack, e.1 < next) : (followUpsOf stack).next ≤ next := by
  induction stack with
  | nil => exact UInt32.zero_le
  | cons a stack ih =>
      obtain ⟨flow, args, trail⟩ := a
      cases flow with
      | followUp id f =>
          have later : (followUpsOf stack).next ≤ next :=
            ih fun e mem => below e (List.mem_cons_of_mem _ mem)
          have id_lt : id < next := below (id, f) List.mem_cons_self
          exact next_raise_le later (by grind)
      | _ => exact ih below

/-- What a snapshot leaves out is found again in the flows under way; only messages
are lost. -/
theorem ofSnapshot_snapshot {s : Session} (h : s.followUps.Track s.stack) :
    ofSnapshot s.snapshot = { s with messages := [] } := by
  have followUps_eq : (followUpsOf s.stack).raise s.followUps.next = s.followUps := by
    have entries_eq := entries_followUpsOf h.distinct
    rw [← h.entries_eq] at entries_eq
    have next_eq := next_raise (followUpsOf s.stack) s.followUps.next
    rw [if_pos (next_followUpsOf_le h.below)] at next_eq
    exact FollowUps.ext entries_eq next_eq
  simp [ofSnapshot, snapshot, followUps_eq]

end Session

end Tabletop
