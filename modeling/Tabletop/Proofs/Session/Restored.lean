import Tabletop.Proofs.Session.Runs
import Tabletop.Script.Host

/-! # What goes wrong after a snapshot is taken up

A snapshot is checked flow by flow. What is kept beside the flows under way is kept for
all of them together: a follow-up is found by its number. A file may hold two follow-ups
with one number, and each of them passes its check, but with the upper one the lower one
is lost. Nothing else of an accepted snapshot goes wrong later: every trail fits when it
is played, and the other flows under way are found.

Main statements: `exists_upheld_of_runAll` and `errors_of_restored`.

## Implementation notes

The follow-ups that are kept need not be told by the flows under way here, as they are in
a run. What is left of that is `Tracked`: the uppermost follow-up of each number is kept,
unless the number is one of those that are `lost` sooner or later.
-/

namespace Tabletop

variable {G : Type}

/-- How many of some flows under way are of a follow-up with the number. -/
def followUpCount (stack : List Activation) (id : UInt32) : Nat :=
  (followUpEntries stack).countP fun e => e.1 == id

/-- Two follow-ups with one number share it. -/
theorem pairwise_followUpCount (stack : List Activation) :
    (followUpEntries stack).Pairwise fun e e' => e.1 = e'.1 → 1 < followUpCount stack e.1 := by
  refine List.pairwise_iff_forall_sublist.2 fun {e e'} sublist same => ?_
  have two : 2 ≤ (followUpEntries stack).countP fun x => x.1 == e.1 := by
    have at_least : [e, e'].countP (fun x => x.1 == e.1) ≤ _ := sublist.countP_le
    simpa [same] using at_least
  exact two

namespace Rules

/-- The uppermost follow-up of each number is kept, unless the number is lost, numbers
that are shared are lost, no number is given again, and all flows under way stand. -/
structure Tracked (rules : Rules G) (lost : UInt32 → Prop) (s : Session) : Prop where
  kept : ∀ id f, (followUpEntries s.stack).lookup id = some f →
    s.followUps.get? id = some f ∨ (lost id ∧ s.followUps.get? id = none)
  apart : (followUpEntries s.stack).Pairwise fun e e' => e.1 = e'.1 → lost e.1
  below : ∀ e ∈ followUpEntries s.stack, e.1 < s.followUps.next
  stands : ∀ a ∈ s.stack, rules.Stands a

/-- The error is neither about a trail, nor about a flow unless that is a subflow that is
not declared, or a follow-up with a number that is lost. -/
def Excuses (rules : Rules G) (lost : UInt32 → Prop) : PlayError → Prop
  | .invalidTrail .. => False
  | .unknownFlow name => rules.flows.subflows.get? name = none ∨
      ∃ id, lost id ∧ name = FlowId.followUpName id
  | _ => True

variable {rules : Rules G} {lost : UInt32 → Prop} {s : Session} {a top : Activation} {flow : Flow G}
  {trail : Trail}

open FollowUps

namespace Tracked

theorem push (h : rules.Tracked lost s) (plain : a.flow.followUp? = none)
    (stands : rules.Stands a) : rules.Tracked lost (s.push a) := by
  have same : followUpEntries (s.push a).stack = followUpEntries s.stack :=
    followUpEntries_cons_of_none plain
  refine ⟨?_, ?_, ?_, List.forall_mem_cons.2 ⟨stands, h.stands⟩⟩ <;> rw [same]
  · exact h.kept
  · exact h.apart
  · exact h.below

/-- With the uppermost of several follow-ups with one number the others are lost. -/
theorem pop (h : rules.Tracked lost s) : rules.Tracked lost s.pop := by
  obtain ⟨status, stack, dice, followUps, history, messages⟩ := s
  obtain ⟨kept, apart, below, stands⟩ := h
  cases stack with
  | nil => exact ⟨kept, apart, below, stands⟩
  | cons a stack =>
      obtain ⟨flow, args, trail⟩ := a
      have below_stand := (List.forall_mem_cons.1 stands).2
      cases flow with
      | followUp id f =>
          rw [followUpEntries_cons_of_some rfl] at kept apart below
          obtain ⟨shared, apart⟩ := List.pairwise_cons.1 apart
          refine ⟨fun id' f' found => ?_, apart, (List.forall_mem_cons.1 below).2, below_stand⟩
          have removed := get?_remove followUps id id'
          by_cases same : id' = id
          · rw [if_pos same] at removed
            change (followUpEntries stack).lookup id' = some f' at found
            have mem : (id', f') ∈ followUpEntries stack := mem_of_lookup_eq_some found
            exact .inr ⟨same ▸ shared _ mem same.symm, removed⟩
          · rw [if_neg same] at removed
            have kept := kept id' f' (by rwa [List.lookup_cons, beq_false_of_ne same])
            rwa [← removed] at kept
      | _ => exact ⟨kept, apart, below, below_stand⟩

theorem setTrail (h : rules.Tracked lost s) (on_top : s.top? = some top)
    (found : rules.flowOf? top.flow = some flow) (fits : flow.Fits trail) :
    rules.Tracked lost (s.setTrail trail) := by
  obtain ⟨status, stack, dice, followUps, history, messages⟩ := s
  cases stack with
  | nil => cases on_top
  | cons a stack =>
      obtain rfl : a = top := by simpa [Session.top?] using on_top
      have top_stands : rules.Stands { a with trail } := ⟨flow, found, fits⟩
      exact ⟨h.kept, h.apart, h.below,
        List.forall_mem_cons.2 ⟨top_stands, (List.forall_mem_cons.1 h.stands).2⟩⟩

theorem add (h : rules.Tracked lost s) {f : FollowUp} (more : s.followUps.next ≠ last)
    (declared : rules.repertoire.contains f.name)
    (fits : (f.flow s.followUps.next : Flow G).Fits trail) :
    rules.Tracked lost ({ s with followUps := (s.followUps.add f).2 }.push
      ⟨(s.followUps.add f).1, .empty, trail⟩) := by
  have entries : followUpEntries (⟨(s.followUps.add f).1, .empty, trail⟩ :: s.stack) =
      (s.followUps.next, f) :: followUpEntries s.stack := followUpEntries_cons_of_some rfl
  have fresh : ∀ e ∈ followUpEntries s.stack, s.followUps.next ≠ e.1 := by
    intro e mem
    have lt := h.below e mem
    grind
  refine ⟨fun id f' found => ?_, ?_, ?_,
    List.forall_mem_cons.2 ⟨⟨_, if_pos declared, fits⟩, h.stands⟩⟩
  · have added : (s.followUps.add f).2.get? id =
        if id = s.followUps.next then some f else s.followUps.get? id := get?_put _ _ _ _
    rw [Session.push, entries, List.lookup_cons] at found
    change (s.followUps.add f).2.get? id = some f' ∨ (lost id ∧ (s.followUps.add f).2.get? id = none)
    by_cases same : id = s.followUps.next
    · rw [same, beq_self_eq_true] at found
      rw [added, if_pos same]
      exact .inl found
    · rw [beq_false_of_ne same] at found
      rw [added, if_neg same]
      exact h.kept id f' found
  · rw [Session.push, entries]
    exact List.pairwise_cons.2 ⟨fun e mem same => absurd same (fresh e mem), h.apart⟩
  · rw [Session.push, entries]
    refine List.forall_mem_cons.2 ⟨lt_add_one more, fun e mem => ?_⟩
    exact UInt32.lt_trans (h.below e mem) (lt_add_one more)

/-- The running flow is found, or it is a follow-up with a number that was lost. -/
theorem finds (h : rules.Tracked lost s) (on_top : s.top? = some top)
    (found : rules.flowOf? top.flow = some flow) :
    rules.flows.get? s.followUps top.flow = some flow ∨
      rules.flows.get? s.followUps top.flow = none ∧
        ∃ id, lost id ∧ top.flow.display = FlowId.followUpName id := by
  obtain ⟨status, stack, dice, followUps, history, messages⟩ := s
  cases stack with
  | nil => cases on_top
  | cons a stack =>
      cases on_top
      obtain ⟨id, args, trail⟩ := top
      cases id with
      | followUp id f =>
          have uppermost : (followUpEntries (⟨.followUp id f, args, trail⟩ :: stack)).lookup id =
              some f := by
            rw [followUpEntries_cons_of_some rfl]
            exact List.lookup_cons_self
          rw [flowOf?] at found
          split at found
          · cases found
            rcases h.kept id f uppermost with kept | ⟨gone, missing⟩
            · exact .inl (congrArg (Option.map _) kept)
            · exact .inr ⟨congrArg (Option.map _) missing, id, gone, rfl⟩
          · cases found
      | _ => exact .inl found

end Tracked

theorem tracked_new (config : Config) : rules.Tracked lost (.new config) :=
  ⟨by simp [Session.new, followUpEntries], by simp [Session.new, followUpEntries],
    by simp [Session.new, followUpEntries], by simp [Session.new]⟩

/-- The flow that is found for the running flow is the one that it tells. -/
theorem Tracked.flowOf?_eq (h : rules.Tracked lost s) (on_top : s.top? = some top)
    (found : rules.flows.get? s.followUps top.flow = some flow) :
    rules.flowOf? top.flow = some flow := by
  obtain ⟨flow', told, -⟩ := h.stands top (mem_stack_of_top? on_top)
  rcases h.finds on_top told with found' | ⟨missing, -⟩
  · rw [told, ← found', found]
  · cases found.symm.trans missing

section Upheld

variable [Game G]

/-- What is left of tracking is upheld, with errors that are excused. -/
theorem upheld_tracked : rules.Upheld (rules.Tracked lost) (rules.Excuses lost) where
  new := tracked_new
  aside := by
    intro s s' h stack_eq followUps_eq
    obtain ⟨kept, apart, below, stands⟩ := h
    rw [← stack_eq] at kept apart below stands
    rw [← followUps_eq] at kept below
    exact ⟨kept, apart, below, stands⟩
  finds := by
    intro s top h on_top
    obtain ⟨flow, told, fits⟩ := h.stands top (mem_stack_of_top? on_top)
    rcases h.finds on_top told with found | ⟨missing, id, gone, called⟩
    · exact .inr ⟨flow, found, fits, fun _ fits _ => h.setTrail on_top told fits⟩
    · exact .inl ⟨missing, .inr ⟨id, gone, called⟩⟩
  push := fun h plain found enters => h.push plain ⟨_, found, fits_of_entersAt enters⟩
  pop := Tracked.pop
  add := fun h more declared enters => h.add more declared (fits_of_entersAt enters)
  undeclared := .inl
  other := by
    intro e other
    cases e with
    | unknownFlow name => cases other
    | invalidTrail flow mismatch => cases other
    | _ => trivial

theorem tracked_keptByMoves (s : Session) (h : rules.Tracked lost s) :
    rules.KeptByMoves (rules.Tracked lost) s :=
  fun _ _ _ _ _ _ on_top found _ _ fits => h.setTrail on_top (h.flowOf?_eq on_top found) fits

end Upheld

section Restored

variable {saved : Snapshot} {t t' : Table G}

/-- A snapshot that is admitted is taken up. -/
theorem restore_eq_ok :
    (rules.restore saved).on t = (.ok (), t') ↔
      rules.checkRestore t.session.followUps saved .faults = .ok () ∧
        t' = { t with session := .ofSnapshot saved } := by
  simp only [restore, Drive.on_bind, Drive.on_session, Drive.on_playing, Drive.on_change]
  cases rules.checkRestore t.session.followUps saved .faults with
  | error e => simp
  | ok _ => simp [eq_comm]

/-- The session of a snapshot whose flows stand loses no follow-ups but those that share
their number, if there are numbers left. -/
theorem tracked_ofSnapshot (stand : ∀ a ∈ saved.stack, rules.Stands a)
    (more : ∀ e ∈ followUpEntries saved.stack, e.1 ≠ last) :
    rules.Tracked (fun id => 1 < followUpCount saved.stack id) (.ofSnapshot saved) := by
  refine ⟨fun id f found => .inl ?_, pairwise_followUpCount _, fun e mem => ?_, stand⟩
  · rw [← found]
    exact Session.get?_followUpsOf saved.stack id
  · have next_le : (Session.followUpsOf saved.stack).next ≤ (Session.ofSnapshot saved).followUps.next :=
      (le_next_raise _ _).1
    exact UInt32.lt_of_lt_of_le (Session.lt_next_followUpsOf more e mem) next_le

variable [Game G]

section Any

variable {ι : Type} {I : ι → Session → Prop} {E : ι → PlayError → Prop}
  (upheld : ∀ i, rules.Upheld (I i) (E i)) (kept : ∀ i s, I i s → rules.KeptByMoves (I i) s)
  (taken_up : ∀ saved : Snapshot, (∀ a ∈ saved.stack, rules.Stands a) →
    (∀ e ∈ followUpEntries saved.stack, e.1 ≠ last) → ∃ i, I i (.ofSnapshot saved))

omit [Game G] in
include taken_up in
theorem restore_upholds (h : ∃ i, I i t.session) :
    (rules.restore saved).Ends t (fun _ t' => ∃ i, I i t'.session)
      fun _ t' => ∃ i, I i t'.session := by
  refine .session (.bind (.playing (fun _ admitted => .change ?_) fun _ _ => h))
  obtain ⟨-, stand, more⟩ := (checkRestore_eq_ok _).1 admitted
  exact taken_up saved stand more

include upheld kept taken_up

/-- Where one of some properties holds of whatever is taken up, and each of them is upheld,
one of them holds after any operation. -/
theorem exists_upheld_of_run (h : ∃ i, I i t.session) (op : Operation G) :
    ∃ i, I i ((op.run rules).on t).2.session := by
  have ends : (op.run rules).Ends t (fun _ t' => ∃ i, I i t'.session)
      fun _ t' => ∃ i, I i t'.session := by
    cases hr : op.isRestore with
    | false =>
        obtain ⟨i, h⟩ := h
        exact ((upheld i).run (kept i) hr h).imp (fun _ _ h => ⟨i, h.1⟩) fun _ _ h => ⟨i, h.2⟩
    | true =>
        cases op with
        | restore s => exact .bind ((restore_upholds taken_up h).mono fun _ _ h => .pure h)
        | restoreText text =>
            refine .bind (.mono ?_ fun _ _ h => .pure h)
            unfold restoreText
            split
            · exact restore_upholds taken_up h
            · exact .throw h
        | _ => cases hr
  exact ends.any_of_on (fun _ _ h => h) fun _ _ h => h

theorem exists_upheld_of_runAll (h : ∃ i, I i t.session) (ops : List (Operation G)) :
    ∃ i, I i (rules.runAll ops t).2.session := by
  induction ops generalizing t with
  | nil => exact h
  | cons op ops ih => exact ih (exists_upheld_of_run upheld kept taken_up h op)

end Any

/-- All that any operations lead to is tracked, up to follow-ups that are lost. -/
theorem exists_tracked_of_runAll (h : ∃ lost, rules.Tracked lost t.session)
    (ops : List (Operation G)) :
    ∃ lost, rules.Tracked lost (rules.runAll ops t).2.session :=
  exists_upheld_of_runAll (fun _ => upheld_tracked) (fun _ => tracked_keptByMoves)
    (fun _ stand more => ⟨_, tracked_ofSnapshot stand more⟩) h ops

/-- After a snapshot was accepted no operation runs into a trail that does not fit, and a
flow that is missing is a subflow that is neither declared nor was on the stack, or a
follow-up that shared its number with another one on the stack. -/
theorem errors_of_restored (restores : (rules.restore saved).on t = (.ok (), t'))
    (ops : List (Operation G)) (plain : ∀ op ∈ ops, op.isRestore = false) :
    ∀ e, .error e ∈ (rules.runAll ops t').1 →
      (∀ flow mismatch, e ≠ .invalidTrail flow mismatch) ∧
        ∀ name, e = .unknownFlow name →
          (rules.flows.subflows.get? name = none ∧ ∀ a ∈ saved.stack, a.flow ≠ .subflow name) ∨
            ∃ id, name = FlowId.followUpName id ∧ 1 < followUpCount saved.stack id := by
  obtain ⟨admitted, rfl⟩ := restore_eq_ok.1 restores
  obtain ⟨-, stand, more⟩ := (checkRestore_eq_ok _).1 admitted
  have upheld := upheld_tracked.runAll tracked_keptByMoves
    (t := { t with session := .ofSnapshot saved }) (tracked_ofSnapshot stand more) ops plain
  intro e fails
  have excused := upheld.2 e fails
  constructor
  · rintro flow mismatch rfl
    exact excused
  · rintro name rfl
    rcases excused with undeclared | ⟨id, shared, called⟩
    · refine .inl ⟨undeclared, fun a mem is_subflow => ?_⟩
      obtain ⟨flow, told, -⟩ := stand a mem
      rw [is_subflow] at told
      exact absurd (undeclared.symm.trans told) nofun
    · exact .inr ⟨id, called, shared⟩

end Restored

/-- The first player can go, once. -/
def going : Rules Script.Host where
  flows := .ofMain (.act ⟨some fun _ _ => .ok [⟨0⟩], none, none, [⟨"go", [], .empty, false⟩]⟩)
  repertoire := Dict.empty.insert "go" fun _ _ => .ok { name := "go" }
  config := { maxSteps := 8 }

/-- A follow-up that waits for the first player to go. -/
def going.again (id : UInt32) : Activation where
  flow := .followUp id ⟨⟨0⟩, "go", .empty, none⟩
  args := .empty
  trail := .ofList
    [⟨some (FlowId.followUpName id), .sequence 0, none⟩, ⟨none, .action .awaiting, none⟩]

/-- Two follow-ups over the main flow. -/
def going.saved (upper lower : UInt32) : Snapshot where
  status := .playing
  stack := [again upper, again lower, ⟨.main, .empty, .ofList [⟨none, .action .awaiting, none⟩]⟩]
  dice := ⟨1, 0⟩
  nextFollowUp := 0
  history := []

/-- A new table with a snapshot taken up. -/
def going.restored (saved : Snapshot) : Table Script.Host := ⟨.ofSnapshot saved, .fresh 2⟩

/-- Two follow-ups of one number are accepted, but when the upper one is done the lower
one is missing. -/
theorem follow_up_missing_after_restore :
    let saved := going.saved 0 0
    let t := going.restored saved
    checkFlow going.repertoire going.flows.main = .ok () ∧
      (going.restore saved).on ⟨.new going.config, .fresh 2⟩ = (.ok (), t) ∧
        .error (.unknownFlow (going.again 0).flow.display) ∈
            (going.runAll [.submit ⟨⟨0⟩, "go", .empty⟩] t).1 ∧
          going.again 0 ∈ saved.stack.tail := by
  intro saved t
  have admitted : going.checkRestore .empty saved .faults = .ok () := by decide +kernel
  have reply : (((Operation.submit ⟨⟨0⟩, "go", .empty⟩).run going).on t).1 =
      .error (.unknownFlow (going.again 0).flow.display) := by rfl
  refine ⟨by decide +kernel, restore_eq_ok.2 ⟨admitted, rfl⟩, ?_, List.mem_cons_self⟩
  rw [runAll_cons, reply]
  exact List.mem_cons_self

/-- Under numbers of their own both follow-ups are played out, and the only error is that of
a player who may not go. -/
theorem errors_of_restored_going :
    let saved := going.saved 1 0
    let t := going.restored saved
    let ops : List (Operation Script.Host) :=
      [.submit ⟨⟨1⟩, "go", .empty⟩, .submit ⟨⟨0⟩, "go", .empty⟩, .submit ⟨⟨0⟩, "go", .empty⟩, .play]
    (going.restore saved).on ⟨.new going.config, .fresh 2⟩ = (.ok (), t) ∧
      (∀ op ∈ ops, op.isRestore = false) ∧ .error (.ineligible ⟨1⟩) ∈ (going.runAll ops t).1 ∧
        ∀ e, .error e ∈ (going.runAll ops t).1 →
          (∀ flow mismatch, e ≠ .invalidTrail flow mismatch) ∧
            ∀ name, e = .unknownFlow name →
              (going.flows.subflows.get? name = none ∧
                  ∀ a ∈ saved.stack, a.flow ≠ .subflow name) ∨
                ∃ id, name = FlowId.followUpName id ∧ 1 < followUpCount saved.stack id := by
  intro saved t ops
  have admitted : going.checkRestore .empty saved .faults = .ok () := by decide +kernel
  have restores : (going.restore saved).on ⟨.new going.config, .fresh 2⟩ = (.ok (), t) :=
    restore_eq_ok.2 ⟨admitted, rfl⟩
  have plain : ∀ op ∈ ops, op.isRestore = false := by simp [ops, Operation.isRestore]
  have reply : (((Operation.submit ⟨⟨1⟩, "go", .empty⟩).run going).on t).1 =
      .error (.ineligible ⟨1⟩) := by rfl
  refine ⟨restores, plain, ?_, errors_of_restored restores ops plain⟩
  rw [show ops = _ :: ops.tail from rfl, runAll_cons, reply]
  exact List.mem_cons_self

end Rules

end Tabletop
