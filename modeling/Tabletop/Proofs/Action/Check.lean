import Tabletop.Action
import Tabletop.Proofs.Selection.Legal

/-! # Checking moves

The check of a move answers selections in order and fills in the ones a player has no
say in. Where no selection looks at the answers of later ones, what was accepted on the
way is accepted at the end, so the arguments that were filled in pass the check again
and are not changed by it.

Main statements: `checkAmong_settles` and `process_again`.
-/

namespace Tabletop

variable {G : Type}

/-- The names of some selections. -/
def Selection.Named (selections : List (Selection G)) (name : String) : Prop :=
  name ∈ selections.map (·.name)

/-- What a selection of the action shows and what its check objects to depend on the
answers of no later selection. -/
structure Action.LooksBack (a : Action G) (g : G) : Prop where
  offer_eq : ∀ {before s after}, a.selections = before ++ s :: after → ∀ {x y : Args},
    x.AgreeOff (Selection.Named after) y → s.offer g x = s.offer g y
  objection_eq : ∀ {before s after}, a.selections = before ++ s :: after → ∀ {x y : Args},
    x.AgreeOff (Selection.Named after) y → s.objection? g x = s.objection? g y

namespace Action

/-- The selection has an accepted value among the arguments. -/
structure Settled (g : G) (args : Args) (s : Selection G) : Prop where
  accepted : ∃ value, args.get? s.name = some value ∧ (s.offer g args).Accepts value
  no_objection : s.objection? g args = none

theorem settled_iff {g : G} {args : Args} {s : Selection G} :
    Settled g args s ↔ s.refusal? g args = none := by
  unfold Selection.refusal?
  constructor
  · rintro ⟨⟨value, found, accepts⟩, no_objection⟩
    rw [found]
    simp [show Offer.refusal? _ _ = none from accepts, no_objection]
  · intro h
    cases found : args.get? s.name with
    | none => simp [found] at h
    | some value =>
        simp only [found, Option.or_eq_none_iff] at h
        exact ⟨⟨value, found, h.1⟩, h.2⟩

section Check

variable {a : Action G} {g : G} {done rest : List (Selection G)}
  {args full : Args}

/-- What is settled in the middle of the check is settled at its end. -/
theorem settled_of_agree {s : Selection G} (looksBack : a.LooksBack g)
    (split : a.selections = done ++ s :: rest) (sub : args ⊆ full)
    (agree : args.AgreeOff (Selection.Named rest) full)
    (h : Settled g args s) : Settled g full s := by
  obtain ⟨⟨value, found, accepts⟩, no_objection⟩ := h
  refine ⟨⟨value, sub _ _ found, ?_⟩, ?_⟩
  · rwa [← looksBack.offer_eq split agree]
  · rwa [← looksBack.objection_eq split agree]

/-- An accepted check goes on with the next selection settled. Its value is given or
filled in. -/
theorem checkAmong_cons {s : Selection G} (h : checkAmong g (s :: rest) args = (full, none)) :
    ∃ next : Args, args ⊆ next ∧ args.AgreeOff (fun name => name = s.name) next ∧
      Settled g next s ∧ checkAmong g rest next = (full, none) := by
  unfold checkAmong at h
  split at h
  · split at h
    · cases h
    · rename_i accepted
      exact ⟨args, Dict.Subset.refl _, fun _ _ => rfl, settled_iff.2 accepted, h⟩
  · rename_i missing
    have fresh := Dict.contains_eq_false.1 (by simpa using missing)
    split at h
    · cases h
    · rename_i value _
      dsimp only at h
      split at h
      · cases h
      · rename_i accepted
        refine ⟨args.insert s.name value, Dict.subset_insert fresh value, ?_,
          settled_iff.2 accepted, h⟩
        intro name kept
        simp [show name ≠ s.name from kept]

/-- An accepted check only adds values, for selections that had none. -/
theorem checkAmong_adds (h : checkAmong g rest args = (full, none)) :
    args ⊆ full ∧ args.AgreeOff (Selection.Named rest) full := by
  induction rest generalizing args with
  | nil =>
      cases h
      exact ⟨Dict.Subset.refl _, fun _ _ => rfl⟩
  | cons s rest ih =>
      obtain ⟨next, sub, agree, -, goes_on⟩ := checkAmong_cons h
      obtain ⟨sub', agree'⟩ := ih goes_on
      refine ⟨Dict.Subset.trans sub sub', (agree.mono ?_).trans (agree'.mono ?_)⟩
      · rintro name rfl
        exact List.mem_cons_self
      · exact fun name => List.mem_cons_of_mem _

/-- Where every selection has a value, a check changes nothing. -/
theorem checkAmong_fst_of_contains (answered : ∀ s ∈ rest, args.contains s.name) :
    (checkAmong g rest args).1 = args := by
  induction rest with
  | nil => rfl
  | cons s rest ih =>
      obtain ⟨has, others⟩ := List.forall_mem_cons.1 answered
      rw [checkAmong, if_pos has]
      split
      · rfl
      · exact ih others

/-- All selections that an accepted check went through are settled at its end. -/
theorem settled_of_checkAmong (looksBack : a.LooksBack g)
    (split : a.selections = done ++ rest) (h : checkAmong g rest args = (full, none)) :
    ∀ s ∈ rest, Settled g full s := by
  induction rest generalizing done args with
  | nil => simp
  | cons s rest ih =>
      have split' : a.selections = (done ++ [s]) ++ rest := by simpa using split
      obtain ⟨next, -, -, settled, goes_on⟩ := checkAmong_cons h
      obtain ⟨sub, agree⟩ := checkAmong_adds goes_on
      exact List.forall_mem_cons.2
        ⟨settled_of_agree looksBack split sub agree settled, ih split' goes_on⟩

/-- An accepted check only adds values, for selections that had none, and all
selections it went through are settled at its end. -/
theorem checkAmong_settles (looksBack : a.LooksBack g)
    (split : a.selections = done ++ rest) (h : checkAmong g rest args = (full, none)) :
    args ⊆ full ∧ args.AgreeOff (Selection.Named rest) full ∧ ∀ s ∈ rest, Settled g full s :=
  have ⟨sub, agree⟩ := checkAmong_adds h
  ⟨sub, agree, settled_of_checkAmong looksBack split h⟩

/-- The check accepts arguments in which everything is settled. -/
theorem checkAmong_of_settled (h : ∀ s ∈ rest, args.contains s.name ∧ Settled g args s) :
    checkAmong g rest args = (args, none) := by
  induction rest with
  | nil => rfl
  | cons s rest ih =>
      obtain ⟨has, settled⟩ := h s List.mem_cons_self
      simp only [checkAmong, has, if_true, settled_iff.1 settled]
      exact ih fun t mem => h t (List.mem_cons_of_mem _ mem)

end Check

/-- Running an action leaves its arguments as they are. -/
theorem args_of_execute {a : Action G} {g g' : G} {dice dice' : Dice} {player : Player}
    {args : Args} {outcome : Outcome}
    (h : a.execute g dice player args = .ok (outcome, g', dice')) : outcome.args = args := by
  obtain ⟨effect, -, h⟩ := bind_eq_ok.1 h
  cases h
  rfl

/-- A move that is carried out was offered, and its check was accepted. -/
theorem check_of_process {a : Action G} {g g' : G} {dice dice' : Dice} {player : Player}
    {args : Args} {outcome : Outcome}
    (h : a.process g dice player args = .ok (.ok (outcome, g', dice'))) :
    a.isAvailable g ∧ a.check g args = (outcome.args, none) := by
  unfold process at h
  split at h
  · rename_i available
    refine ⟨available, ?_⟩
    split at h
    · cases h
    · rename_i filled checked
      cases executes : a.execute g dice player filled with
      | error fault =>
          rw [executes] at h
          cases h
      | ok performed =>
          rw [executes] at h
          cases h
          rw [checked, args_of_execute executes]
  · cases h

/-- The arguments that an accepted check filled in are accepted as they are. -/
theorem check_filled {a : Action G} {g : G} {args full : Args} (looksBack : a.LooksBack g)
    (h : a.check g args = (full, none)) : a.check g full = (full, none) := by
  obtain ⟨-, -, settled⟩ := checkAmong_settles looksBack (List.nil_append _).symm h
  apply checkAmong_of_settled
  intro s mem
  obtain ⟨value, found, -⟩ := (settled s mem).accepted
  exact ⟨Dict.contains_iff.2 ⟨value, found⟩, settled s mem⟩

/-- A move that was carried out is carried out in the same way with the arguments that
were filled in. -/
theorem process_again {a : Action G} {g g' : G} {dice dice' : Dice} {player : Player}
    {args : Args} {outcome : Outcome} (looksBack : a.LooksBack g)
    (h : a.process g dice player args = .ok (.ok (outcome, g', dice'))) :
    a.process g dice player outcome.args = .ok (.ok (outcome, g', dice')) := by
  obtain ⟨available, checked⟩ := check_of_process h
  have again := check_filled looksBack checked
  unfold process at h ⊢
  rw [if_pos available] at h ⊢
  rw [checked] at h
  rwa [again]

end Action

end Tabletop
