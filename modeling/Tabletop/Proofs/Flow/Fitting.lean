import Tabletop.Flow.Fit
import Tabletop.Proofs.Flow.Faults

/-! # Trails that fit

A trail fits a flow when the check finds no mismatch. The lemmas here say so mark
by mark, without the depths and messages of the check: a mark of a node with
blocks is followed by a trail that fits the node it stands at, and a mark with
nodes side by side holds a fitting trail for each player.

Main statements: `fits_cons` and `fits_parallel`.
-/

namespace Tabletop

variable {G : Type}

namespace Fit

theorem unless_eq_ok {holds : Bool} {mismatch : Mismatch} :
    Fit.unless holds mismatch = .ok () ↔ holds = true := by
  cases holds <;> simp [Fit.unless]

theorem bind_eq_ok {first : Fit} {next : Unit → Fit} :
    first >>= next = .ok () ↔ first = .ok () ∧ next () = .ok () := by
  cases first <;> simp [bind, Except.bind]

end Fit

namespace Flow

/-- The check finds no mismatch. -/
def Fits (flow : Flow G) (trail : Trail) : Prop := flow.fit trail = .ok ()

/-- A mark belongs to the node, and its position is one the node can be in. -/
structure FitsMark (flow : Flow G) (mark : Mark Trail) : Prop where
  name_eq : mark.name = flow.name
  hasKind : hasKind flow.kind mark.position
  position : flow.fitPosition mark.position = .ok ()

/-- The next step at a mark is in the block that is live, or right behind it. -/
def FitsStep (flow : Flow G) (mark : Mark Trail) : Prop :=
  ∀ block, flow.liveBlock mark = some block →
    mark.step ≤ block.length ∧ (flow.isSequence || mark.stepIndex.isSome)

/-- The trail below a mark fits the node at which the mark stands. -/
def FitsBelow (flow : Flow G) (mark : Mark Trail) (below : Trail) : Prop :=
  match flow.next? mark with
  | some (.node child) => child.Fits below
  | _ => below = .nil

theorem fitMark_eq_ok {flow : Flow G} {mark : Mark Trail} (depth : Nat) :
    flow.fitMark mark depth = .ok () ↔ FitsMark flow mark := by
  simp only [fitMark, Fit.bind_eq_ok, Fit.unless_eq_ok, beq_iff_eq]
  constructor
  · rintro ⟨name_eq, hasKind, position⟩
    exact ⟨name_eq, hasKind, position⟩
  · rintro ⟨name_eq, hasKind, position⟩
    exact ⟨name_eq, hasKind, position⟩

theorem fitStep_eq_ok {flow : Flow G} {mark : Mark Trail} :
    flow.fitStep mark = .ok () ↔ FitsStep flow mark := by
  unfold fitStep FitsStep
  cases flow.liveBlock mark with
  | none => simp
  | some block => simp [Fit.bind_eq_ok, Fit.unless_eq_ok]

/-- The check of a node with blocks, part by part. -/
theorem fitFrom_cons {flow : Flow G} {mark : Mark Trail} {below : Trail} {depth : Nat}
    (hp : flow.isParallel = false) :
    fitFrom depth (.cons mark below) flow = .ok () ↔
      FitsMark flow mark ∧ FitsStep flow mark ∧
        match flow.next? mark with
        | some (.node child) => fitFrom (depth + 1) below child = .ok ()
        | _ => below = .nil := by
  rw [← fitMark_eq_ok depth, ← fitStep_eq_ok]
  obtain ⟨name, kind⟩ := flow
  cases kind with
  | parallel players body => simp [isParallel] at hp
  | _ =>
      simp only [fitFrom, Fit.bind_eq_ok]
      refine and_congr_right fun _ => and_congr_right fun _ => ?_
      rcases next? _ mark with _ | callback | child
      · cases below <;> simp [Fit.unless, Trail.isNil]
      · cases below <;> simp [Fit.unless, Trail.isNil]
      · rfl

/-- The check of nodes side by side, part by part. -/
theorem fitFrom_parallel {flow body : Flow G} {mark : Mark Trail} {below : Trail} {depth : Nat}
    {players : Option (G → Args → Checked (List Player))} (h : flow.kind = .parallel players body) :
    fitFrom depth (.cons mark below) flow = .ok () ↔
      FitsMark flow mark ∧ fitLanesAt mark body = .ok () ∧ below = .nil := by
  rw [← fitMark_eq_ok depth]
  simp only [fitFrom, h, Fit.bind_eq_ok]
  refine and_congr_right fun _ => and_congr_right fun _ => ?_
  cases below <;> simp [Fit.unless, Trail.isNil]

/-- What fits does not depend on the depth that is told in messages. -/
theorem fitFrom_eq_ok {trail : Trail} {flow : Flow G} {depth : Nat} :
    fitFrom depth trail flow = .ok () ↔ flow.Fits trail := by
  induction trail using Trail.induction generalizing flow depth with
  | nil => simp [Fits, fit, fitFrom]
  | cons mark below ih _ =>
      unfold Fits fit
      cases hp : flow.isParallel with
      | true =>
          obtain ⟨players, body, h⟩ := eq_parallel_of_isParallel hp
          rw [fitFrom_parallel h, fitFrom_parallel h]
      | false => simp only [fitFrom_cons hp, ih]

section Fits

variable {flow body : Flow G} {mark : Mark Trail} {below : Trail}

theorem not_fits_nil : ¬flow.Fits .nil := by simp [Fits, fit, fitFrom]

/-- A trail fits a node with blocks if its first mark does, and the rest fits
what the mark stands at. -/
theorem fits_cons (hp : flow.isParallel = false) :
    flow.Fits (.cons mark below) ↔
      FitsMark flow mark ∧ FitsStep flow mark ∧ FitsBelow flow mark below := by
  rw [Fits, fit, fitFrom_cons hp]
  simp only [fitFrom_eq_ok]
  rfl

theorem fitLanes_eq_ok {lanes : List Trail} :
    fitLanes lanes body = .ok () ↔ ∀ lane ∈ lanes, body.Fits lane := by
  induction lanes with
  | nil => simp [fitLanes]
  | cons lane lanes ih => simp [fitLanes, Fit.bind_eq_ok, fitFrom_eq_ok, ih]

/-- A trail fits nodes side by side if it is one mark that holds a flag and a
fitting trail for each player. -/
theorem fits_parallel {players : Option (G → Args → Checked (List Player))}
    (h : flow.kind = .parallel players body) :
    flow.Fits (.cons mark below) ↔
      mark.name = flow.name ∧ below = .nil ∧ ∃ players lanes completed,
        mark.position = .parallel players lanes completed ∧ lanes.length = players.length ∧
          completed.length = players.length ∧ ∀ lane ∈ lanes, body.Fits lane := by
  rw [Fits, fit, fitFrom_parallel h]
  obtain ⟨name, position, stepIndex⟩ := mark
  constructor
  · rintro ⟨⟨name_eq, hasKind, position_fits⟩, lanes_fit, rfl⟩
    cases position with
    | parallel players lanes completed =>
        simp only [fitPosition, h, Fit.unless_eq_ok, Bool.and_eq_true, beq_iff_eq] at position_fits
        exact ⟨name_eq, rfl, players, lanes, completed, rfl, position_fits.1, position_fits.2,
          fitLanes_eq_ok.1 lanes_fit⟩
    | _ => simp [Flow.hasKind, h] at hasKind
  · rintro ⟨name_eq, rfl, players, lanes, completed, rfl, lanes_length, completed_length, lanes_fit⟩
    refine ⟨⟨name_eq, ?_, ?_⟩, fitLanes_eq_ok.2 lanes_fit, rfl⟩
    · rw [h]
      rfl
    · simp [fitPosition, h, Fit.unless, lanes_length, completed_length]

end Fits

end Flow

end Tabletop
