import Tabletop.Proofs.Session.Moments
import Tabletop.Script.Host
import Tabletop.Session.Restore

/-! # Requests that are refused

A move is refused or turned away before anything is done with it. Once it was carried out
it may still run into an error, but never into one of those with which moves are turned
away: the game has started then, and nothing that follows asks for a player who may move.

Main statement: `refused_leaves_table`.
-/

namespace Tabletop

variable {G : Type}

namespace Rules

variable [Game G] {rules : Rules G} {t : Table G}

/-- A submitted move that is turned away has left the table as it was. -/
theorem eq_of_turnsAway {move : Move} {e : PlayError} (turned : e.TurnsAway)
    (fails : ((rules.submit move).on t).1 = .error e) : ((rules.submit move).on t).2 = t := by
  obtain ⟨-, same⟩ | ⟨s, -, ⟨-, same⟩ | ⟨performed, -, follows⟩⟩ :=
    submit_eq_error (Prod.ext fails rfl)
  · exact same
  · exact same
  · exact absurd turned follows.not_turnsAway

/-- A submitted move that is refused has left the table as it was. -/
theorem eq_of_refusal {move : Move} {refusal : Refusal}
    (refused : ((rules.submit move).on t).1 = .ok (some refusal)) :
    ((rules.submit move).on t).2 = t := by
  obtain ⟨s, -, ⟨-, -, -, same⟩ | ⟨-, -, -, accepted⟩⟩ :=
    submit_eq_ok.1 (Drive.on_eq_of_fst refused)
  · exact same
  · cases accepted

omit [Game G] in
/-- A snapshot that is not taken up has left the table as it was. -/
theorem eq_of_restore_fails {saved : Snapshot} {e : PlayError}
    (fails : ((rules.restore saved).on t).1 = .error e) : ((rules.restore saved).on t).2 = t := by
  have ends : (rules.restore saved).Ends t (fun _ _ => True) fun _ t' => t' = t :=
    .session (.bind (.playing (fun _ _ => .change trivial) fun _ _ => rfl))
  exact ends.fair_of_on fails

/-- A request that is refused leaves everything as it was, the game and all of the session:
a move that is answered by a refusal, a move that is turned away, and a snapshot that is
not taken up. -/
theorem refused_leaves_table (rules : Rules G) (t : Table G) :
    (∀ move refusal, ((rules.submit move).on t).1 = .ok (some refusal) →
        ((rules.submit move).on t).2 = t) ∧
      (∀ move e, ((rules.submit move).on t).1 = .error e → e.TurnsAway →
        ((rules.submit move).on t).2 = t) ∧
      ∀ saved e, ((rules.restore saved).on t).1 = .error e →
        ((rules.restore saved).on t).2 = t := by
  refine ⟨?_, ?_, ?_⟩
  · intro move refusal refused
    exact eq_of_refusal refused
  · intro move e fails turned
    exact eq_of_turnsAway turned fails
  · intro saved e fails
    exact eq_of_restore_fails fails

/-- The first player pays a toll with one of two goods, at the only gate. -/
def toll : Rules Script.Host where
  flows := .ofMain (.act ⟨some fun _ _ => .ok [⟨0⟩], none, none, [⟨"pay", [], .empty, false⟩]⟩)
  repertoire := Dict.empty.insert "pay" fun _ _ => .ok
    { name := "pay"
      selections :=
        [{ name := "gate", kind := .choices fun _ _ => [⟨.text "north", "north"⟩] },
         { name := "good",
           kind := .choices fun _ _ => [⟨.text "fish", "fish"⟩, ⟨.text "salt", "salt"⟩] }] }
  config := { maxSteps := 8 }

/-- The toll is to be paid, and a message is still to be shown. -/
def toll.due : Table Script.Host where
  session :=
    { Session.new toll.config with
      status := .playing
      stack := [⟨.main, .empty, .ofList [⟨none, .action .awaiting, none⟩]⟩]
      messages := ["halt"] }
  game := .fresh 2

/-- With the gate filled in, sand is no good to pay with. The second player may not pay at
all, and a game that is played in no flow is not taken up. -/
theorem refused_leaves_table_toll :
    let sand : Move := ⟨⟨0⟩, "pay", Dict.empty.insert "good" (.text "sand")⟩
    let other : Move := ⟨⟨1⟩, "pay", Dict.empty.insert "good" (.text "fish")⟩
    let saved : Snapshot := { toll.due.session.snapshot with stack := [] }
    ((toll.submit sand).on toll.due).1 = .ok (some (.notListed (.text "sand") "good")) ∧
      ((toll.submit sand).on toll.due).2 = toll.due ∧
      ((toll.submit other).on toll.due).1 = .error (.ineligible ⟨1⟩) ∧
      ((toll.submit other).on toll.due).2 = toll.due ∧
      ((toll.restore saved).on toll.due).1 = .error (.invalidTrail FlowId.mainName .noFlow) ∧
      ((toll.restore saved).on toll.due).2 = toll.due := by
  intro sand other saved
  obtain ⟨refusals, errors, restores⟩ := refused_leaves_table toll toll.due
  have refused : ((toll.submit sand).on toll.due).1 =
      .ok (some (.notListed (.text "sand") "good")) := by decide +kernel
  have turned : ((toll.submit other).on toll.due).1 = .error (.ineligible ⟨1⟩) := by
    decide +kernel
  have unknown : ((toll.restore saved).on toll.due).1 =
      .error (.invalidTrail FlowId.mainName .noFlow) := by decide +kernel
  exact ⟨refused, refusals _ _ refused, turned, errors _ _ turned (.ineligible _), unknown,
    restores _ _ unknown⟩

end Rules

end Tabletop
