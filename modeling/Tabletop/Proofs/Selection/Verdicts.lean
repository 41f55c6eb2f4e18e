import Tabletop.Proofs.Selection.Options

/-! # Verdicts without a value

Two verdicts on an offer are given before any value is seen: that no value can be legal, and
that there is but one, which is then filled in. They go by the kind of the offer and its
bounds. Both agree with what the offer accepts.

Main statement: `verdicts_agree`.
-/

namespace Tabletop

namespace Offer

variable {o : Offer} {value : Argument} {choices : List Argument} {least most : Nat}

/-! ### Impossible offers -/

/-- Several choices that are accepted are different ones, so the board has enough of them. -/
theorem isPossible_of_several (h : o.kind = .board choices (some least) (some most))
    (accepts : o.Accepts value) : o.isPossible := by
  obtain ⟨items, rfl⟩ := exists_list_of_accepts h accepts
  obtain ⟨low, high, subset, nodup⟩ := (accepts_several h).1 accepts
  have fits : items.length ≤ choices.length := (List.subperm_of_subset nodup subset).length_le
  exact (isPossible_several h).2 ⟨Nat.le_trans low high, Nat.le_trans low fits⟩

/-- An offer that accepts some value is possible. -/
theorem HasBothBounds.isPossible_of_accepts (both : o.HasBothBounds) (accepts : o.Accepts value) :
    o.isPossible := by
  cases several : o.isMulti with
  | true =>
      obtain ⟨choices, least, most, hk⟩ := both.exists_bounds several
      exact isPossible_of_several hk accepts
  | false => exact Offer.isPossible_of_accepts several accepts

theorem options_of_impossible (impossible : o.isPossible = false) : o.options = [] := by
  simp [options, impossible]

/-! ### Values filled in -/

/-- A value that is filled in is accepted. -/
theorem accepts_of_forced? (forces : o.forced? = some value) : o.Accepts value := by
  unfold forced? at forces
  split at forces
  case h_1 expected hk =>
      cases forces
      exact (accepts_button hk).2 rfl
  case h_2 item hk =>
      cases forces
      exact (accepts_board hk).2 List.mem_cons_self
  case h_3 choice hk =>
      cases forces
      exact (accepts_choices hk).2 ⟨choice, List.mem_cons_self, rfl⟩
  case h_4 first rest _ hk =>
      split at forces
      · cases forces
        exact (accepts_choices hk).2 ⟨first, List.mem_cons_self, rfl⟩
      · cases forces
  case h_5 least most hk =>
      split at forces
      · rename_i same
        subst same
        cases forces
        exact (accepts_number hk).2 ⟨least, rfl, Int64.le_refl least, by simp⟩
      · cases forces
  case h_6 => cases forces

end Offer

namespace Selection

/-- The verdicts on what a selection offers agree with what it accepts. Where nothing is
possible, every value is refused and none is listed. A value that is filled in is accepted;
where the only legal value is filled in, no other is accepted. -/
theorem verdicts_agree {G : Type} (s : Selection G) (g : G) (args : Args) :
    let o := s.offer g args
    (o.isPossible = false → (∀ value, ¬o.Accepts value) ∧ o.options = []) ∧
      ∀ value, o.skipped? = some value →
        o.Accepts value ∧ (o.skip = .onlyOne → ∀ other, o.Accepts other → other = value) := by
  intro o
  constructor
  · intro impossible
    refine ⟨fun value accepts => ?_, Offer.options_of_impossible impossible⟩
    have possible := (s.hasBothBounds g args).isPossible_of_accepts accepts
    rw [impossible] at possible
    cases possible
  · intro value skipped
    refine ⟨Offer.accepts_of_forced? (Offer.forced?_of_skipped? skipped), ?_⟩
    intro only_one other accepts
    refine Offer.eq_of_skipped? (fun choices always => ?_) skipped accepts
    rw [only_one] at always
    cases always

/-- Three trumps from a hand of two cards, one of which is there twice. -/
def threeTrumps : Selection Script.Host where
  name := "trumps"
  kind := .board (fun _ _ => [.text "ace", .text "ace"]) (some fun _ _ => 3) none none

/-- The number of a round, of which one is left. -/
def lastRound : Selection Script.Host where
  name := "round"
  kind := .number (some fun _ _ => 4) (some fun _ _ => 4)

/-- There is no way to play three trumps, and the last round has to be the fourth. -/
theorem verdicts_agree_lastRound :
    let trumps := threeTrumps.offer (.fresh 2) .empty
    let round := lastRound.offer (.fresh 2) .empty
    (trumps.isPossible = false ∧ (∀ value, ¬trumps.Accepts value) ∧ trumps.options = []) ∧
      round.skipped? = some (.number 4) ∧ round.Accepts (.number 4) ∧
        ∀ other, round.Accepts other → other = .number 4 := by
  intro trumps round
  have impossible : trumps.isPossible = false := by decide
  have skipped : round.skipped? = some (.number 4) := by decide
  obtain ⟨accepts, only⟩ := (lastRound.verdicts_agree (.fresh 2) .empty).2 _ skipped
  refine ⟨⟨impossible, ?_⟩, skipped, accepts, only rfl⟩
  exact (threeTrumps.verdicts_agree (.fresh 2) .empty).1 impossible

end Selection

end Tabletop
