import Tabletop.Action.OpenMove
import Tabletop.Proofs.Action.Check
import Tabletop.Script.Host

/-! # What the search finds

The search for open moves ends with a single move, if it finds any. On the way it only adds
arguments, and it would add them again: from the arguments of the move it finds the same
move. A complete move has a value for every selection, and these values pass the check as
they are.

Main statements: `finds_of_searchAmong` says what one selection comes to, `reaches_of_searchAmong`
what the whole search does; with it, `openMoves_stable`.
-/

namespace Tabletop

variable {G : Type}

namespace Action

/-- The arguments are accepted as they are: the move is not refused, and unless a callback
of the author runs into a fault, it is carried out with them. -/
def AcceptsAsIs (a : Action G) (g : G) (args : Args) : Prop :=
  ∀ (dice : Dice) (player : Player),
    (∃ outcome g' dice', a.process g dice player args = .ok (.ok (outcome, g', dice')) ∧
        outcome.args = args) ∨
      ∃ fault, runCallbacks player args a.callbacks { game := g, dice } = .error fault ∧
        a.process g dice player args = .error fault

/-- What the search makes of a selection: it goes on with a value for it, or it asks for
one, be it any value or one of those that lead on. -/
inductive Finds (a : Action G) (g : G) (s : Selection G) (rest : List (Selection G))
    (args : Args) : List OpenMove → Prop
  | goesOn {next moves} (sub : args ⊆ next) (has : next.contains s.name)
      (leads : searchAmong a g rest next = some moves) : Finds a g s rest args moves
  | asks (unbounded : (s.offer g args).isBounded = false) :
      Finds a g s rest args [⟨a.name, args, [s.offer g args]⟩]
  | narrows {viable : List (Argument × List OpenMove)} (some_viable : viable ≠ [])
      (leads : ∀ e ∈ viable, e.1 ∈ (s.offer g args).options ∧
        searchAmong a g rest (args.insert s.name e.1) = some e.2) :
      Finds a g s rest args [⟨a.name, args, [(s.offer g args).restrict (viable.map (·.1))]⟩]

/-- The search from some arguments through some of the selections ends with a move. -/
structure Reaches (a : Action G) (g : G) (selections : List (Selection G)) (args : Args)
    (m : OpenMove) : Prop where
  name_eq : m.name = a.name
  sub : args ⊆ m.args
  /-- At most one selection is asked for. -/
  single : m.offers.length ≤ 1
  /-- From the arguments of the move the search ends with the same move. -/
  again : searchAmong a g selections m.args = some [m]
  answered : m.isComplete → ∀ s ∈ selections, m.args.contains s.name
  accepted : m.isComplete → (a.check g m.args).2 = none

section Search

variable {a : Action G} {g : G} {done rest : List (Selection G)} {s : Selection G}
  {args next : Args} {moves : List OpenMove} {m : OpenMove} {offer : Offer}
  {viable : List (Argument × List OpenMove)}

/-- The viable values of an offer lead on to the moves of the only one, or to the offer
itself. -/
theorem narrow_eq_some (found : a.narrow args offer viable = some moves) :
    (∃ e, viable = [e] ∧ moves = e.2) ∨
      viable ≠ [] ∧ moves = [⟨a.name, args, [offer.restrict (viable.map (·.1))]⟩] := by
  unfold narrow at found
  split at found
  · cases found
  · rename_i value moves'
    split at found
    · cases found
      exact .inr ⟨by simp, rfl⟩
    · cases found
      exact .inl ⟨_, rfl, rfl⟩
  · rename_i some_value _
    cases found
    exact .inr ⟨some_value, rfl⟩

/-- What is viable is an option that the search goes on from. -/
theorem mem_viable {values : List Argument} {e : Argument × List OpenMove}
    (mem : e ∈ values.filterMap fun value =>
      if (s.objection? g (args.insert s.name value)).isSome then none
      else (searchAmong a g rest (args.insert s.name value)).map fun moves => (value, moves)) :
    e.1 ∈ values ∧ searchAmong a g rest (args.insert s.name e.1) = some e.2 := by
  obtain ⟨value, listed, leads⟩ := List.mem_filterMap.1 mem
  split at leads
  · cases leads
  · obtain ⟨moves, found, rfl⟩ := Option.map_eq_some_iff.1 leads
    exact ⟨listed, found⟩

/-- What the search makes of a selection is one of the three. -/
theorem finds_of_searchAmong (found : searchAmong a g (s :: rest) args = some moves) :
    a.Finds g s rest args moves := by
  unfold searchAmong at found
  split at found
  · rename_i has
    exact .goesOn (Dict.Subset.refl _) has found
  rename_i missing
  have fresh := Dict.contains_eq_false.1 (by simpa using missing)
  have put : ∀ {value moves}, searchAmong a g rest (args.insert s.name value) = some moves →
      a.Finds g s rest args moves := by
    intro value moves found
    exact .goesOn (Dict.subset_insert fresh value) (by simp [Dict.contains_insert]) found
  dsimp only at found
  split at found
  · exact put found
  split at found
  · cases found
  split at found
  · rename_i unbounded
    cases found
    exact .asks (by simpa using unbounded)
  rcases narrow_eq_some found with ⟨e, only, rfl⟩ | ⟨some_viable, rfl⟩
  · exact put (mem_viable (only ▸ List.mem_singleton_self e)).2
  · exact .narrows some_viable fun e mem => mem_viable mem

/-- A selection that has a value does not change what the search ends with. -/
theorem Reaches.cons (reaches : a.Reaches g rest next m) (sub : args ⊆ next)
    (has : next.contains s.name) : a.Reaches g (s :: rest) args m := by
  have has' : m.args.contains s.name := Dict.contains_of_subset reaches.sub has
  constructor
  · exact reaches.name_eq
  · exact Dict.Subset.trans sub reaches.sub
  · exact reaches.single
  · rw [searchAmong, if_pos has']
    exact reaches.again
  · intro complete
    exact List.forall_mem_cons.2 ⟨has', reaches.answered complete⟩
  · exact reaches.accepted

/-- A move that asks for a selection where the search starts is what the search ends
with. -/
theorem reaches_of_asks (found : searchAmong a g rest args = some [⟨a.name, args, [offer]⟩]) :
    a.Reaches g rest args ⟨a.name, args, [offer]⟩ where
  name_eq := rfl
  sub := Dict.Subset.refl _
  single := Nat.le_refl _
  again := found
  answered := nofun
  accepted := nofun

/-- The search ends with a single move. -/
theorem reaches_of_searchAmong (found : searchAmong a g rest args = some moves) :
    ∃ m, moves = [m] ∧ a.Reaches g rest args m := by
  induction rest generalizing args moves with
  | nil =>
      have found' := found
      unfold searchAmong at found
      split at found
      · rename_i accepted
        cases found
        exact ⟨_, rfl, rfl, Dict.Subset.refl _, Nat.zero_le _, found', by simp, fun _ => accepted⟩
      · cases found
  | cons s rest ih =>
      have found' := found
      cases finds_of_searchAmong found with
      | goesOn sub has leads =>
          obtain ⟨m, rfl, reaches⟩ := ih leads
          exact ⟨m, rfl, reaches.cons sub has⟩
      | asks unbounded => exact ⟨_, rfl, reaches_of_asks found'⟩
      | narrows some_viable leads => exact ⟨_, rfl, reaches_of_asks found'⟩

/-- Selections that have a value are passed over. -/
theorem searchAmong_append (answered : ∀ s ∈ done, args.contains s.name) :
    searchAmong a g (done ++ rest) args = searchAmong a g rest args := by
  induction done with
  | nil => rfl
  | cons s done ih =>
      obtain ⟨has, others⟩ := List.forall_mem_cons.1 answered
      rw [List.cons_append, searchAmong, if_pos has]
      exact ih others

/-- Arguments that pass the check unchanged are accepted as they are. -/
theorem acceptsAsIs_of_check (available : a.isAvailable g) (checked : a.check g args = (args, none)) :
    a.AcceptsAsIs g args := by
  intro dice player
  have processed : a.process g dice player args = .ok <$> a.execute g dice player args := by
    rw [process, if_pos available, checked]
  rw [processed]
  cases executes : a.execute g dice player args with
  | error fault =>
      refine .inr ⟨fault, ?_, rfl⟩
      unfold execute at executes
      cases ran : runCallbacks player args a.callbacks { game := g, dice } with
      | error fault' =>
          rw [ran] at executes
          cases executes
          rfl
      | ok effect =>
          rw [ran] at executes
          cases executes
  | ok performed =>
      obtain ⟨outcome, g', dice'⟩ := performed
      exact .inl ⟨outcome, g', dice', rfl, args_of_execute executes⟩

/-- A complete move that the search through all selections ends with passes the check as it
is. -/
theorem Reaches.checked (reaches : a.Reaches g a.selections args m) (complete : m.isComplete) :
    a.check g m.args = (m.args, none) :=
  Prod.ext (checkAmong_fst_of_contains (reaches.answered complete)) (reaches.accepted complete)

theorem openMoves_eq_some :
    a.openMoves g args = some moves ↔
      a.isAvailable g ∧ searchAmong a g a.selections args = some moves := by
  unfold openMoves
  split <;> simp_all

end Search

/-- The open moves of an action from some arguments are a single one, which holds these
arguments and asks for one selection at most. From its own arguments it is found again, and
if it is complete it is accepted as it is. -/
theorem openMoves_stable {a : Action G} {g : G} {args : Args} {moves : List OpenMove}
    (found : a.openMoves g args = some moves) :
    ∃ m, moves = [m] ∧ m.offers.length ≤ 1 ∧ args ⊆ m.args ∧
      a.openMoves g m.args = some [m] ∧ (m.isComplete → a.AcceptsAsIs g m.args) := by
  obtain ⟨available, found⟩ := openMoves_eq_some.1 found
  obtain ⟨m, rfl, reaches⟩ := reaches_of_searchAmong found
  refine ⟨m, rfl, reaches.single, reaches.sub, ?_, ?_⟩
  · exact openMoves_eq_some.2 ⟨available, reaches.again⟩
  · intro complete
    exact acceptsAsIs_of_check available (reaches.checked complete)

/-- A barter on the only stall: corn fetches nothing, and wood one of two goods. -/
def barter : Action Script.Host where
  name := "barter"
  selections :=
    [{ name := "give", kind := .choices fun _ _ => [good "corn", good "wood"] },
     { name := "take",
       kind := .choices fun _ args =>
         if args.get? "give" = some (.text "wood") then [good "fish", good "salt"] else [] },
     { name := "stall", kind := .board (fun _ _ => [.number 7]) none none none }]
where
  good (name : String) : Choice := ⟨.text name, name⟩

/-- What is given for the fish, and where. -/
def barter.fish : Args :=
  ((Dict.empty.insert "give" (.text "wood")).insert "stall" (.number 7)).insert "take" (.text "fish")

/-- For the fish nothing but wood is taken, so the search ends with the whole barter. -/
theorem openMoves_stable_barter :
    let wish : Args := Dict.empty.insert "take" (.text "fish")
    let m : OpenMove := ⟨"barter", barter.fish, []⟩
    barter.openMoves (.fresh 2) wish = some [m] ∧ wish ⊆ m.args ∧
      barter.openMoves (.fresh 2) m.args = some [m] ∧ barter.AcceptsAsIs (.fresh 2) m.args := by
  intro wish m
  have found : barter.openMoves (.fresh 2) wish = some [m] := by decide +kernel
  obtain ⟨m', moves_eq, -, sub, again, accepted⟩ := openMoves_stable found
  obtain rfl : m = m' := (List.cons.inj moves_eq).1
  exact ⟨found, sub, again, accepted rfl⟩

end Action

end Tabletop
