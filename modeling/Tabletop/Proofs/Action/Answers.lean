import Tabletop.Proofs.Action.Search

/-! # Answering move by move

Where every selection is made from a list, the search offers exactly the values that lead
on. A player who takes any of them, again and again, ends with a complete move that is
accepted, after at most one answer for each selection.

Main statement: `list_choices_close`.
-/

namespace Tabletop

variable {G : Type}

namespace Action

/-- Whatever a player answers the move with, it is complete and accepted after so many answers
at the latest. -/
inductive Closes (a : Action G) (g : G) : Nat → OpenMove → Prop where
  | complete {n : Nat} {m : OpenMove} (is_complete : m.isComplete)
      (accepted : a.AcceptsAsIs g m.args) : Closes a g n m
  /-- There is an answer to give, and each of them leads on. -/
  | asks {n : Nat} {m : OpenMove} {o : Offer} (asked : m.offers = [o])
      (answerable : o.options ≠ [])
      (leads : ∀ value ∈ o.options, ∃ m', a.openMoves g (m.args.insert o.name value) = some [m'])
      (closes : ∀ value ∈ o.options, ∀ m',
        a.openMoves g (m.args.insert o.name value) = some [m'] → Closes a g n m') :
      Closes a g (n + 1) m

section Answers

variable {a : Action G} {g : G} {done rest : List (Selection G)} {s : Selection G} {args : Args}
  {m : OpenMove}

theorem Closes.mono {n k : Nat} (h : a.Closes g n m) (le : n ≤ k) : a.Closes g k m := by
  induction h generalizing k with
  | complete is_complete accepted => exact .complete is_complete accepted
  | @asks n m o asked answerable leads closes ih =>
      obtain ⟨k, rfl⟩ : ∃ k', k = k' + 1 := ⟨k - 1, by omega⟩
      apply Closes.asks asked answerable leads
      intro value mem m' found
      exact ih value mem m' found (by omega)

/-- What a move that closes offers leads on. -/
theorem Closes.leads_on {n : Nat} {o : Offer} {value : Argument} (h : a.Closes g n m)
    (mem : o ∈ m.offers) (offered : value ∈ o.options) :
    (a.openMoves g (m.args.insert o.name value)).isSome := by
  cases h with
  | complete is_complete _ => simp [List.isEmpty_iff.1 is_complete] at mem
  | asks asked _ leads _ =>
      rw [asked] at mem
      obtain rfl := List.mem_singleton.1 mem
      obtain ⟨m', found⟩ := leads value offered
      simp [found]

/-- With the selections before answered, the search through the rest finds what the whole
one finds. -/
theorem openMoves_eq_searchAmong (available : a.isAvailable g) (split : a.selections = done ++ rest)
    (answered : ∀ s ∈ done, args.contains s.name) :
    a.openMoves g args = searchAmong a g rest args := by
  rw [openMoves, if_pos available, split, searchAmong_append answered]

/-- With a value for the next selection as well, one more is answered. -/
theorem answered_append {next : Args} (answered : ∀ s ∈ done, args.contains s.name)
    (kept : ∀ {name}, args.contains name → next.contains name) (has : next.contains s.name) :
    ∀ t ∈ done ++ [s], next.contains t.name := by
  intro t mem
  rcases List.mem_append.1 mem with before | here
  · exact kept (answered t before)
  · rwa [List.mem_singleton.1 here]

/-- A move that asks for values from which the search goes on closes, if the moves that the
search ends with do. -/
theorem closes_of_asks {n : Nat} {offer : Offer} {viable : List (Argument × List OpenMove)}
    (is_list : offer.IsList) (some_viable : viable ≠ [])
    (leads : ∀ e ∈ viable, e.1 ∈ offer.options ∧ ∃ m',
      a.openMoves g (args.insert offer.name e.1) = some [m'] ∧ a.Closes g n m') :
    a.Closes g (n + 1) ⟨a.name, args, [offer.restrict (viable.map (·.1))]⟩ := by
  have goes_on : ∀ value ∈ (offer.restrict (viable.map (·.1))).options, ∃ m',
      a.openMoves g (args.insert offer.name value) = some [m'] ∧ a.Closes g n m' := by
    intro value mem
    obtain ⟨-, chosen⟩ := (Offer.mem_options_restrict is_list).1 mem
    obtain ⟨e, mem_e, rfl⟩ := List.mem_map.1 chosen
    exact (leads e mem_e).2
  apply Closes.asks rfl
  · obtain ⟨e, mem_e⟩ := List.exists_mem_of_ne_nil viable some_viable
    have offered : e.1 ∈ (offer.restrict (viable.map (·.1))).options :=
      (Offer.mem_options_restrict is_list).2 ⟨(leads e mem_e).1, List.mem_map_of_mem mem_e⟩
    exact List.ne_nil_of_mem offered
  · intro value mem
    obtain ⟨m', found, -⟩ := goes_on value mem
    exact ⟨m', found⟩
  · intro value mem m' found
    obtain ⟨m'', found', closes⟩ := goes_on value mem
    obtain rfl : m' = m'' := by
      simpa using (Option.some.inj (found.symm.trans found'))
    exact closes

/-- What the search through lists ends with closes after one answer for each of them at the
latest. -/
theorem closes_of_searchAmong (available : a.isAvailable g) (split : a.selections = done ++ rest)
    (answered : ∀ s ∈ done, args.contains s.name) (lists : ∀ s ∈ rest, s.IsList)
    (found : searchAmong a g rest args = some [m]) : a.Closes g rest.length m := by
  induction rest generalizing done args m with
  | nil =>
      have is_complete : m.isComplete := by
        unfold searchAmong at found
        split at found
        · cases found
          rfl
        · cases found
      have whole : searchAmong a g a.selections args = some [m] := by
        rw [split, searchAmong_append answered, found]
      obtain ⟨m', moves_eq, reaches⟩ := reaches_of_searchAmong whole
      obtain rfl : m = m' := (List.cons.inj moves_eq).1
      exact .complete is_complete (acceptsAsIs_of_check available (reaches.checked is_complete))
  | cons s rest ih =>
      obtain ⟨is_list, lists⟩ := List.forall_mem_cons.1 lists
      have split' : a.selections = (done ++ [s]) ++ rest := by simpa using split
      cases finds_of_searchAmong found with
      | goesOn sub has leads =>
          have answered' := answered_append answered (Dict.contains_of_subset sub) has
          exact (ih split' answered' lists leads).mono (Nat.le_succ _)
      | asks unbounded =>
          rw [(is_list.offer g args).isBounded] at unbounded
          cases unbounded
      | narrows some_viable leads =>
          apply closes_of_asks (is_list.offer g args) some_viable
          intro e mem
          obtain ⟨listed, leads⟩ := leads e mem
          obtain ⟨m', moves_eq, -⟩ := reaches_of_searchAmong leads
          rw [moves_eq] at leads
          have answered' : ∀ t ∈ done ++ [s], (args.insert s.name e.1).contains t.name := by
            apply answered_append answered
            · intro name has
              simp [Dict.contains_insert, has]
            · simp [Dict.contains_insert]
          refine ⟨listed, m', ?_, ih split' answered' lists leads⟩
          exact (openMoves_eq_searchAmong available split' answered').trans leads

end Answers

/-- Where every selection is made from a list, each value that an open move offers leads on.
A player who takes any of them each time ends with a complete move that is accepted, after at
most as many answers as there are selections. -/
theorem list_choices_close {a : Action G} {g : G} {args : Args} {m : OpenMove}
    (lists : ∀ s ∈ a.selections, s.IsList) (found : a.openMoves g args = some [m]) :
    (∀ o ∈ m.offers, ∀ value ∈ o.options,
        (a.openMoves g (m.args.insert o.name value)).isSome) ∧
      a.Closes g a.selections.length m := by
  obtain ⟨available, found⟩ := openMoves_eq_some.1 found
  have closes : a.Closes g a.selections.length m :=
    closes_of_searchAmong available (List.nil_append _).symm (by simp) lists found
  exact ⟨fun o mem value offered => closes.leads_on mem offered, closes⟩

/-- In a barter, wood is given by itself and the good to take is asked for. Either one leads
to a whole barter. -/
theorem list_choices_close_barter :
    let m : OpenMove := ⟨"barter", Dict.empty.insert "give" (.text "wood"),
      [⟨"take", none, .choices [barter.good "fish", barter.good "salt"], .onlyOne, none⟩]⟩
    (∀ s ∈ barter.selections, s.IsList) ∧ barter.openMoves (.fresh 2) Dict.empty = some [m] ∧
      m.offers.map Offer.options = [[.text "fish", .text "salt"]] ∧ barter.Closes (.fresh 2) 3 m := by
  intro m
  have lists : ∀ s ∈ barter.selections, s.IsList := by
    simp [barter, Selection.IsList]
  have found : barter.openMoves (.fresh 2) Dict.empty = some [m] := by decide +kernel
  exact ⟨lists, found, by decide +kernel, (list_choices_close lists found).2⟩

end Action

end Tabletop
