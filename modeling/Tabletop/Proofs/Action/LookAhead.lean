import Tabletop.Action.OpenMove
import Tabletop.Proofs.Action.Check
import Tabletop.Proofs.Selection.Legal
import Tabletop.Script.Host

/-! # Looking ahead

The search for open moves answers selections before the player does. It never
loses a move that would be accepted: as long as what a selection offers is fixed
by the answers before it, the search keeps a way to each accepted move open.

## Implementation notes

The lemmas are told from the arguments of an accepted move, with everything
filled in. The search walks towards them, and the arguments it holds stay among
them. The two sets differ in the selections that are still open and in names
nothing reads.
-/

namespace Tabletop

variable {G : Type}

/-- The search can look ahead in the action. Nothing that a selection shows depends on
its own value or on a later one, and its check depends on no later one; besides,
there are names that nothing reads. There are no lists of choices on the board,
and nothing is picked from several choices. -/
structure Action.Foreseeable (a : Action G) (g : G) (unread : String → Prop) : Prop where
  offer_eq : ∀ {before s after}, a.selections = before ++ s :: after → ∀ {x y : Args},
    x.AgreeOff (fun name => name = s.name ∨ Selection.Named after name ∨ unread name) y →
      s.offer g x = s.offer g y
  objection_eq : ∀ {before s after}, a.selections = before ++ s :: after → ∀ {x y : Args},
    x.AgreeOff (fun name => Selection.Named after name ∨ unread name) y →
      s.objection? g x = s.objection? g y
  single : ∀ s ∈ a.selections, ∀ args, (s.offer g args).isMulti = false
  no_pick : ∀ s ∈ a.selections, ∀ args choices, s.skip = .always →
    (s.offer g args).kind = .choices choices → choices.length ≤ 1

namespace Action

/-- What can be looked ahead in looks back. -/
theorem Foreseeable.looksBack {a : Action G} {g : G} {unread : String → Prop}
    (h : a.Foreseeable g unread) : a.LooksBack g where
  offer_eq split _ _ agree := h.offer_eq split (agree.mono fun _ named => .inr (.inl named))
  objection_eq split _ _ agree := h.objection_eq split (agree.mono fun _ => .inl)

/-- An accepted check only adds values, for selections that had none, and all
selections it went through are settled at its end. -/
theorem checkAmong_spec {a : Action G} {g : G} {unread : String → Prop}
    {done rest : List (Selection G)} {args full : Args} (foreseeable : a.Foreseeable g unread)
    (split : a.selections = done ++ rest) (h : checkAmong g rest args = (full, none)) :
    args ⊆ full ∧ args.AgreeOff (Selection.Named rest) full ∧ ∀ s ∈ rest, Settled g full s :=
  checkAmong_settles foreseeable.looksBack split h

/-! ### The search -/

/-- The search leads on to the arguments: it ends with one move, whose arguments
are among them, and which accepts their value where it asks for one. -/
def Leads (full : Args) (found : Option (List OpenMove)) : Prop :=
  ∃ m : OpenMove, found = some [m] ∧ m.args ⊆ full ∧
    ∀ o ∈ m.offers, ∃ value, full.get? o.name = some value ∧ o.Accepts value

section Search

variable {a : Action G} {g : G} {unread : String → Prop} {done rest : List (Selection G)}
  {s : Selection G} {args full : Args} {offer : Offer} {value : Argument}

/-- What is left of the options goes on leading to the arguments, if their value is
one of them. -/
theorem narrow_leads {viable : List (Argument × List OpenMove)} {moves : List OpenMove}
    (single : offer.isMulti = false) (sub : args ⊆ full)
    (found : full.get? offer.name = some value) (accepts : offer.Accepts value)
    (mem : (value, moves) ∈ viable) (leads : Leads full (some moves)) :
    Leads full (a.narrow args offer viable) := by
  have narrowed : ∀ values, value ∈ values →
      Leads full (some [⟨a.name, args, [offer.restrict values]⟩]) := by
    intro values mem
    refine ⟨_, rfl, sub, ?_⟩
    intro o mem_o
    obtain rfl := List.mem_singleton.1 mem_o
    exact ⟨value, found, Offer.accepts_restrict single accepts mem⟩
  unfold narrow
  split
  · cases mem
  · cases List.mem_singleton.1 mem
    split
    · exact narrowed _ List.mem_cons_self
    · exact leads
  · exact narrowed _ (List.mem_map_of_mem mem)

/-- With all selections answered, the search finds the move complete. -/
theorem search_nil_leads (foreseeable : a.Foreseeable g unread) (sub : args ⊆ full)
    (agree : args.AgreeOff unread full) (answered : ∀ s ∈ a.selections, args.contains s.name)
    (settled : ∀ s ∈ a.selections, Settled g full s) : Leads full (searchAmong a g [] args) := by
  have accepted : a.check g args = (args, none) := by
    refine checkAmong_of_settled fun s mem => ⟨answered s mem, ?_⟩
    obtain ⟨before, after, split⟩ := List.append_of_mem mem
    obtain ⟨value, found⟩ := Dict.contains_iff.1 (answered s mem)
    obtain ⟨⟨value', found', accepts⟩, no_objection⟩ := settled s mem
    obtain rfl : value = value' := by simpa [sub _ _ found] using found'
    refine ⟨⟨value, found, ?_⟩, ?_⟩
    · rwa [foreseeable.offer_eq split (agree.mono fun _ out => .inr (.inr out))]
    · rwa [foreseeable.objection_eq split (agree.mono fun _ => .inr)]
  exact ⟨⟨a.name, args, []⟩, by simp [searchAmong, accepted], sub, by simp⟩

/-- Where a selection is open, the search leads on if it does with the value put in. -/
theorem searchAmong_open_leads (foreseeable : a.Foreseeable g unread) (mem : s ∈ a.selections)
    (sub : args ⊆ full) (is_open : args.contains s.name = false)
    (found : full.get? s.name = some value) (accepts : (s.offer g args).Accepts value)
    (no_objection : s.objection? g (args.insert s.name value) = none)
    (leads : Leads full (searchAmong a g rest (args.insert s.name value))) :
    Leads full (searchAmong a g (s :: rest) args) := by
  have single := foreseeable.single s mem args
  simp only [searchAmong, is_open]
  cases skipped : (s.offer g args).skipped? with
  | some forced =>
      obtain rfl := Offer.eq_of_skipped?
        (fun choices => foreseeable.no_pick s mem args choices) skipped accepts
      exact leads
  | none =>
      have possible := Offer.isPossible_of_accepts single accepts
      simp only [possible]
      cases bounded : (s.offer g args).isBounded with
      | false =>
          refine ⟨_, rfl, sub, fun o mem => ?_⟩
          obtain rfl := List.mem_singleton.1 mem
          exact ⟨value, found, accepts⟩
      | true =>
          obtain ⟨m, found_m, leads_m⟩ := leads
          refine narrow_leads single sub found accepts ?_ ⟨m, rfl, leads_m⟩
          refine List.mem_filterMap.2 ⟨value, Offer.mem_options single bounded accepts, ?_⟩
          simp [no_objection, found_m]

/-- The search leads on to arguments in which everything is settled. -/
theorem searchAmong_leads (foreseeable : a.Foreseeable g unread)
    (split : a.selections = done ++ rest) (sub : args ⊆ full)
    (agree : args.AgreeOff (fun name => Selection.Named rest name ∨ unread name) full)
    (answered : ∀ s ∈ done, args.contains s.name)
    (settled : ∀ s ∈ a.selections, Settled g full s) :
    Leads full (searchAmong a g rest args) := by
  induction rest generalizing done args with
  | nil =>
      rw [List.append_nil] at split
      refine search_nil_leads foreseeable sub (agree.mono ?_) (split ▸ answered) settled
      rintro name (named | out)
      · cases named
      · exact out
  | cons s rest ih =>
      have split' : a.selections = (done ++ [s]) ++ rest := by simpa using split
      have mem : s ∈ a.selections := by simp [split]
      obtain ⟨⟨value, found, accepts⟩, no_objection⟩ := settled s mem
      have agree : args.AgreeOff
          (fun name => name = s.name ∨ Selection.Named rest name ∨ unread name) full :=
        agree.mono fun name out => by simpa [Selection.Named, or_assoc] using out
      cases has : args.contains s.name with
      | true =>
          rw [searchAmong, if_pos has]
          refine ih split' sub (agree.of_contains sub has) fun t mem => ?_
          rcases List.mem_append.1 mem with mem | mem
          · exact answered t mem
          · obtain rfl := List.mem_singleton.1 mem
            exact has
      | false =>
          -- With the value of the accepted move, the search goes on to lead there.
          let next := args.insert s.name value
          have next_sub : next ⊆ full := Dict.insert_subset sub found
          have next_has : ∀ name, args.contains name ∨ name = s.name → next.contains name := by
            intro name h
            rw [Dict.contains_insert]
            rcases h with h | rfl <;> simp_all
          have next_agree :
              next.AgreeOff (fun name => Selection.Named rest name ∨ unread name) full := by
            refine Dict.AgreeOff.of_contains ?_ next_sub (next_has _ (.inr rfl))
            intro name kept
            rw [← agree name kept, Dict.get?_insert, if_neg fun same => kept (.inl same)]
          have leads : Leads full (searchAmong a g rest next) := by
            refine ih split' next_sub next_agree fun t mem => next_has _ ?_
            rcases List.mem_append.1 mem with mem | mem
            · exact .inl (answered t mem)
            · exact .inr (congrArg _ (List.mem_singleton.1 mem))
          have accepts : (s.offer g args).Accepts value := by
            rwa [foreseeable.offer_eq split agree]
          have next_objection : s.objection? g next = none := by
            rwa [foreseeable.objection_eq split next_agree]
          exact searchAmong_open_leads foreseeable mem sub has found accepts next_objection leads

end Search

/-- The search for open moves never hides an accepted move. If a move is accepted, and
what it has beyond some partial arguments is answers and names that nothing reads,
then there is an open move for the partial arguments; it fills in nothing else than
the accepted move has, and where it asks for a selection it accepts the answer of the
accepted move. -/
theorem openMoves_leads_to_accepted {a : Action G} {g g' : G} {dice dice' : Dice}
    {player : Player} {unread : String → Prop} {part full : Args} {outcome : Outcome}
    (foreseeable : a.Foreseeable g unread) (sub : part ⊆ full)
    (beyond : ∀ name, full.contains name → ¬part.contains name →
      Selection.Named a.selections name ∨ unread name)
    (accepted : a.process g dice player full = .ok (.ok (outcome, g', dice'))) :
    ∃ m : OpenMove, a.openMoves g part = some [m] ∧ m.args ⊆ outcome.args ∧
      ∀ o ∈ m.offers, ∃ value, outcome.args.get? o.name = some value ∧ o.Accepts value := by
  obtain ⟨available, checked⟩ := check_of_process accepted
  obtain ⟨full_sub, full_agree, settled⟩ := checkAmong_spec foreseeable (List.nil_append _).symm checked
  have part_sub : part ⊆ outcome.args := Dict.Subset.trans sub full_sub
  have agree : part.AgreeOff
      (fun name => Selection.Named a.selections name ∨ unread name) outcome.args := by
    intro name kept
    rw [← full_agree name fun named => kept (.inl named)]
    cases has : part.contains name with
    | true =>
        obtain ⟨value, found⟩ := Dict.contains_iff.1 has
        rw [found, sub _ _ found]
    | false =>
        have absent : full.contains name = false := by
          cases given : full.contains name with
          | false => rfl
          | true => exact absurd (beyond name given (by simp [has])) kept
        rw [Dict.contains_eq_false.1 has, Dict.contains_eq_false.1 absent]
  have leads := searchAmong_leads foreseeable (List.nil_append _).symm part_sub agree
    (by simp) settled
  rwa [openMoves, if_pos available]

/-- An action that asks for a number up to a limit, which is no selection of it. -/
def upToLimit : Action Script.Host where
  name := "act"
  selections :=
    [{ name := "n",
       kind := .number none (some fun _ args =>
         ((args.get? "limit").bind Argument.asNumber).getD 0) }]

theorem upToLimit_foreseeable {unread : String → Prop} (h : ¬unread "limit") (g : Script.Host) :
    upToLimit.Foreseeable g unread := by
  have only : ∀ {before s after}, upToLimit.selections = before ++ s :: after →
      upToLimit.selections = [s] ∧ after = [] := by
    intro before s after split
    cases before <;> simp_all [upToLimit]
  constructor
  · intro before s after split x y agree
    obtain ⟨alone, rfl⟩ := only split
    cases alone
    have same : x.get? "limit" = y.get? "limit" := agree "limit" (by simp [Selection.Named, h])
    simp [Selection.offer, Selection.Kind.offer, same]
  · intro before s after split x y _
    obtain ⟨alone, rfl⟩ := only split
    cases alone
    rfl
  · intro s mem args
    obtain rfl := List.mem_singleton.1 mem
    rfl
  · intro s mem args choices always
    obtain rfl := List.mem_singleton.1 mem
    cases always

/-- The answers to `upToLimit` with the limit. -/
def twoOfThree : Args := (Dict.empty.insert "limit" (.number 3)).insert "n" (.number 2)

/-- What is given beyond the answers may be read: without the limit no number is
legal, and the search finds nothing. -/
theorem openMoves_upToLimit_without_limit :
    upToLimit.Foreseeable (.fresh 2) (fun _ => False) ∧
      (upToLimit.selections.map (·.name)).Nodup ∧ (Dict.empty : Args) ⊆ twoOfThree ∧
        upToLimit.process (.fresh 2) default ⟨0⟩ twoOfThree =
            .ok (.ok (⟨twoOfThree, [], []⟩, .fresh 2, default)) ∧
          upToLimit.openMoves (.fresh 2) .empty = none :=
  ⟨upToLimit_foreseeable id _, by simp [upToLimit], Dict.empty_subset _, rfl, rfl⟩

/-- Besides the limit, a note that nothing reads may be given. -/
theorem openMoves_upToLimit_with_note :
    let part : Args := Dict.empty.insert "limit" (.number 3)
    let full : Args := twoOfThree.insert "note" (.text "two")
    upToLimit.Foreseeable (.fresh 2) (fun name => name = "note") ∧ part ⊆ full ∧
      upToLimit.process (.fresh 2) default ⟨0⟩ full =
          .ok (.ok (⟨full, [], []⟩, .fresh 2, default)) ∧
        ∃ m : OpenMove, upToLimit.openMoves (.fresh 2) part = some [m] ∧ m.args ⊆ full ∧
          ∀ o ∈ m.offers, ∃ value, full.get? o.name = some value ∧ o.Accepts value := by
  intro part full
  have foreseeable : upToLimit.Foreseeable (.fresh 2) fun name => name = "note" :=
    upToLimit_foreseeable (by decide) _
  have sub : part ⊆ full := Dict.insert_subset (Dict.empty_subset _) rfl
  have accepted : upToLimit.process (.fresh 2) default ⟨0⟩ full =
      .ok (.ok (⟨full, [], []⟩, .fresh 2, default)) := rfl
  refine ⟨foreseeable, sub, accepted, ?_⟩
  refine openMoves_leads_to_accepted foreseeable sub (fun name given missing => ?_) accepted
  simp only [full, part, twoOfThree, Dict.contains_insert, Bool.or_eq_true, beq_iff_eq,
    not_or] at given missing
  rcases given with rfl | rfl | rfl | absent
  · exact .inr rfl
  · exact .inl (by simp [Selection.Named, upToLimit])
  · exact absurd rfl missing.1
  · cases absent

end Action

end Tabletop
