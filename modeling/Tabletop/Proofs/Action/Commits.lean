import Tabletop.Proofs.Action.Check
import Tabletop.Proofs.Selection.Options

/-! # What an accepted move holds

A move that is carried out has a value for every selection of its action, and each value was
checked against the offer as it stood when its turn came. These values have the form that the
kind of their selection asks for, with one exception. A place is looked for among the numbers
of a list, so a list may hold a column and a row among other items.

Main statements: `Offer.HasBothBounds.accepts_iff` for a value of an offer,
`commits_well_formed` for a move.
-/

namespace Tabletop

variable {G : Type}

namespace Offer

/-! ### Well-formed values -/

/-- An area has room for a column and a row, if there is an area. -/
def HasRoom (area : Option (Int64 × Int64)) (column row : Int64) : Prop :=
  ∀ columns rows, area = some (columns, rows) →
    0 ≤ column ∧ column < columns ∧ 0 ≤ row ∧ row < rows

/-- The values that each kind of offer asks for, within its bounds. -/
inductive Kind.WellFormed : Offer.Kind → Argument → Prop
  | entry {choices : List Choice} {choice : Choice} (listed : choice ∈ choices) :
      WellFormed (.choices choices) choice.value
  | single {board : List Argument} {value : Argument} (listed : value ∈ board) :
      WellFormed (.board board none none) value
  | several {board items : List Argument} {least most : Nat} (distinct : items.Nodup)
      (listed : ∀ item ∈ items, item ∈ board) (low : least ≤ items.length)
      (high : items.length ≤ most) :
      WellFormed (.board board (some least) (some most)) (.list items)
  | number {least n : Int64} {most : Option Int64} (low : least ≤ n)
      (high : ∀ m, most = some m → n ≤ m) : WellFormed (.number least most) (.number n)
  | text {pattern : Option Text.Pattern} {initial : Option String} {text : String}
      (matching : ∀ p, pattern = some p → p.isMatch text) :
      WellFormed (.text pattern initial) (.text text)
  | button (value : Argument) : WellFormed (.button value) value
  | place {piece : Argument} {area : Option (Int64 × Int64)} {column row : Int64}
      (room : HasRoom area column row) :
      WellFormed (.place piece area) (.list [.number column, .number row])

/-- A column and a row among items of a list that are no numbers. -/
inductive Kind.Scattered : Offer.Kind → Argument → Prop
  | place {piece : Argument} {area : Option (Int64 × Int64)} {items : List Argument}
      (others : ∃ item ∈ items, item.asNumber = none)
      (numbers : (Kind.place piece area).WellFormed
        (.list (items.filter fun item => item.asNumber.isSome))) :
      Scattered (.place piece area) (.list items)

variable {o : Offer} {value : Argument}

theorem accepts_text {pattern : Option Text.Pattern} {initial : Option String}
    (h : o.kind = .text pattern initial) :
    o.Accepts value ↔ ∃ text, value = .text text ∧ ∀ p, pattern = some p → p.isMatch text := by
  cases value with
  | text text => cases pattern <;> simp [Accepts, refusal?, h, Argument.asText, ite_eq_left_iff]
  | _ => simp [Accepts, refusal?, h, Argument.asText]

/-! ### Places -/

section Place

variable {piece : Argument} {area : Option (Int64 × Int64)} {items : List Argument}
  {column row : Int64}

/-- The numbers of a list are its items that are numbers. -/
theorem filter_isNumber (items : List Argument) :
    items.filter (fun item => item.asNumber.isSome) =
      (items.filterMap Argument.asNumber).map .number := by
  induction items with
  | nil => rfl
  | cons item rest ih =>
      rw [List.filter_cons, List.filterMap_cons]
      cases item with
      | number n => exact congrArg (.number n :: ·) ih
      | _ => exact ih

theorem hasRoom_iff : HasRoom area column row ↔ area.all (isInside column row) := by
  rcases area with _ | ⟨columns, rows⟩
  · simp [HasRoom]
  · simp only [HasRoom, isInside, Option.some.injEq, Prod.mk.injEq, Option.all_some,
      Bool.and_eq_true, decide_eq_true_eq]
    constructor
    · intro inside
      obtain ⟨left, right, low, high⟩ := inside columns rows ⟨rfl, rfl⟩
      exact ⟨⟨⟨left, low⟩, right⟩, high⟩
    · rintro ⟨⟨⟨left, low⟩, right⟩, high⟩ _ _ ⟨rfl, rfl⟩
      exact ⟨left, right, low, high⟩

/-- The numbers of a list that is accepted for a place are a column and a row inside the
area. -/
theorem accepts_place (h : o.kind = .place piece area) :
    o.Accepts value ↔ ∃ items column row, value = .list items ∧
      items.filterMap Argument.asNumber = [column, row] ∧ HasRoom area column row := by
  cases value with
  | list items =>
      simp only [Accepts, refusal?, h, Argument.asList, Option.map_some, Argument.list.injEq,
        hasRoom_iff]
      split
      · rename_i column row numbers
        simp_all [ite_eq_left_iff]
      · rename_i not_two
        refine iff_of_false (by simp) ?_
        rintro ⟨items, column, row, rfl, numbers, -⟩
        exact not_two column row (congrArg some numbers)
  | _ => simp [Accepts, refusal?, h, Argument.asList]

/-- The numbers of a list that is accepted for a place make a well-formed one. Only items that
are no numbers may stand beside them. -/
theorem wellFormed_or_scattered_of_place (h : o.kind = .place piece area)
    (accepts : o.Accepts value) :
    (Kind.place piece area).WellFormed value ∨ (Kind.place piece area).Scattered value := by
  obtain ⟨items, column, row, rfl, numbers, room⟩ := (accepts_place h).1 accepts
  have filtered : items.filter (fun item => item.asNumber.isSome) =
      [.number column, .number row] := by
    rw [filter_isNumber, numbers]
    rfl
  have place : (Kind.place piece area).WellFormed
      (.list (items.filter fun item => item.asNumber.isSome)) := by
    rw [filtered]
    exact .place room
  by_cases others : ∃ item ∈ items, item.asNumber = none
  · exact .inr (.place others place)
  · left
    have all_numbers : items.filter (fun item => item.asNumber.isSome) = items := by
      rw [List.filter_eq_self]
      intro item mem
      by_contra no_number
      exact others ⟨item, mem, by simpa using no_number⟩
    rwa [all_numbers] at place

end Place

/-! ### Accepted values -/

/-- Well-formed values are accepted. -/
theorem accepts_of_wellFormed (h : o.kind.WellFormed value) : o.Accepts value := by
  generalize hk : o.kind = kind at h
  cases h with
  | entry listed => exact (accepts_choices hk).2 ⟨_, listed, rfl⟩
  | single listed => exact (accepts_board hk).2 listed
  | several distinct listed low high => exact (accepts_several hk).2 ⟨low, high, listed, distinct⟩
  | number low high => exact (accepts_number hk).2 ⟨_, rfl, low, high⟩
  | text matching => exact (accepts_text hk).2 ⟨_, rfl, matching⟩
  | button => exact (accepts_button hk).2 rfl
  | place room => exact (accepts_place hk).2 ⟨_, _, _, rfl, rfl, room⟩

/-- Lists in which a place is scattered are accepted as well. -/
theorem accepts_of_scattered (h : o.kind.Scattered value) : o.Accepts value := by
  generalize hk : o.kind = kind at h
  cases h with
  | @place piece area items others numbers =>
      have accepts : o.Accepts (.list (items.filter fun item => item.asNumber.isSome)) :=
        accepts_of_wellFormed (hk ▸ numbers)
      obtain ⟨_, column, row, same, two, room⟩ := (accepts_place hk).1 accepts
      cases same
      rw [filter_isNumber, List.filterMap_map] at two
      apply (accepts_place hk).2
      refine ⟨items, column, row, rfl, ?_, room⟩
      rw [← two]
      exact (List.filterMap_some ..).symm

/-- What a declared selection accepts is well-formed or, for a place, scattered. -/
theorem HasBothBounds.wellFormed_or_scattered (both : o.HasBothBounds) (accepts : o.Accepts value) :
    o.kind.WellFormed value ∨ o.kind.Scattered value := by
  cases hk : o.kind with
  | choices choices =>
      obtain ⟨choice, listed, rfl⟩ := (accepts_choices hk).1 accepts
      exact .inl (.entry listed)
  | board board least most =>
      have same := both board least most hk
      rcases least with _ | least
      · obtain rfl : most = none := by simpa using same
        exact .inl (.single ((accepts_board hk).1 accepts))
      · obtain ⟨most, rfl⟩ : ∃ high, most = some high := by
          simpa [Option.isSome_iff_exists] using same.symm
        obtain ⟨items, rfl⟩ := exists_list_of_accepts hk accepts
        obtain ⟨low, high, listed, distinct⟩ := (accepts_several hk).1 accepts
        exact .inl (.several distinct listed low high)
  | number least most =>
      obtain ⟨n, rfl, low, high⟩ := (accepts_number hk).1 accepts
      exact .inl (.number low high)
  | text pattern initial =>
      obtain ⟨text, rfl, matching⟩ := (accepts_text hk).1 accepts
      exact .inl (.text matching)
  | button expected =>
      obtain rfl := (accepts_button hk).1 accepts
      exact .inl (.button expected)
  | place piece area => exact wellFormed_or_scattered_of_place hk accepts

theorem HasBothBounds.accepts_iff (both : o.HasBothBounds) :
    o.Accepts value ↔ o.kind.WellFormed value ∨ o.kind.Scattered value := by
  constructor
  · exact both.wellFormed_or_scattered
  · rintro (well_formed | scattered)
    · exact accepts_of_wellFormed well_formed
    · exact accepts_of_scattered scattered

end Offer

namespace Action

section Check

variable {g : G} {before after : List (Selection G)} {s : Selection G} {args full : Args}

/-- A check of selections goes on behind the first ones with what it found there. -/
theorem checkAmong_append (before after : List (Selection G)) (args : Args) :
    checkAmong g (before ++ after) args =
      match checkAmong g before args with
      | (seen, none) => checkAmong g after seen
      | (seen, some refusal) => (seen, some refusal) := by
  induction before generalizing args with
  | nil => rfl
  | cons s before ih =>
      simp only [List.cons_append, checkAmong]
      cases args.contains s.name with
      | true =>
          cases s.refusal? g args with
          | some refusal => rfl
          | none => exact ih args
      | false =>
          cases (s.offer g args).skipped? with
          | none => rfl
          | some value =>
              dsimp only
              cases s.refusal? g (args.insert s.name value) with
              | some refusal => rfl
              | none => exact ih (args.insert s.name value)

/-- An accepted check of some selections has accepted the first ones of them on its way. -/
theorem exists_checked_of_append (h : checkAmong g (before ++ after) args = (full, none)) :
    ∃ seen, checkAmong g before args = (seen, none) ∧ checkAmong g after seen = (full, none) := by
  rw [checkAmong_append] at h
  split at h
  · rename_i seen checked
    exact ⟨seen, checked, h⟩
  · cases h

/-- Each selection of an accepted check is settled when its turn comes, and what is seen then
is kept. -/
theorem settled_in_turn (h : checkAmong g (before ++ s :: after) args = (full, none)) :
    ∃ seen, checkAmong g (before ++ [s]) args = (seen, none) ∧ args ⊆ seen ∧ seen ⊆ full ∧
      Settled g seen s := by
  -- The check of the selections up to `s` ends with the arguments that `s` was checked with.
  rw [List.append_cons] at h
  obtain ⟨seen, checked, goes_on⟩ := exists_checked_of_append h
  obtain ⟨mid, -, in_turn⟩ := exists_checked_of_append checked
  obtain ⟨next, -, -, settled, ends⟩ := checkAmong_cons in_turn
  obtain rfl : next = seen := congrArg Prod.fst ends
  exact ⟨next, checked, (checkAmong_adds checked).1, (checkAmong_adds goes_on).1, settled⟩

end Check

/-- A move that is carried out has a value for every selection. The value is well-formed for
the offer that the check saw in the selection's turn, with the bounds worked out then; for a
place it may also be a list in which one is scattered. That offer accepts just these values. -/
theorem commits_well_formed {a : Action G} {g g' : G} {dice dice' : Dice} {player : Player}
    {args : Args} {outcome : Outcome} {before after : List (Selection G)} {s : Selection G}
    (accepted : a.process g dice player args = .ok (.ok (outcome, g', dice')))
    (split : a.selections = before ++ s :: after) :
    let seen := (checkAmong g (before ++ [s]) args).1
    let o := s.offer g seen
    args ⊆ seen ∧ seen ⊆ outcome.args ∧
      (∀ value, o.Accepts value ↔ o.kind.WellFormed value ∨ o.kind.Scattered value) ∧
        ∃ value, outcome.args.get? s.name = some value ∧
          (o.kind.WellFormed value ∨ o.kind.Scattered value) := by
  obtain ⟨-, checked⟩ := check_of_process accepted
  rw [check, split] at checked
  obtain ⟨seen, in_turn, sent, kept, settled⟩ := settled_in_turn checked
  obtain ⟨value, found, accepts⟩ := settled.accepted
  have both := s.hasBothBounds g seen
  rw [in_turn]
  refine ⟨sent, kept, fun _ => both.accepts_iff, value, kept _ _ found, ?_⟩
  exact both.wellFormed_or_scattered accepts

/-- A raid with one or two of three units, on a place of a board of three columns and rows, at
a speed of two up to twice the number of units. -/
def raid : Action Script.Host where
  name := "raid"
  selections := [units, target, speed]
where
  units : Selection Script.Host :=
    { name := "units",
      kind := .board (fun _ _ => [.text "elf", .text "orc", .text "ent"]) none
        (some fun _ _ => 1) (some fun _ _ => 2) }
  target : Selection Script.Host :=
    { name := "target", kind := .place (.text "camp") (some (3, 3)) }
  speed : Selection Script.Host :=
    { name := "speed",
      kind := .number (some fun _ _ => 2) (some fun _ args =>
        2 * .ofNat (((args.get? "units").bind Argument.asList).getD []).length) }

/-- The elf raids a place, given by a list of items. -/
def raid.sent (place : List Argument) : Args :=
  (Dict.empty.insert "units" (.list [.text "elf"])).insert "target" (.list place)

/-- The move as it is carried out, with the only speed for one unit filled in. -/
def raid.filled (place : List Argument) : Args := (raid.sent place).insert "speed" (.number 2)

/-- A list with a text between the column and the row is taken for a place. -/
theorem process_raid_scattered :
    let place : List Argument := [.number 1, .text "x", .number 2]
    let seen := (checkAmong (.fresh 2) [raid.units, raid.target] (raid.sent place)).1
    raid.process (.fresh 2) default ⟨0⟩ (raid.sent place) =
        .ok (.ok (⟨raid.filled place, [], []⟩, .fresh 2, default)) ∧
      (raid.filled place).get? raid.target.name = some (.list place) ∧
        ¬(raid.target.offer (.fresh 2) seen).kind.WellFormed (.list place) := by
  refine ⟨rfl, rfl, ?_⟩
  rintro ⟨⟩

/-- The speed that is filled in lies within the bounds for one unit. -/
theorem commits_well_formed_raid :
    let place : List Argument := [.number 1, .number 2]
    raid.process (.fresh 2) default ⟨0⟩ (raid.sent place) =
        .ok (.ok (⟨raid.filled place, [], []⟩, .fresh 2, default)) ∧
      raid.selections = [raid.units, raid.target] ++ raid.speed :: [] ∧
        ∃ value, (raid.filled place).get? "speed" = some value ∧
          (Offer.Kind.number 2 (some 2)).WellFormed value := by
  intro place
  have accepted : raid.process (.fresh 2) default ⟨0⟩ (raid.sent place) =
      .ok (.ok (⟨raid.filled place, [], []⟩, .fresh 2, default)) := rfl
  have split : raid.selections = [raid.units, raid.target] ++ raid.speed :: [] := rfl
  obtain ⟨-, -, -, value, found, well_formed | scattered⟩ := commits_well_formed accepted split
  · exact ⟨accepted, split, value, found, well_formed⟩
  · cases scattered

end Action

end Tabletop
