import Tabletop.Proofs.Selection.Counting

/-! # Narrowed offers

The search for open moves narrows an offer to the values that lead on. It does so by the bounds
of a range, the entries of a list or the choices on the board, and the options of the narrowed
offer are worked out anew from these. A narrowed range or board may list more than was asked
for, but nothing that was no option before, and it is within the limit of what is listed
wherever the whole offer was.

Main statement: `restrict_exact`.
-/

namespace Tabletop

/-- With fewer places there are fewer sets of places. -/
theorem card_placeSets_mono {m n : Nat} (le : m ≤ n) (low high : Nat) :
    (placeSets m low high).card ≤ (placeSets n low high).card := by
  have sizes : Finset.Icc low (min high m) ⊆ Finset.Icc low (min high n) :=
    Finset.Icc_subset_Icc_right (by omega)
  simp only [card_placeSets, sum_sizesBetween]
  calc ∑ k ∈ Finset.Icc low (min high m), m.choose k
      ≤ ∑ k ∈ Finset.Icc low (min high m), n.choose k :=
        Finset.sum_le_sum fun k _ => Nat.choose_le_choose k le
    _ ≤ ∑ k ∈ Finset.Icc low (min high n), n.choose k := Finset.sum_le_sum_of_subset sizes

namespace Offer

variable {o : Offer} {viable : List Argument} {value : Argument}

/-- The offer narrowed to some values still lists its values, all of these among them, and
nothing that was no option before. -/
structure NarrowsTo (o : Offer) (viable : List Argument) : Prop where
  bounded : (o.restrict viable).isBounded
  possible : (o.restrict viable).isPossible
  keeps : ∀ value ∈ viable, value ∈ (o.restrict viable).options
  adds_none : ∀ value ∈ (o.restrict viable).options, value ∈ o.options

/-- An offer that lists something is bounded and possible, so it is enough to look at its
options. -/
theorem narrowsTo_of_keeps (nonempty : viable ≠ [])
    (keeps : ∀ value ∈ viable, value ∈ (o.restrict viable).options)
    (adds_none : ∀ value ∈ (o.restrict viable).options, value ∈ o.options) :
    o.NarrowsTo viable := by
  obtain ⟨value, mem⟩ := List.exists_mem_of_ne_nil viable nonempty
  have listed : (o.restrict viable).options ≠ [] := List.ne_nil_of_mem (keeps value mem)
  obtain ⟨bounded, possible⟩ := bounded_and_possible listed
  exact ⟨bounded, possible, keeps, adds_none⟩

/-! ### Lists of single values -/

/-- A list keeps the entries that it is narrowed to. -/
theorem IsList.narrowsTo (h : o.IsList) (options : viable ⊆ o.options) (nonempty : viable ≠ []) :
    o.NarrowsTo viable := by
  apply narrowsTo_of_keeps nonempty
  · intro value mem
    exact (mem_options_restrict h).2 ⟨options mem, mem⟩
  · intro value mem
    exact ((mem_options_restrict h).1 mem).1

/-! ### Several choices on the board -/

section Several

variable {choices items : List Argument} {least most : Nat}

/-- The choices on the board that some of the picks need. -/
def needed (viable choices : List Argument) : List Argument :=
  choices.filter fun choice =>
    (viable.filterMap Argument.asList).any fun items => items.contains choice

/-- A pick of choices is one of those that the board is left with for it. -/
theorem sublist_needed (mem : .list items ∈ viable) (sublist : items.Sublist choices) :
    items.Sublist (needed viable choices) := by
  have picked : items ∈ viable.filterMap Argument.asList :=
    List.mem_filterMap.2 ⟨.list items, mem, rfl⟩
  have all_needed : ∀ choice ∈ items,
      ((viable.filterMap Argument.asList).any fun items => items.contains choice) := by
    intro choice in_pick
    exact List.any_eq_true.2 ⟨items, picked, List.contains_iff_mem.2 in_pick⟩
  rw [← List.filter_eq_self.2 all_needed]
  exact sublist.filter _

variable (h : o.kind = .board choices (some least) (some most))

include h

theorem restrict_several (viable : List Argument) :
    (o.restrict viable).kind = .board (needed viable choices) (some least) (some most) := by
  simp [restrict, h, needed]

/-- Picks that were listed are possible on the board that is narrowed to them. -/
theorem isPossible_restrict_several (bounded : o.isBounded) (possible : o.isPossible)
    (mem : value ∈ viable) (listed : value ∈ o.options) : (o.restrict viable).isPossible := by
  obtain ⟨items, rfl, sublist, low, high⟩ := (mem_options_several h bounded possible).1 listed
  have fits := (sublist_needed mem sublist).length_le
  apply (isPossible_several (restrict_several h viable)).2
  exact ⟨Nat.le_trans low high, Nat.le_trans low fits⟩

theorem isBounded_restrict_several (few : choices.length ≤ 2 ^ 53) (bounded : o.isBounded) :
    (o.restrict viable).isBounded := by
  have le : (needed viable choices).length ≤ choices.length := List.length_filter_le _ _
  rw [isBounded_several (restrict_several h viable) (Nat.le_trans le few)]
  calc (placeSets (needed viable choices).length least most).card
      ≤ (placeSets choices.length least most).card := card_placeSets_mono le least most
    _ ≤ maxCombinations := (isBounded_several h few).1 bounded

/-- A board keeps the choices that some picks need, and these lie on it as before. -/
theorem narrowsTo_several (few : choices.length ≤ 2 ^ 53) (bounded : o.isBounded)
    (possible : o.isPossible) (options : viable ⊆ o.options) (nonempty : viable ≠ []) :
    o.NarrowsTo viable := by
  obtain ⟨value, mem⟩ := List.exists_mem_of_ne_nil viable nonempty
  have hk := restrict_several h viable
  have bounded' : (o.restrict viable).isBounded := isBounded_restrict_several h few bounded
  have possible' : (o.restrict viable).isPossible :=
    isPossible_restrict_several h bounded possible mem (options mem)
  apply narrowsTo_of_keeps nonempty
  · intro value mem
    obtain ⟨items, rfl, sublist, sizes⟩ :=
      (mem_options_several h bounded possible).1 (options mem)
    apply (mem_options_several hk bounded' possible').2
    exact ⟨items, rfl, sublist_needed mem sublist, sizes⟩
  · intro value mem
    obtain ⟨items, rfl, sublist, sizes⟩ := (mem_options_several hk bounded' possible').1 mem
    apply (mem_options_several h bounded possible).2
    exact ⟨items, rfl, sublist.trans List.filter_sublist, sizes⟩

end Several

/-! ### Ranges of numbers -/

section Numbers

/-- The bounds, if there are any, lie between two numbers. -/
def Inside (least most : Int64) (bounds : Option (Int64 × Int64)) : Prop :=
  ∀ low high, bounds = some (low, high) → least ≤ low ∧ high ≤ most

variable {least most n : Int64} {bounds : Option (Int64 × Int64)} {numbers : List Int64}

theorem Inside.widen (inside : Inside least most bounds) (low : least ≤ n) (high : n ≤ most) :
    Inside least most (widen bounds n) := by
  intro low' high' widened
  rcases bounds with _ | ⟨lower, upper⟩
  · cases widened
    exact ⟨low, high⟩
  · cases widened
    obtain ⟨low', high'⟩ := inside lower upper rfl
    constructor
    · split
      · exact low
      · exact low'
    · split
      · exact high
      · exact high'

/-- The smallest and the largest of some numbers lie where all of them do. -/
theorem inside_foldl (inside : Inside least most bounds)
    (h : ∀ n ∈ numbers, least ≤ n ∧ n ≤ most) :
    Inside least most (numbers.foldl Offer.widen bounds) := by
  induction numbers generalizing bounds with
  | nil => exact inside
  | cons n rest ih =>
      obtain ⟨⟨low, high⟩, others⟩ := List.forall_mem_cons.1 h
      exact ih (inside.widen low high) others

/-- A range is narrowed to a range inside of it. -/
theorem restrict_numbers (h : o.kind = .number least (some most))
    (accepts : ∀ value ∈ viable, o.Accepts value) (nonempty : viable ≠ []) :
    ∃ low high, (o.restrict viable).kind = .number low (some high) ∧
      least ≤ low ∧ high ≤ most := by
  have within : ∀ n ∈ viable.filterMap Argument.asNumber, least ≤ n ∧ n ≤ most := by
    intro n mem
    obtain ⟨value, in_viable, is_number⟩ := List.mem_filterMap.1 mem
    obtain ⟨n', rfl, low, high⟩ := (accepts_number h).1 (accepts value in_viable)
    obtain rfl : n' = n := Option.some.inj is_number
    exact ⟨low, high most rfl⟩
  obtain ⟨value, mem⟩ := List.exists_mem_of_ne_nil viable nonempty
  obtain ⟨n, rfl, -⟩ := (accepts_number h).1 (accepts value mem)
  have listed : n ∈ viable.filterMap Argument.asNumber := List.mem_filterMap.2 ⟨_, mem, rfl⟩
  obtain ⟨low, high, bounds, -⟩ :
      Spans (numberBounds? (viable.filterMap Argument.asNumber)) n := spans_foldl (.inr listed)
  refine ⟨low, high, by simp [restrict, h, bounds], ?_⟩
  exact inside_foldl (by simp [Inside]) within low high bounds

/-- A range keeps the numbers between the smallest and the largest that it is narrowed to. -/
theorem narrowsTo_numbers (h : o.kind = .number least (some most)) (bounded : o.isBounded)
    (options : viable ⊆ o.options) (nonempty : viable ≠ []) : o.NarrowsTo viable := by
  have single : o.isMulti = false := by simp [isMulti, h]
  have accepts : ∀ value ∈ viable, o.Accepts value := fun value mem =>
    accepts_of_mem_options single (options mem)
  obtain ⟨low, high, hk, low_inside, high_inside⟩ := restrict_numbers h accepts nonempty
  have single' : (o.restrict viable).isMulti = false := by simp [isMulti, hk]
  have bounded' : (o.restrict viable).isBounded := by
    rw [isBounded_number h] at bounded
    rw [isBounded_number hk]
    rw [Int64.le_iff_toInt_le] at low_inside high_inside
    omega
  apply narrowsTo_of_keeps nonempty
  · intro value mem
    exact mem_options single' bounded' (accepts_restrict single (accepts value mem) mem)
  · intro value mem
    obtain ⟨n, rfl, low_le, le_high⟩ :=
      (accepts_number hk).1 (accepts_of_mem_options single' mem)
    apply mem_options single bounded
    apply (accepts_number h).2
    refine ⟨n, rfl, Int64.le_trans low_inside low_le, fun m same => ?_⟩
    obtain rfl : most = m := Option.some.inj same
    exact Int64.le_trans (le_high high rfl) high_inside

end Numbers

/-- What lists its values is a list of single values, several choices on the board or a
range. -/
theorem narrowsTo_of_options (both : o.HasBothBounds)
    (few : ∀ choices least most,
      o.kind = .board choices (some least) (some most) → choices.length ≤ 2 ^ 53)
    (bounded : o.isBounded) (possible : o.isPossible) (options : viable ⊆ o.options)
    (nonempty : viable ≠ []) : o.NarrowsTo viable := by
  cases several : o.isMulti with
  | true =>
      obtain ⟨choices, least, most, hk⟩ := both.exists_bounds several
      exact narrowsTo_several hk (few _ _ _ hk) bounded possible options nonempty
  | false =>
      cases hk : o.kind with
      | choices choices => exact IsList.narrowsTo (.inl ⟨choices, hk⟩) options nonempty
      | board items least most =>
          obtain ⟨rfl, rfl⟩ := bounds_of_single several hk
          exact IsList.narrowsTo (.inr ⟨items, hk⟩) options nonempty
      | number least most =>
          cases most with
          | none => simp [isBounded_openNumber hk] at bounded
          | some most => exact narrowsTo_numbers hk bounded options nonempty
      | _ => simp [isBounded, hk] at bounded

end Offer

namespace Selection

/-- A selection that lists its values, narrowed to some of them, still lists these and nothing
new. Entries of a list and single choices on the board are exactly the ones it is narrowed to. -/
theorem restrict_exact {G : Type} {s : Selection G} {g : G} {args : Args}
    {viable : List Argument}
    (few : ∀ choices least most,
      (s.offer g args).kind = .board choices (some least) (some most) →
        choices.length ≤ 2 ^ 53)
    (bounded : (s.offer g args).isBounded) (possible : (s.offer g args).isPossible)
    (sublist : viable.Sublist (s.offer g args).options) (nonempty : viable ≠ []) :
    let o := s.offer g args
    o.NarrowsTo viable ∧
      (o.IsList → (o.restrict viable).options = o.options.filter viable.contains) := by
  intro o
  constructor
  · have both : o.HasBothBounds := s.hasBothBounds g args
    exact Offer.narrowsTo_of_options both few bounded possible sublist.subset nonempty
  · exact Offer.options_restrict viable

/-- One or two cards from a board on which the two lies twice. -/
def someCards : Selection Script.Host where
  name := "cards"
  kind := .board (fun _ _ => [.text "ace", .text "two", .text "ten", .text "two"]) none
    (some fun _ _ => 1) (some fun _ _ => 2)

/-- Narrowed to the ace and a pair of twos, the board still holds all three of them. The ten is
gone, and an ace and a two is still listed. -/
theorem restrict_exact_someCards :
    let o := someCards.offer (.fresh 2) .empty
    let viable : List Argument := [.list [.text "ace"], .list [.text "two", .text "two"]]
    viable.Sublist o.options ∧ o.NarrowsTo viable ∧
      (o.restrict viable).kind =
        .board [.text "ace", .text "two", .text "two"] (some 1) (some 2) ∧
        .list [.text "ace", .text "two"] ∈ (o.restrict viable).options := by
  intro o viable
  have few : ∀ choices least most, o.kind = .board choices (some least) (some most) →
      choices.length ≤ 2 ^ 53 := by
    intro choices least most hk
    cases hk
    decide
  have sublist : viable.Sublist o.options := by decide
  have narrows := restrict_exact few (by decide) (by decide) sublist (by decide)
  exact ⟨sublist, narrows.1, by decide, by decide⟩

end Selection

end Tabletop
