import Mathlib.Data.List.Perm.Subperm
import Tabletop.Proofs.Selection.Legal
import Tabletop.Script.Host

/-! # Options and legal values

An offer that lists its legal values finds them by their places: it takes the numbers of a
range, the entries of a list, or the combinations of places on the board. What it accepts
it decides by the values alone. Both agree, except where the board holds an entry in two
places: then the entry is also listed twice in one pick, which is refused.

Main statement: `options_exact`.
-/

namespace Tabletop

/-! ### Combinations -/

section Combinations

variable {α : Type} {xs sub : List α} {size low high : Nat}

/-- The combinations of a size are the sublists of that length. -/
theorem mem_combinations :
    sub ∈ combinations xs size ↔ sub.Sublist xs ∧ sub.length = size := by
  induction xs generalizing sub size with
  | nil =>
      cases size with
      | zero => simp [combinations]
      | succ size =>
          simp only [combinations, List.not_mem_nil, List.sublist_nil, false_iff]
          rintro ⟨rfl, length_eq⟩
          cases length_eq
  | cons x xs ih =>
      cases size with
      | zero =>
          simp only [combinations, List.mem_singleton, List.length_eq_zero_iff]
          constructor
          · rintro rfl
            exact ⟨List.nil_sublist _, rfl⟩
          · exact And.right
      | succ size =>
          rw [combinations]
          split
          · rename_i few
            refine iff_of_false List.not_mem_nil ?_
            rintro ⟨sublist, length_eq⟩
            have le := sublist.length_le
            rw [List.length_cons] at le
            omega
          · rw [List.mem_append, List.mem_map]
            constructor
            · rintro (⟨rest, mem, rfl⟩ | mem)
              · obtain ⟨sublist, rfl⟩ := ih.1 mem
                exact ⟨sublist.cons_cons x, rfl⟩
              · obtain ⟨sublist, length_eq⟩ := ih.1 mem
                exact ⟨sublist.cons x, length_eq⟩
            · rintro ⟨sublist, length_eq⟩
              cases sublist with
              | cons _ sublist => exact .inr (ih.2 ⟨sublist, length_eq⟩)
              | cons_cons _ sublist =>
                  exact .inl ⟨_, ih.2 ⟨sublist, Nat.succ.inj length_eq⟩, rfl⟩

theorem mem_sizesBetween : size ∈ sizesBetween low high ↔ low ≤ size ∧ size ≤ high := by
  rw [sizesBetween, List.mem_range'_1]
  omega

end Combinations

namespace Offer

variable {o : Offer} {value : Argument} {items choices : List Argument} {least most : Nat}

/-- The value is a pick of several choices on the board, one of them twice. -/
def PicksTwice (o : Offer) (value : Argument) : Prop :=
  o.isMulti ∧ ∃ items, value = .list items ∧ ¬items.Nodup

/-- The value is among the options, several choices on the board in some order. -/
def IsListed (o : Offer) (value : Argument) : Prop :=
  value ∈ o.options ∨
    o.isMulti ∧ ∃ items listed, value = .list items ∧ listed.Perm items ∧ .list listed ∈ o.options

/-- Choices on the board have a bound on their number from below and from above, or none. -/
def HasBothBounds (o : Offer) : Prop :=
  ∀ choices least most, o.kind = .board choices least most → least.isSome = most.isSome

/-! ### Several choices on the board -/

section Several

variable (h : o.kind = .board choices (some least) (some most))

include h

theorem isMulti_of_several : o.isMulti := by simp [isMulti, h]

theorem isPossible_several : o.isPossible ↔ least ≤ most ∧ least ≤ choices.length := by
  simp [isPossible, h]

theorem accepts_several :
    o.Accepts (.list items) ↔
      least ≤ items.length ∧ items.length ≤ most ∧ items ⊆ choices ∧ items.Nodup := by
  simp only [Accepts, refusal?, h, Argument.asList, listRefusal?, Option.getD_some]
  split
  · rename_i wrong
    refine iff_of_false (by simp) ?_
    rintro ⟨low, high, -⟩
    omega
  · rename_i right
    split
    · rename_i item found
      refine iff_of_false (by simp) ?_
      rintro ⟨-, -, subset, -⟩
      have mem := subset (List.mem_of_find?_eq_some found)
      simpa [mem] using List.find?_some found
    · rename_i none_bad
      have subset : items ⊆ choices := by
        intro item mem
        simpa using List.find?_eq_none.1 none_bad item mem
      have low : least ≤ items.length := by omega
      have high : items.length ≤ most := by omega
      simp [low, high, subset, ite_eq_left_iff]

/-- A pick of several choices is a list. -/
theorem exists_list_of_accepts (accepts : o.Accepts value) : ∃ items, value = .list items := by
  cases value with
  | list items => exact ⟨items, rfl⟩
  | _ => simp [Accepts, refusal?, h, Argument.asList] at accepts

/-- Several choices are listed by their places on the board. -/
theorem mem_options_several (bounded : o.isBounded) (possible : o.isPossible) :
    value ∈ o.options ↔
      ∃ items, value = .list items ∧ items.Sublist choices ∧ least ≤ items.length ∧
        items.length ≤ most := by
  simp only [options, bounded, possible, Bool.and_self, if_true, h, List.mem_map, List.mem_flatMap,
    mem_combinations, mem_sizesBetween]
  constructor
  · rintro ⟨items, ⟨size, ⟨low, high⟩, sublist, rfl⟩, rfl⟩
    exact ⟨items, rfl, sublist, low, by omega⟩
  · rintro ⟨items, rfl, sublist, low, high⟩
    have le := sublist.length_le
    exact ⟨items, ⟨items.length, ⟨low, by omega⟩, sublist, rfl⟩, rfl⟩

/-- Several choices that are listed are accepted, unless one of them is picked twice. -/
theorem accepts_iff_of_several (bounded : o.isBounded) (possible : o.isPossible)
    (listed : value ∈ o.options) : o.Accepts value ↔ ¬o.PicksTwice value := by
  obtain ⟨items, rfl, sublist, low, high⟩ := (mem_options_several h bounded possible).1 listed
  rw [accepts_several h]
  constructor
  · rintro ⟨-, -, -, nodup⟩ ⟨-, items', same, twice⟩
    obtain rfl := Argument.list.inj same
    exact twice nodup
  · intro once
    refine ⟨low, high, sublist.subset, ?_⟩
    by_contra twice
    exact once ⟨isMulti_of_several h, items, rfl, twice⟩

/-- Several choices that are accepted can be put in the order of their places. -/
theorem isListed_of_several (bounded : o.isBounded) (possible : o.isPossible)
    (accepts : o.Accepts value) : o.IsListed value := by
  obtain ⟨items, rfl⟩ := exists_list_of_accepts h accepts
  obtain ⟨low, high, subset, nodup⟩ := (accepts_several h).1 accepts
  obtain ⟨listed, perm, sublist⟩ := List.subperm_of_subset nodup subset
  refine .inr ⟨isMulti_of_several h, items, listed, rfl, perm, ?_⟩
  apply (mem_options_several h bounded possible).2
  exact ⟨listed, rfl, sublist, perm.length_eq ▸ low, perm.length_eq ▸ high⟩

/-- A listed pick has an entry twice only if the board has. -/
theorem not_nodup_of_picksTwice (bounded : o.isBounded) (possible : o.isPossible)
    (listed : value ∈ o.options) (twice : o.PicksTwice value) : ¬choices.Nodup := by
  obtain ⟨items, rfl, sublist, -⟩ := (mem_options_several h bounded possible).1 listed
  obtain ⟨-, items', same, twice⟩ := twice
  obtain rfl := Argument.list.inj same
  exact fun nodup => twice (nodup.sublist sublist)

end Several

/-! ### Single picks -/

theorem le_of_mem_numbersBetween {n least most : Int64} (mem : n ∈ numbersBetween least most) :
    least ≤ n ∧ n ≤ most := by
  obtain ⟨i, in_range, rfl⟩ := List.mem_map.1 mem
  rw [List.mem_range] at in_range
  have low := least.le_toInt
  have high := most.toInt_lt
  have value_eq : (Int64.ofInt (least.toInt + i)).toInt = least.toInt + i := by
    apply Int64.toInt_ofInt_of_le <;> omega
  rw [Int64.le_iff_toInt_le, Int64.le_iff_toInt_le, value_eq]
  omega

/-- A single value that is listed is accepted. -/
theorem accepts_of_mem_options (single : o.isMulti = false) (listed : value ∈ o.options) :
    o.Accepts value := by
  unfold options at listed
  split at listed
  · cases hk : o.kind with
    | choices choices =>
        rw [hk] at listed
        exact (accepts_choices hk).2 (by simpa using listed)
    | board choices least most =>
        obtain ⟨rfl, rfl⟩ := bounds_of_single single hk
        rw [hk] at listed
        exact (accepts_board hk).2 listed
    | number least most =>
        rw [hk] at listed
        cases most with
        | none => cases listed
        | some most =>
            obtain ⟨n, mem, rfl⟩ := List.mem_map.1 listed
            obtain ⟨low, high⟩ := le_of_mem_numbersBetween mem
            exact (accepts_number hk).2 ⟨n, rfl, low, by simpa using high⟩
    | _ =>
        rw [hk] at listed
        cases listed
  · cases listed

theorem not_picksTwice_of_single (single : o.isMulti = false) : ¬o.PicksTwice value := by
  rintro ⟨several, -⟩
  rw [single] at several
  cases several

/-- Several choices are picked where there are bounds on their number. -/
theorem HasBothBounds.exists_bounds (both : o.HasBothBounds) (several : o.isMulti) :
    ∃ choices least most, o.kind = .board choices (some least) (some most) := by
  cases hk : o.kind with
  | board choices least most =>
      have same := both choices least most hk
      cases least <;> cases most <;> simp_all [isMulti]
  | _ => simp [isMulti, hk] at several

end Offer

namespace Selection

theorem isSome_boardBounds (available : Nat) (count least most : Option Int64) :
    (boardBounds available count least most).1.isSome =
      (boardBounds available count least most).2.isSome := by
  cases count <;> cases least <;> cases most <;> simp [boardBounds]

/-- A declared selection offers choices on the board with both bounds or with none. -/
theorem hasBothBounds {G : Type} (s : Selection G) (g : G) (args : Args) :
    (s.offer g args).HasBothBounds := by
  intro choices least most hk
  simp only [offer] at hk
  cases kind_eq : s.kind with
  | board list count low high =>
      simp only [kind_eq, Kind.offer, Offer.Kind.board.injEq] at hk
      obtain ⟨-, rfl, rfl⟩ := hk
      exact isSome_boardBounds _ _ _ _
  | _ => simp [kind_eq, Kind.offer] at hk

/-- The options of a selection that can list its legal values. What is listed is accepted,
except for picks of several choices that have one of them twice; there are such picks only
where the board has an entry twice. And all that is accepted is listed, several choices in
one of their orders. -/
theorem options_exact {G : Type} (s : Selection G) (g : G) (args : Args)
    (bounded : (s.offer g args).isBounded) (possible : (s.offer g args).isPossible)
    (value : Argument) :
    let o := s.offer g args
    (value ∈ o.options → (o.Accepts value ↔ ¬o.PicksTwice value) ∧
      (o.PicksTwice value →
        ∃ choices least most, o.kind = .board choices least most ∧ ¬choices.Nodup)) ∧
      (o.Accepts value → o.IsListed value) := by
  intro o
  cases several : o.isMulti with
  | true =>
      obtain ⟨choices, least, most, hk⟩ := (s.hasBothBounds g args).exists_bounds several
      refine ⟨fun listed => ⟨?_, fun twice => ?_⟩, ?_⟩
      · exact Offer.accepts_iff_of_several hk bounded possible listed
      · exact ⟨_, _, _, hk, Offer.not_nodup_of_picksTwice hk bounded possible listed twice⟩
      · exact Offer.isListed_of_several hk bounded possible
  | false =>
      have once : ¬o.PicksTwice value := Offer.not_picksTwice_of_single several
      refine ⟨fun listed => ⟨?_, fun twice => absurd twice once⟩, fun accepts => ?_⟩
      · exact iff_of_true (Offer.accepts_of_mem_options several listed) once
      · exact .inl (Offer.mem_options several bounded accepts)

/-- Two cards from a board on which one of them lies twice. -/
def twoCards : Selection Script.Host where
  name := "cards"
  kind := .board (fun _ _ => [.text "ace", .text "two", .text "two"]) (some fun _ _ => 2) none none

/-- The card that lies there twice is listed twice in one pick, and then refused. -/
theorem options_twoCards_refused :
    let o := twoCards.offer (.fresh 2) .empty
    o.isBounded ∧ o.isPossible ∧ .list [.text "two", .text "two"] ∈ o.options ∧
      o.refusal? (.list [.text "two", .text "two"]) = some (.repeated "cards") := by
  decide

/-- The other picks are accepted as they are listed, and in the other order. -/
theorem options_exact_twoCards :
    let o := twoCards.offer (.fresh 2) .empty
    let mixed : Argument := .list [.text "two", .text "ace"]
    let same : Argument := .list [.text "two", .text "two"]
    o.isBounded ∧ o.isPossible ∧ o.Accepts mixed ∧ mixed ∉ o.options ∧ o.IsListed mixed ∧
      same ∈ o.options ∧ (o.Accepts same ↔ ¬o.PicksTwice same) := by
  intro o mixed same
  have bounded : o.isBounded := by decide
  have possible : o.isPossible := by decide
  have accepted : o.Accepts mixed := by
    unfold Offer.Accepts
    decide
  have listed : same ∈ o.options := by decide
  have exact_at := twoCards.options_exact (.fresh 2) .empty bounded possible
  exact ⟨bounded, possible, accepted, by decide, (exact_at mixed).2 accepted, listed,
    ((exact_at same).1 listed).1⟩

end Selection

end Tabletop
