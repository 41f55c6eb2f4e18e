import Mathlib.Algebra.BigOperators.Group.List.Basic
import Mathlib.Algebra.Order.BigOperators.Group.Finset
import Mathlib.Algebra.GroupWithZero.Nat
import Mathlib.Data.Finset.Powerset
import Mathlib.Data.Fintype.Powerset
import Mathlib.Data.Nat.Choose.Basic
import Mathlib.Order.Interval.Finset.Nat
import Tabletop.Proofs.Selection.Options

/-! # Counting combinations

Whether the picks from a board are few enough to be listed is decided by a count that lists
none of them. It builds each binomial coefficient factor by factor, and a product that does
not fit into 64 bits stays at the largest number. From there on the count is wrong, and the
divisions that follow make it smaller again. Still it is on the right side of the limit: a
coefficient is built up to half of its items only, so each further factor is at least one,
and the largest number is beyond the limit after any of the divisions.

Main statements: `agreeToLimit_binomialUpTo` for one coefficient, `agreeToLimit_combinationCount`
for the count and `enumeration_exact` for the limits of boards and of ranges of numbers.
-/

namespace Tabletop

open Offer (maxCombinations)

/-! ### Counts beyond the limit -/

/-- Two counts are the same, or both are beyond the limit. -/
def AgreeToLimit (a b : Nat) : Prop := a = b ∨ maxCombinations < a ∧ maxCombinations < b

section Agree

variable {a b c d : Nat}

theorem AgreeToLimit.le_iff (h : AgreeToLimit a b) :
    a ≤ maxCombinations ↔ b ≤ maxCombinations := by
  rcases h with rfl | ⟨beyond, beyond'⟩
  · exact Iff.rfl
  · exact iff_of_false (Nat.not_le.2 beyond) (Nat.not_le.2 beyond')

theorem AgreeToLimit.add (h : AgreeToLimit a b) (h' : AgreeToLimit c d) :
    AgreeToLimit (saturatingCountAdd a c) (b + d) := by
  have room : maxCombinations < maxCount64 := by decide
  unfold AgreeToLimit at *
  unfold saturatingCountAdd
  omega

end Agree

/-! ### One coefficient -/

/-- The binomial coefficient of `n` items, built up by so many factors. -/
def binomialUpTo (n i : Nat) : Nat :=
  (List.range i).foldl (fun acc i => saturatingCountMul acc (n - i) / (i + 1)) 1

/-- None of the first factors takes the coefficient beyond 64 bits. -/
def Unsaturated (n i : Nat) : Prop := ∀ j < i, binomialUpTo n j * (n - j) ≤ maxCount64

section Coefficient

variable {n i k low high : Nat}

theorem binomialUpTo_succ (n i : Nat) :
    binomialUpTo n (i + 1) = saturatingCountMul (binomialUpTo n i) (n - i) / (i + 1) := by
  simp [binomialUpTo, List.range_succ]

theorem choose_succ_eq (n i : Nat) : n.choose (i + 1) = n.choose i * (n - i) / (i + 1) := by
  apply Nat.eq_div_of_mul_eq_left (Nat.succ_ne_zero i)
  exact Nat.choose_succ_right_eq n i

/-- As long as all products fit, the coefficient is exact. -/
theorem binomialUpTo_eq_choose (fits : Unsaturated n i) : binomialUpTo n i = n.choose i := by
  induction i with
  | zero => simp [binomialUpTo]
  | succ i ih =>
      have built : binomialUpTo n i = n.choose i := ih fun j lt => fits j (Nat.lt_succ_of_lt lt)
      have fits : n.choose i * (n - i) ≤ maxCount64 := built ▸ fits i (Nat.lt_succ_self i)
      rw [binomialUpTo_succ, built, saturatingCountMul, Nat.min_eq_left fits, choose_succ_eq]

/-- As long as all products fit, a division leaves no remainder. -/
theorem dvd_binomialUpTo_mul (fits : Unsaturated n i) : i + 1 ∣ binomialUpTo n i * (n - i) := by
  rw [binomialUpTo_eq_choose fits, ← Nat.choose_succ_right_eq]
  exact Nat.dvd_mul_left _ _

/-- A product that is far enough beyond the limit stays beyond it when it is divided. -/
theorem beyond_of_div {product : Nat} (h : (maxCombinations + 1) * (i + 1) ≤ product) :
    maxCombinations < product / (i + 1) :=
  (Nat.le_div_iff_mul_le (Nat.succ_pos i)).2 h

/-- One more factor in the lower half keeps a coefficient on its side of the limit. -/
theorem AgreeToLimit.binomialUpTo_succ (few : n ≤ 2 ^ 53) (half : 2 * (i + 1) ≤ n)
    (h : AgreeToLimit (binomialUpTo n i) (n.choose i)) :
    AgreeToLimit (binomialUpTo n (i + 1)) (n.choose (i + 1)) := by
  -- The divisor is at most half of 2 ^ 53, so the largest number divided by it is beyond the limit.
  have room : (maxCombinations + 1) * (i + 1) ≤ maxCount64 := by
    simp only [maxCombinations, maxCount64, UInt64.size]
    omega
  -- In the lower half no factor is below the divisor that follows it.
  have grows : i + 1 ≤ n - i := by omega
  rw [Tabletop.binomialUpTo_succ, choose_succ_eq, saturatingCountMul]
  rcases h with same | ⟨beyond, beyond'⟩
  · rw [same]
    rcases Nat.le_total (n.choose i * (n - i)) maxCount64 with fits | large
    · rw [Nat.min_eq_left fits]
      exact .inl rfl
    · rw [Nat.min_eq_right large]
      exact .inr ⟨beyond_of_div room, beyond_of_div (Nat.le_trans room large)⟩
  · have stays : ∀ {count}, maxCombinations < count →
        (maxCombinations + 1) * (i + 1) ≤ count * (n - i) := fun beyond =>
      Nat.mul_le_mul beyond grows
    refine .inr ⟨beyond_of_div ?_, beyond_of_div (stays beyond')⟩
    exact Nat.le_min.2 ⟨stays beyond, room⟩

/-- In the lower half a coefficient is built up on its side of the limit. -/
theorem agreeToLimit_binomialUpTo (few : n ≤ 2 ^ 53) (half : 2 * i ≤ n) :
    AgreeToLimit (binomialUpTo n i) (n.choose i) := by
  induction i with
  | zero => exact .inl (by simp [binomialUpTo])
  | succ i ih => exact (ih (by omega)).binomialUpTo_succ few half

/-- The coefficient is that of the smaller of a pick and what it leaves. -/
theorem agreeToLimit_binomial (few : n ≤ 2 ^ 53) (le : k ≤ n) :
    AgreeToLimit (binomial n k) (n.choose k) := by
  have choose_eq : n.choose (min k (n - k)) = n.choose k := by
    rcases Nat.le_total k (n - k) with smaller | larger
    · rw [Nat.min_eq_left smaller]
    · rw [Nat.min_eq_right larger, Nat.choose_symm le]
  rw [← choose_eq]
  exact agreeToLimit_binomialUpTo few (by omega)

/-! ### The count -/

/-- A sum of counts, of which each agrees with another one, agrees with the sum of these. -/
theorem agreeToLimit_foldl {sizes : List Nat} {count count' : Nat → Nat} {total total' : Nat}
    (agree : ∀ k ∈ sizes, AgreeToLimit (count k) (count' k)) (h : AgreeToLimit total total') :
    AgreeToLimit (sizes.foldl (fun total k => saturatingCountAdd total (count k)) total)
      (total' + (sizes.map count').sum) := by
  induction sizes generalizing total total' with
  | nil => simpa using h
  | cons k sizes ih =>
      obtain ⟨first, rest⟩ := List.forall_mem_cons.1 agree
      rw [List.foldl_cons, List.map_cons, List.sum_cons, ← Nat.add_assoc]
      exact ih rest (h.add first)

/-- The sets of places among `n` that have a size within the bounds. -/
def placeSets (n low high : Nat) : Finset (Finset (Fin n)) :=
  Finset.univ.filter fun places => places.card ∈ Finset.Icc low (min high n)

theorem sum_sizesBetween (low high : Nat) (count : Nat → Nat) :
    ((sizesBetween low high).map count).sum = ∑ k ∈ Finset.Icc low high, count k := by
  rw [sizesBetween, Nat.Icc_eq_range']
  rfl

/-- The sets of a size within the bounds are all the sets of that size. -/
theorem filter_placeSets (mem : k ∈ Finset.Icc low (min high n)) :
    (placeSets n low high).filter (fun places => places.card = k) = Finset.univ.powersetCard k := by
  ext places
  simp only [placeSets, Finset.mem_filter, Finset.mem_univ, true_and, Finset.mem_powersetCard_univ]
  constructor
  · exact And.right
  · rintro rfl
    exact ⟨mem, rfl⟩

theorem card_placeSets (n low high : Nat) :
    (placeSets n low high).card = ((sizesBetween low (min high n)).map n.choose).sum := by
  calc (placeSets n low high).card
      = ∑ k ∈ Finset.Icc low (min high n),
          ((placeSets n low high).filter fun places => places.card = k).card :=
        Finset.card_eq_sum_card_fiberwise fun places mem => (Finset.mem_filter.1 mem).2
    _ = ∑ k ∈ Finset.Icc low (min high n), n.choose k := by
        apply Finset.sum_congr rfl
        intro k mem
        rw [filter_placeSets mem, Finset.card_powersetCard, Finset.card_univ, Fintype.card_fin]
    _ = ((sizesBetween low (min high n)).map n.choose).sum := (sum_sizesBetween ..).symm

/-- The count agrees with the number of sets of places. -/
theorem agreeToLimit_combinationCount (few : n ≤ 2 ^ 53) :
    AgreeToLimit (combinationCount n low high) (placeSets n low high).card := by
  rw [card_placeSets, ← Nat.zero_add (List.sum _)]
  apply agreeToLimit_foldl
  · intro k mem
    have le : k ≤ min high n := (mem_sizesBetween.1 mem).2
    exact agreeToLimit_binomial few (Nat.le_trans le (Nat.min_le_right _ _))
  · exact .inl rfl

/-- How the coefficient of a size is built: no subtraction goes below zero, and no division
leaves a remainder before a product has passed 64 bits. -/
structure BuiltExactly (n k : Nat) : Prop where
  size_le : k ≤ n
  binomial_eq : binomial n k = binomialUpTo n (min k (n - k))
  factor_le : ∀ i < min k (n - k), i ≤ n
  dvd : ∀ i < min k (n - k), Unsaturated n (i + 1) →
    i + 1 ∣ saturatingCountMul (binomialUpTo n i) (n - i)

theorem builtExactly (le : k ≤ n) : BuiltExactly n k where
  size_le := le
  binomial_eq := rfl
  factor_le i lt := by omega
  dvd i lt fits := by
    have dvd := dvd_binomialUpTo_mul fun j lt => fits j (Nat.lt_succ_of_lt lt)
    rwa [saturatingCountMul, Nat.min_eq_left (fits i (Nat.lt_succ_self i))]

end Coefficient

/-! ### The lists -/

/-- There are as many combinations as sets of places of their size. -/
theorem length_combinations {α : Type} (xs : List α) (size : Nat) :
    (combinations xs size).length = xs.length.choose size := by
  induction xs generalizing size with
  | nil => cases size <;> rfl
  | cons x xs ih =>
      cases size with
      | zero => simp [combinations]
      | succ size =>
          rw [combinations]
          split
          · rename_i few
            rw [List.length_cons, Nat.choose_eq_zero_of_lt (by omega)]
            rfl
          · rw [List.length_append, List.length_map, ih, ih, List.length_cons,
              Nat.choose_succ_succ]

/-- A difference that is kept within 64 bits is on its side of every bound but the least. -/
theorem saturatingSub_lt {a b bound : Int64} (h : Int64.minValue < bound) :
    saturatingSub a b < bound ↔ a.toInt - b.toInt < bound.toInt := by
  have low := bound.le_toInt
  have high := bound.toInt_lt
  rw [Int64.lt_iff_toInt_lt] at h ⊢
  unfold saturatingSub nearestInt64
  split
  · omega
  · split
    · rename_i large
      have max_eq : Int64.maxValue.toInt = 2 ^ 63 - 1 := by decide
      omega
    · rename_i small large
      have min_eq : Int64.minValue.toInt = -2 ^ 63 := by decide
      have max_eq : Int64.maxValue.toInt = 2 ^ 63 - 1 := by decide
      rw [Int64.toInt_ofInt_of_le (by omega) (by omega)]

namespace Offer

variable {o : Offer} {choices : List Argument} {low high : Nat} {least most : Int64}

theorem length_numbersBetween (least most : Int64) :
    (numbersBetween least most).length = (most.toInt - least.toInt + 1).toNat := by
  simp [numbersBetween]

/-- Offers list something only if they are bounded and possible. -/
theorem bounded_and_possible (h : o.options ≠ []) : o.isBounded ∧ o.isPossible := by
  by_contra neither
  apply h
  rw [options, if_neg (by simpa using neither)]

section Several

variable (h : o.kind = .board choices (some low) (some high))

include h

theorem isBounded_several (few : choices.length ≤ 2 ^ 53) :
    o.isBounded ↔ (placeSets choices.length low high).card ≤ maxCombinations := by
  rw [← (agreeToLimit_combinationCount few).le_iff]
  simp [isBounded, h]

/-- Several choices are listed once for each set of their places. -/
theorem length_options_several (listed : o.options ≠ []) :
    o.options.length = (placeSets choices.length low high).card := by
  obtain ⟨bounded, possible⟩ := bounded_and_possible listed
  simp only [options, bounded, possible, Bool.and_self, if_true, h, List.length_map,
    List.length_flatMap, length_combinations, card_placeSets]

end Several

theorem isBounded_number (h : o.kind = .number least (some most)) :
    o.isBounded ↔ most.toInt - least.toInt < 100 := by
  have limit : Int64.minValue < maxNumbers := by decide
  have limit_eq : maxNumbers.toInt = 100 := by decide
  rw [← limit_eq, ← saturatingSub_lt limit]
  simp [isBounded, h]

theorem isBounded_openNumber (h : o.kind = .number least none) : o.isBounded = false := by
  simp [isBounded, h]

theorem length_options_number (h : o.kind = .number least (some most)) (listed : o.options ≠ []) :
    (o.options.length : Int) = most.toInt - least.toInt + 1 := by
  obtain ⟨bounded, possible⟩ := bounded_and_possible listed
  have le : least ≤ most := by simpa [isPossible, h] using possible
  rw [Int64.le_iff_toInt_le] at le
  simp only [options, bounded, possible, Bool.and_self, if_true, h, List.length_map,
    length_numbersBetween]
  omega

/-- The limits of what is listed are decided exactly. Several choices on a board are bounded if
there are at most 1000 sets of places with a size within the bounds, and then as many picks are
listed, if any; the coefficients are counted without going below zero and, up to the point
where one saturates, without remainder. A range of numbers is bounded if it has an end less
than 100 beyond its start, and then all its numbers are listed, if any. -/
theorem enumeration_exact (o : Offer) :
    (∀ choices least most, o.kind = .board choices (some least) (some most) →
      choices.length ≤ 2 ^ 53 →
        (o.isBounded ↔ (placeSets choices.length least most).card ≤ 1000) ∧
          (o.options ≠ [] → o.options.length = (placeSets choices.length least most).card ∧
            o.options.length ≤ 1000) ∧
          ∀ k ∈ sizesBetween least (min most choices.length), BuiltExactly choices.length k) ∧
      ∀ least most, o.kind = .number least most →
        (o.isBounded ↔ ∃ high, most = some high ∧ high.toInt - least.toInt < 100) ∧
          (o.options ≠ [] → ∃ high, most = some high ∧
            (o.options.length : Int) = high.toInt - least.toInt + 1 ∧ o.options.length ≤ 100) := by
  constructor
  · intro choices least most hk few
    have decides : o.isBounded ↔ (placeSets choices.length least most).card ≤ 1000 :=
      isBounded_several hk few
    refine ⟨decides, fun listed => ?_, fun k mem => ?_⟩
    · have length_eq := length_options_several hk listed
      exact ⟨length_eq, length_eq ▸ decides.1 (bounded_and_possible listed).1⟩
    · have le := (mem_sizesBetween.1 mem).2
      exact builtExactly (Nat.le_trans le (Nat.min_le_right _ _))
  · intro least most hk
    cases most with
    | none =>
        have unbounded := isBounded_openNumber hk
        refine ⟨by simp [unbounded], fun listed => ?_⟩
        have bounded := (bounded_and_possible listed).1
        rw [unbounded] at bounded
        cases bounded
    | some most =>
        have decides := isBounded_number hk
        refine ⟨by simpa using decides, fun listed => ⟨most, rfl, ?_⟩⟩
        have length_eq := length_options_number hk listed
        have few := decides.1 (bounded_and_possible listed).1
        exact ⟨length_eq, by omega⟩

/-- Four cards on the board, of which one or two are played. -/
def fourCards : Offer where
  name := "cards"
  prompt := none
  kind := .board [.text "ace", .text "two", .text "ten", .text "king"] (some 1) (some 2)
  skip := .onlyOne
  confirm := none

/-- The sides of a die. -/
def dieSides : Offer where
  name := "side"
  prompt := none
  kind := .number 1 (some 6)
  skip := .onlyOne
  confirm := none

/-- Ten picks of the cards are listed, as many as there are sets of one or two places, and six
sides of the die. -/
theorem enumeration_exact_fourCards :
    fourCards.options.length = 10 ∧ (placeSets 4 1 2).card = 10 ∧ BuiltExactly 4 2 ∧
      dieSides.isBounded ∧ dieSides.options.length = 6 := by
  have cards := (enumeration_exact fourCards).1 _ 1 2 rfl (by decide)
  have sides := (enumeration_exact dieSides).2 1 (some 6) rfl
  have listed : fourCards.options ≠ [] := by decide
  have length_eq : fourCards.options.length = 10 := by decide
  refine ⟨length_eq, ?_, cards.2.2 2 (by decide), ?_, ?_⟩
  · rw [← length_eq]
    exact (cards.2.1 listed).1.symm
  · exact sides.1.2 ⟨6, rfl, by decide⟩
  · obtain ⟨high, high_eq, length_eq, -⟩ := sides.2 (by decide)
    obtain rfl : 6 = high := Option.some.inj high_eq
    exact Int.ofNat.inj length_eq

end Offer

end Tabletop
