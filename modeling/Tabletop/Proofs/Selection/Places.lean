import Tabletop.Proofs.Selection.Counting

/-! # Combinations one after another

The combinations of a size can also be found without recursion, by their places: from the
first places on, the rightmost place that has room moves on by one, and the places behind
it line up after it. This search comes to an end, and it finds what the recursion finds,
the increasing lists of places in lexicographic order.

Main statement: `combinations_by_place`.
-/

namespace Tabletop

theorem combinations_of_few {α : Type} {xs : List α} {size : Nat} (few : xs.length < size) :
    combinations xs size = [] := by
  rw [← List.length_eq_zero_iff, length_combinations, Nat.choose_eq_zero_of_lt few]

namespace Places

/-- The index of the rightmost place that can move on, so that all places stay below `n`. -/
def movable? (n : Nat) (places : List Nat) : Option Nat :=
  (List.range places.length).reverse.find? fun i =>
    places.getD i 0 < n - places.length + i

/-- The place at the index moves on by one, and the places behind it line up after it. -/
def moveOn (places : List Nat) (i : Nat) : List Nat :=
  places.take i ++ List.range' (places.getD i 0 + 1) (places.length - i)

/-- The places that come next, unless none can move on. -/
def next? (n : Nat) (places : List Nat) : Option (List Nat) :=
  (movable? n places).map (moveOn places)

/-- Going on from some places until none can move on passes these lists of places. -/
inductive Passes (n : Nat) : (places : List Nat) → (lists : List (List Nat)) → Prop
  | last {places} (stuck : next? n places = none) : Passes n places [places]
  | onward {places next lists} (moves : next? n places = some next) (rest : Passes n next lists) :
      Passes n places (places :: lists)

/-- The search for `size` of `n` places ends, and it has found these lists. Where there are
too few places it does not start. -/
def Finds (n size : Nat) (lists : List (List Nat)) : Prop :=
  if n < size then lists = [] else Passes n (List.range size) lists

section Search

variable {n x : Nat} {places next : List Nat} {lists more : List (List Nat)}

theorem Passes.unique (passes : Passes n places lists) (again : Passes n places more) :
    lists = more := by
  induction passes generalizing more with
  | last stuck =>
      cases again with
      | last => rfl
      | onward moves _ => cases stuck.symm.trans moves
  | onward moves _ ih =>
      cases again with
      | last stuck => cases stuck.symm.trans moves
      | onward moves' rest =>
          cases moves.symm.trans moves'
          rw [ih rest]

theorem length_of_next? (moves : next? n places = some next) : next.length = places.length := by
  obtain ⟨i, found, rfl⟩ := Option.map_eq_some_iff.1 moves
  have mem : i ∈ (List.range places.length).reverse := List.mem_of_find?_eq_some found
  have inside : i < places.length := by simpa using mem
  rw [moveOn, List.length_append, List.length_take, List.length_range']
  omega

/-- Behind a first place the others move on as they do by themselves. The first place moves
only when they cannot. -/
theorem next?_cons (room : places.length < n) :
    next? n (x :: places) =
      match next? n places with
      | some next => some (x :: next)
      | none =>
          if x + places.length + 1 < n then some (List.range' (x + 1) (places.length + 1))
          else none := by
  have behind : ∀ i, (x :: places).getD (i + 1) 0 < n - (places.length + 1) + (i + 1) ↔
      places.getD i 0 < n - places.length + i := by
    intro i
    rw [List.getD_cons_succ]
    omega
  have first : x < n - (places.length + 1) + 0 ↔ x + places.length + 1 < n := by omega
  rw [next?, next?, movable?, movable?, List.length_cons, List.range_succ_eq_map,
    List.reverse_cons, ← List.map_reverse, List.find?_append, List.find?_map]
  simp only [Function.comp_def, Nat.succ_eq_add_one, behind]
  cases (List.range places.length).reverse.find? fun i =>
      decide (places.getD i 0 < n - places.length + i) with
  | some i => simp [moveOn]
  | none =>
      rw [Option.map_none, Option.none_or, List.find?_singleton, List.getD_cons_zero]
      simp only [first, decide_eq_true_eq]
      split <;> simp [moveOn]

/-- With a first place in front, a search passes the same lists. It then ends, unless the
first place moves on and the search goes on from there. -/
theorem Passes.cons (passes : Passes n places lists) (room : places.length < n)
    (then_more : if x + places.length + 1 < n
      then Passes n (List.range' (x + 1) (places.length + 1)) more else more = []) :
    Passes n (x :: places) (lists.map (x :: ·) ++ more) := by
  induction passes with
  | @last places stuck =>
      have step := next?_cons (x := x) room
      rw [stuck] at step
      dsimp only at step
      rw [List.map_singleton, List.singleton_append]
      split at then_more
      · rename_i moves
        rw [if_pos moves] at step
        exact .onward step then_more
      · rename_i stays
        rw [if_neg stays] at step
        rw [then_more]
        exact .last step
  | @onward places next lists moves _ ih =>
      have step := next?_cons (x := x) room
      rw [moves] at step
      rw [← length_of_next? moves] at room then_more
      exact .onward step (ih room then_more)

end Search

/-- From the first places of a range on, the search passes the combinations of the range. -/
theorem passes_combinations {n a m size : Nat} (enough : size ≤ m) (range_end : a + m = n) :
    Passes n (List.range' a size) (combinations (List.range' a m) size) := by
  induction m generalizing a size with
  | zero =>
      obtain rfl : size = 0 := by omega
      exact .last rfl
  | succ m ih =>
      cases size with
      | zero =>
          rw [List.range'_succ, combinations]
          exact .last rfl
      | succ size =>
          have enough_left : ¬(List.range' (a + 1) m).length < size := by
            rw [List.length_range']
            omega
          rw [List.range'_succ, List.range'_succ, combinations, if_neg enough_left]
          refine (ih (by omega) (by omega)).cons ?_ ?_
          · rw [List.length_range']
            omega
          · rw [List.length_range']
            split
            · exact ih (by omega) (by omega)
            · exact combinations_of_few (by rw [List.length_range']; omega)

/-- The search ends, and it has found the combinations. -/
theorem finds_iff {n size : Nat} {lists : List (List Nat)} :
    Finds n size lists ↔ lists = combinations (List.range n) size := by
  unfold Finds
  split
  · rename_i few
    rw [combinations_of_few (by rwa [List.length_range])]
  · have passes : Passes n (List.range size) (combinations (List.range n) size) := by
      rw [List.range_eq_range', List.range_eq_range']
      exact passes_combinations (by omega) (Nat.zero_add n)
    constructor
    · exact fun also => also.unique passes
    · rintro rfl
      exact passes

end Places

/-! ### Increasing places -/

section Increasing

variable {n size : Nat} {places xs : List Nat}

/-- The combinations of an increasing list are in lexicographic order. -/
theorem pairwise_combinations (increasing : xs.Pairwise (· < ·)) :
    (combinations xs size).Pairwise (· < ·) := by
  induction xs generalizing size with
  | nil => cases size <;> simp [combinations]
  | cons x xs ih =>
      obtain ⟨least, increasing⟩ := List.pairwise_cons.1 increasing
      cases size with
      | zero => simp [combinations]
      | succ size =>
          rw [combinations]
          split
          · exact .nil
          · refine List.pairwise_append.2 ⟨?_, ih increasing, ?_⟩
            · refine List.pairwise_map.2 ((ih increasing).imp ?_)
              intro a b before
              exact List.cons_lt_cons_iff.2 (.inr ⟨rfl, before⟩)
            · -- With `x` it comes before all picks without it, which start behind it.
              intro a with_x b without_x
              obtain ⟨rest, -, rfl⟩ := List.mem_map.1 with_x
              obtain ⟨sublist, length_eq⟩ := mem_combinations.1 without_x
              cases b with
              | nil => cases length_eq
              | cons y b =>
                  have behind : x < y := least y (sublist.subset List.mem_cons_self)
                  exact List.cons_lt_cons_iff.2 (.inl behind)

theorem sublist_range_iff :
    places.Sublist (List.range n) ↔ places.Pairwise (· < ·) ∧ ∀ place ∈ places, place < n := by
  constructor
  · intro sublist
    refine ⟨List.pairwise_lt_range.sublist sublist, fun place mem => ?_⟩
    exact List.mem_range.1 (sublist.subset mem)
  · rintro ⟨increasing, below⟩
    have subset : places ⊆ List.range n := fun place mem => List.mem_range.2 (below place mem)
    have distinct : places.Nodup := increasing.imp Nat.ne_of_lt
    exact List.sublist_of_subperm_of_pairwise (distinct.subperm subset) increasing
      List.pairwise_lt_range

end Increasing

/-! ### Items at places -/

theorem combinations_map {α β : Type} (f : α → β) (xs : List α) (size : Nat) :
    combinations (xs.map f) size = (combinations xs size).map (List.map f) := by
  induction xs generalizing size with
  | nil => cases size <;> rfl
  | cons x xs ih =>
      cases size with
      | zero => simp [combinations]
      | succ size =>
          rw [List.map_cons, combinations, combinations, List.length_map]
          split
          · rfl
          · simp [ih, Function.comp_def]

/-- The combinations of any items are the items at the places of a combination. -/
theorem combinations_eq_map {α : Type} (xs : List α) (size : Nat) :
    combinations xs size =
      (combinations (List.range xs.length) size).map fun places =>
        places.filterMap (xs[·]?) := by
  have items : (List.finRange xs.length).map xs.get = xs := by simp
  have all_places : (List.finRange xs.length).map Fin.val = List.range xs.length := by simp
  have at_places : ∀ picked : List (Fin xs.length),
      picked.map xs.get = (picked.map Fin.val).filterMap (xs[·]?) := by
    intro picked
    rw [List.filterMap_map, ← List.filterMap_eq_map]
    exact List.filterMap_congr fun i _ => by simp
  calc combinations xs size
      = (combinations (List.finRange xs.length) size).map (List.map xs.get) := by
        rw [← combinations_map, items]
    _ = ((combinations (List.finRange xs.length) size).map (List.map Fin.val)).map
          fun places => places.filterMap (xs[·]?) := by
        rw [List.map_map]
        exact List.map_congr_left fun picked _ => at_places picked
    _ = _ := by rw [← combinations_map, all_places]

/-- The search for `size` of `n` places ends, and it has found the combinations of the
places. These are the increasing lists of `size` places, each once and in lexicographic
order: as many as there are choices, a single one of no places, and none of more places
than there are. The combinations of other items are the items at these places. -/
theorem combinations_by_place (n size : Nat) :
    (∀ lists, Places.Finds n size lists ↔ lists = combinations (List.range n) size) ∧
      (∀ places, places ∈ combinations (List.range n) size ↔
        places.length = size ∧ places.Pairwise (· < ·) ∧ ∀ place ∈ places, place < n) ∧
      (combinations (List.range n) size).Nodup ∧
      (combinations (List.range n) size).Pairwise (· < ·) ∧
      (combinations (List.range n) size).length = n.choose size ∧
      combinations (List.range n) 0 = [[]] ∧
      (∀ more, combinations (List.range n) (n + 1 + more) = []) ∧
      ∀ {α : Type} (xs : List α), combinations xs size =
        (combinations (List.range xs.length) size).map fun places =>
          places.filterMap (xs[·]?) := by
  have in_order : (combinations (List.range n) size).Pairwise (· < ·) :=
    pairwise_combinations List.pairwise_lt_range
  refine ⟨fun lists => Places.finds_iff, ?_, in_order.imp ne_of_lt, in_order, ?_, ?_, ?_,
    fun xs => combinations_eq_map xs size⟩
  · intro places
    rw [mem_combinations, sublist_range_iff, and_comm]
  · rw [length_combinations, List.length_range]
  · rw [combinations]
  · intro more
    exact combinations_of_few (by rw [List.length_range]; omega)

example : combinations (List.range 4) 2 =
    [[0, 1], [0, 2], [0, 3], [1, 2], [1, 3], [2, 3]] := by decide

end Tabletop
