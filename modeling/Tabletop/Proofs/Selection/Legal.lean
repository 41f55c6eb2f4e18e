import Tabletop.Selection

/-! # Legal values of an offer

The value an offer fills in, the values it lists and the offer it is narrowed to
all go by the values it accepts. The lemmas here take an offer of a single pick:
several choices on the board are accepted in any order, and listed in one.
-/

namespace Tabletop

namespace Offer

/-- The offer finds nothing wrong with the value. -/
def Accepts (o : Offer) (value : Argument) : Prop := o.refusal? value = none

variable {o : Offer} {value : Argument}

section Kind

variable {choices : List Choice} {items : List Argument} {least : Int64} {most : Option Int64}

theorem accepts_choices (h : o.kind = .choices choices) :
    o.Accepts value ↔ ∃ choice ∈ choices, choice.value = value := by
  simp [Accepts, refusal?, h]

theorem accepts_board (h : o.kind = .board items none none) :
    o.Accepts value ↔ value ∈ items := by
  simp [Accepts, refusal?, h]

theorem accepts_number (h : o.kind = .number least most) :
    o.Accepts value ↔ ∃ n, value = .number n ∧ least ≤ n ∧ ∀ m, most = some m → n ≤ m := by
  cases value with
  | number n =>
      simp only [Accepts, refusal?, h, Argument.asNumber, Argument.number.injEq, exists_eq_left']
      split
      · rename_i lt
        simp [Int64.not_le.2 lt]
      · rename_i le
        cases most <;> simp [Int64.not_lt.1 le, ite_eq_right_iff, Int64.not_lt]
  | _ => simp [Accepts, refusal?, h, Argument.asNumber]

end Kind

theorem accepts_button {expected : Argument} (h : o.kind = .button expected) :
    o.Accepts value ↔ expected = value := by
  simp [Accepts, refusal?, h]

/-- A single pick on the board has no bounds. -/
theorem bounds_of_single {items : List Argument} {least most : Option Nat}
    (single : o.isMulti = false) (h : o.kind = .board items least most) :
    least = none ∧ most = none := by
  simpa [isMulti, h] using single

/-! ### Values filled in -/

/-- A value is filled in only where there is no real choice. -/
theorem forced?_of_skipped? (skipped : o.skipped? = some value) : o.forced? = some value := by
  unfold skipped? at skipped
  split at skipped
  · cases skipped
  · exact skipped
  · exact skipped

/-- A value that is filled in is the only one accepted, if nothing is picked from
several choices. -/
theorem eq_of_skipped? {forced : Argument}
    (no_pick : ∀ choices, o.skip = .always → o.kind = .choices choices → choices.length ≤ 1)
    (skipped : o.skipped? = some forced) (h : o.Accepts value) : value = forced := by
  have forces := forced?_of_skipped? skipped
  unfold forced? at forces
  split at forces
  case h_1 expected hk =>
      cases forces
      exact ((accepts_button hk).1 h).symm
  case h_2 item hk =>
      cases forces
      simpa using (accepts_board hk).1 h
  case h_3 choice hk =>
      cases forces
      simpa [eq_comm] using (accepts_choices hk).1 h
  case h_4 first rest _ hk =>
      split at forces
      · rename_i always
        cases forces
        have few := no_pick _ always hk
        obtain rfl : rest = [] := by
          cases rest with
          | nil => rfl
          | cons second rest => simp at few
        simpa [eq_comm] using (accepts_choices hk).1 h
      · cases forces
  case h_5 least most hk =>
      split at forces
      · rename_i same
        subst same
        cases forces
        obtain ⟨n, rfl, le, bounded⟩ := (accepts_number hk).1 h
        rw [Int64.le_antisymm (bounded _ rfl) le]
      · cases forces
  case h_6 => cases forces

/-! ### Values listed -/

theorem isPossible_of_accepts (single : o.isMulti = false) (h : o.Accepts value) :
    o.isPossible := by
  cases hk : o.kind with
  | choices choices =>
      obtain ⟨choice, mem, -⟩ := (accepts_choices hk).1 h
      cases choices with
      | nil => cases mem
      | cons first rest => simp [isPossible, hk]
  | board items least most =>
      obtain ⟨rfl, rfl⟩ := bounds_of_single single hk
      have mem := (accepts_board hk).1 h
      cases items with
      | nil => cases mem
      | cons first rest => simp [isPossible, hk]
  | number least most =>
      obtain ⟨n, -, le, bounded⟩ := (accepts_number hk).1 h
      cases most with
      | none => simp [isPossible, hk]
      | some most => simpa [isPossible, hk] using Int64.le_trans le (bounded most rfl)
  | _ => simp [isPossible, hk]

theorem mem_numbersBetween {n least most : Int64} (hl : least ≤ n) (hm : n ≤ most) :
    n ∈ numbersBetween least most := by
  rw [Int64.le_iff_toInt_le] at hl hm
  refine List.mem_map.2 ⟨(n.toInt - least.toInt).toNat, ?_, ?_⟩
  · rw [List.mem_range]
    omega
  · have back : least.toInt + ((n.toInt - least.toInt).toNat : Int) = n.toInt := by omega
    rw [back, Int64.ofInt_toInt]

/-- Where the legal values are listed, each accepted value is among them. -/
theorem mem_options (single : o.isMulti = false) (bounded : o.isBounded) (h : o.Accepts value) :
    value ∈ o.options := by
  unfold options
  rw [if_pos (by simp [bounded, isPossible_of_accepts single h])]
  cases hk : o.kind with
  | choices choices => simpa using (accepts_choices hk).1 h
  | board items least most =>
      obtain ⟨rfl, rfl⟩ := bounds_of_single single hk
      exact (accepts_board hk).1 h
  | number least most =>
      cases most with
      | none => simp [isBounded, hk] at bounded
      | some most =>
          obtain ⟨n, rfl, le, le'⟩ := (accepts_number hk).1 h
          exact List.mem_map_of_mem (mem_numbersBetween le (le' most rfl))
  | _ => simp [isBounded, hk] at bounded

/-! ### Narrowed offers -/

/-- The number lies between the bounds. -/
def Spans (bounds : Option (Int64 × Int64)) (n : Int64) : Prop :=
  ∃ low high, bounds = some (low, high) ∧ low ≤ n ∧ n ≤ high

theorem spans_widen (bounds : Option (Int64 × Int64)) (n : Int64) : Spans (widen bounds n) n := by
  rcases bounds with _ | ⟨low, high⟩
  · exact ⟨n, n, rfl, Int64.le_refl n, Int64.le_refl n⟩
  · refine ⟨_, _, rfl, ?_, ?_⟩
    · split
      · exact Int64.le_refl n
      · rename_i le
        exact Int64.not_lt.1 le
    · split
      · exact Int64.le_refl n
      · rename_i le
        exact Int64.not_lt.1 le

theorem Spans.widen {bounds : Option (Int64 × Int64)} {m : Int64} (h : Spans bounds m) (n : Int64) :
    Spans (widen bounds n) m := by
  obtain ⟨low, high, rfl, low_le, le_high⟩ := h
  refine ⟨_, _, rfl, ?_, ?_⟩
  · split
    · rename_i lt
      exact Int64.le_trans (Int64.le_of_lt lt) low_le
    · exact low_le
  · split
    · rename_i lt
      exact Int64.le_trans le_high (Int64.le_of_lt lt)
    · exact le_high

theorem spans_foldl {n : Int64} {numbers : List Int64} {bounds : Option (Int64 × Int64)}
    (h : Spans bounds n ∨ n ∈ numbers) : Spans (numbers.foldl Offer.widen bounds) n := by
  induction numbers generalizing bounds with
  | nil => simpa using h
  | cons first rest ih =>
      refine ih ?_
      rcases h with spans | mem
      · exact .inl (spans.widen first)
      · rcases List.mem_cons.1 mem with rfl | mem
        · exact .inl (spans_widen bounds n)
        · exact .inr mem

theorem restrict_choices {choices : List Choice} (viable : List Argument)
    (h : o.kind = .choices choices) :
    (o.restrict viable).kind =
      .choices (choices.filter fun choice => viable.contains choice.value) := by
  simp [restrict, h]

theorem restrict_board {items : List Argument} (viable : List Argument)
    (h : o.kind = .board items none none) :
    (o.restrict viable).kind = .board (items.filter viable.contains) none none := by
  simp [restrict, h]

/-- Narrowed to some values, an offer still accepts each of them it accepted. -/
theorem accepts_restrict {viable : List Argument} (single : o.isMulti = false)
    (h : o.Accepts value) (mem : value ∈ viable) : (o.restrict viable).Accepts value := by
  cases hk : o.kind with
  | choices choices =>
      obtain ⟨choice, listed, rfl⟩ := (accepts_choices hk).1 h
      exact (accepts_choices (restrict_choices viable hk)).2
        ⟨choice, by simp [listed, mem], rfl⟩
  | board items least most =>
      obtain ⟨rfl, rfl⟩ := bounds_of_single single hk
      exact (accepts_board (restrict_board viable hk)).2 (by simp [(accepts_board hk).1 h, mem])
  | number least most =>
      obtain ⟨n, rfl, le, bounded⟩ := (accepts_number hk).1 h
      have listed : n ∈ viable.filterMap Argument.asNumber :=
        List.mem_filterMap.2 ⟨_, mem, rfl⟩
      obtain ⟨low, high, bounds, low_le, le_high⟩ :
          Spans (numberBounds? (viable.filterMap Argument.asNumber)) n := spans_foldl (.inr listed)
      have hk' : (o.restrict viable).kind = .number low (some high) := by
        simp [restrict, hk, bounds]
      exact (accepts_number hk').2 ⟨n, rfl, low_le, by simpa using le_high⟩
  | _ =>
      obtain ⟨name, prompt, kind, skip, confirm⟩ := o
      cases hk
      exact h

/-! ### Lists -/

/-- The offer lists its values: single entries of a list, or single choices on the board. -/
def IsList (o : Offer) : Prop :=
  (∃ choices, o.kind = .choices choices) ∨ ∃ items, o.kind = .board items none none

theorem IsList.isBounded (h : o.IsList) : o.isBounded := by
  rcases h with ⟨choices, hk⟩ | ⟨items, hk⟩ <;> simp [Offer.isBounded, hk]

theorem options_choices {choices : List Choice} (h : o.kind = .choices choices) :
    o.options = choices.map (·.value) := by
  cases choices <;> simp [options, isBounded, isPossible, h]

theorem options_board {items : List Argument} (h : o.kind = .board items none none) :
    o.options = items := by
  cases items <;> simp [options, isBounded, isPossible, h]

/-- A list narrowed to some values consists of its entries among them. -/
theorem options_restrict (viable : List Argument) (h : o.IsList) :
    (o.restrict viable).options = o.options.filter viable.contains := by
  rcases h with ⟨choices, hk⟩ | ⟨items, hk⟩
  · rw [options_choices hk, options_choices (restrict_choices viable hk), List.filter_map]
    rfl
  · rw [options_board hk, options_board (restrict_board viable hk)]

theorem mem_options_restrict {viable : List Argument} (h : o.IsList) :
    value ∈ (o.restrict viable).options ↔ value ∈ o.options ∧ value ∈ viable := by
  rw [options_restrict viable h, List.mem_filter, List.contains_iff_mem]

end Offer

/-- The selection is made from a list, or it is a single choice on the board. -/
def Selection.IsList {G : Type} (s : Selection G) : Prop :=
  (∃ list, s.kind = .choices list) ∨ ∃ list, s.kind = .board list none none none

/-- What such a selection offers is a list of values, whatever the answers are. -/
theorem Selection.IsList.offer {G : Type} {s : Selection G} (h : s.IsList) (g : G) (args : Args) :
    (s.offer g args).IsList := by
  rcases h with ⟨list, hk⟩ | ⟨list, hk⟩
  · exact .inl ⟨list g args, by simp [Selection.offer, Kind.offer, hk]⟩
  · exact .inr ⟨list g args, by simp [Selection.offer, Kind.offer, boardBounds, hk]⟩

end Tabletop
