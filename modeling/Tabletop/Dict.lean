/-! # Dictionaries with sorted names

A dictionary lists its entries by increasing name, names compared by their
characters. Equal dictionaries are the ones with the same entries, and their
texts agree.

Main statements: `get?_insert` says what an insertion changes, and `ext_get?`
that a dictionary is determined by its look-ups.
-/

namespace Tabletop

/-- What is looked up is one of the entries. -/
theorem mem_of_lookup_eq_some {κ α : Type} [BEq κ] [LawfulBEq κ] {entries : List (κ × α)} {key : κ}
    {value : α} (h : entries.lookup key = some value) : (key, value) ∈ entries := by
  obtain ⟨before, after, rfl, -⟩ := List.lookup_eq_some_iff.1 h
  exact List.mem_append_right _ List.mem_cons_self

/-- A finite map from names, kept sorted by name. -/
structure Dict (α : Type) where
  entries : List (String × α)
  sorted : entries.Pairwise fun a b => a.1 < b.1

namespace Dict

variable {α : Type}

instance [DecidableEq α] : DecidableEq (Dict α) := fun a b =>
  decidable_of_iff (a.entries = b.entries)
    ⟨fun h => by cases a; cases b; cases h; rfl, fun h => by rw [h]⟩

/-- The dictionary without entries. -/
def empty : Dict α := ⟨[], .nil⟩

instance : Inhabited (Dict α) := ⟨empty⟩

instance : EmptyCollection (Dict α) := ⟨empty⟩

/-- The value under a name. -/
def get? (d : Dict α) (name : String) : Option α :=
  d.entries.lookup name

/-- A dictionary contains the names of its entries. -/
def contains (d : Dict α) (name : String) : Bool :=
  (d.get? name).isSome

/-- The names, in increasing order. -/
def keys (d : Dict α) : List String := d.entries.map (·.1)

/-- The number of entries. -/
def size (d : Dict α) : Nat := d.entries.length

/-- Puts an entry at its place, over an entry of the same name. -/
def insertEntry (name : String) (value : α) : List (String × α) → List (String × α)
  | [] => [(name, value)]
  | (name', value') :: rest =>
      if name < name' then (name, value) :: (name', value') :: rest
      else if name = name' then (name, value) :: rest
      else (name', value') :: insertEntry name value rest

theorem mem_insertEntry {name : String} {value : α} {e : String × α} :
    {entries : List (String × α)} → e ∈ insertEntry name value entries →
      e = (name, value) ∨ e ∈ entries
  | [], h => by simpa [insertEntry] using h
  | (name', value') :: rest, h => by
      unfold insertEntry at h
      split at h
      · simpa using h
      · split at h
        · rcases List.mem_cons.1 h with h | h
          · exact .inl h
          · exact .inr (List.mem_cons_of_mem _ h)
        · rcases List.mem_cons.1 h with h | h
          · exact .inr (h ▸ List.mem_cons_self)
          · exact (mem_insertEntry h).imp id (List.mem_cons_of_mem _)

theorem insertEntry_sorted {name : String} {value : α} :
    {entries : List (String × α)} → entries.Pairwise (fun a b => a.1 < b.1) →
      (insertEntry name value entries).Pairwise fun a b => a.1 < b.1
  | [], _ => by simp [insertEntry]
  | (name', value') :: rest, h => by
      have ⟨first, tail⟩ := List.pairwise_cons.1 h
      unfold insertEntry
      split
      · rename_i lt
        refine List.pairwise_cons.2 ⟨fun e he => ?_, h⟩
        rcases List.mem_cons.1 he with rfl | he
        · exact lt
        · exact String.lt_trans lt (first e he)
      · split
        · rename_i eq
          subst eq
          exact List.pairwise_cons.2 ⟨first, tail⟩
        · rename_i nlt neq
          refine List.pairwise_cons.2 ⟨fun e he => ?_, insertEntry_sorted tail⟩
          rcases mem_insertEntry he with rfl | he
          · exact Decidable.byContradiction fun h' =>
              neq (String.le_antisymm (String.not_lt.1 h') (String.not_lt.1 nlt))
          · exact first e he

/-- The dictionary with a value under a name. -/
def insert (d : Dict α) (name : String) (value : α) : Dict α :=
  ⟨insertEntry name value d.entries, insertEntry_sorted d.sorted⟩

/-- The dictionary of a list of entries; the last entry of a name counts. -/
def ofList (entries : List (String × α)) : Dict α :=
  entries.foldl (fun d e => d.insert e.1 e.2) empty

/-- The entries of `upper` on top of those of `d`. -/
def merge (d upper : Dict α) : Dict α :=
  upper.entries.foldl (fun d e => d.insert e.1 e.2) d

theorem lookup_cons_eq_ite (key : String) (e : String × α) (rest : List (String × α)) :
    (e :: rest).lookup key = if key = e.1 then some e.2 else rest.lookup key := by
  obtain ⟨name, value⟩ := e
  by_cases h : key = name
  · simp [h]
  · simp [List.lookup_cons, h, beq_eq_false_iff_ne.2 h]

theorem lookup_insertEntry (name key : String) (value : α) :
    (entries : List (String × α)) →
      (insertEntry name value entries).lookup key =
        if key = name then some value else entries.lookup key
  | [] => lookup_cons_eq_ite key (name, value) []
  | (name', value') :: rest => by
      unfold insertEntry
      split
      · exact lookup_cons_eq_ite ..
      · split
        · rename_i eq
          subst eq
          simp only [lookup_cons_eq_ite]
          split <;> rfl
        · rename_i neq
          simp only [lookup_cons_eq_ite, lookup_insertEntry name key value rest]
          by_cases h : key = name'
          · simp [h, Ne.symm neq]
          · simp [h]

@[simp] theorem get?_insert (d : Dict α) (name key : String) (value : α) :
    (d.insert name value).get? key = if key = name then some value else d.get? key :=
  lookup_insertEntry name key value d.entries

@[simp] theorem get?_empty (key : String) : (empty : Dict α).get? key = none := rfl

theorem lookup_eq_none_of_lt {key : String} {entries : List (String × α)}
    (h : ∀ e ∈ entries, key < e.1) : entries.lookup key = none := by
  induction entries with
  | nil => rfl
  | cons e rest ih =>
      have ne : key ≠ e.1 := fun eq => String.lt_irrefl e.1 (eq ▸ h e List.mem_cons_self)
      rw [lookup_cons_eq_ite, if_neg ne]
      exact ih fun e he => h e (List.mem_cons_of_mem _ he)

theorem eq_of_lookup_eq {a b : List (String × α)}
    (ha : a.Pairwise fun x y => x.1 < y.1) (hb : b.Pairwise fun x y => x.1 < y.1)
    (h : ∀ key, a.lookup key = b.lookup key) : a = b := by
  induction a generalizing b with
  | nil =>
      cases b with
      | nil => rfl
      | cons e rest =>
          have he := h e.1
          simp [lookup_cons_eq_ite] at he
  | cons x a ih =>
      cases b with
      | nil =>
          have hx := h x.1
          simp [lookup_cons_eq_ite] at hx
      | cons y b =>
          simp only [lookup_cons_eq_ite] at h
          obtain ⟨xlt, ha⟩ := List.pairwise_cons.1 ha
          obtain ⟨ylt, hb⟩ := List.pairwise_cons.1 hb
          have key : x.1 = y.1 := by
            refine Decidable.byContradiction fun ne => ?_
            by_cases lt : x.1 < y.1
            · have hx := h x.1
              have : b.lookup x.1 = none :=
                lookup_eq_none_of_lt fun e he => String.lt_trans lt (ylt e he)
              simp [ne, this] at hx
            · have gt : y.1 < x.1 := Decidable.byContradiction fun h' =>
                ne (String.le_antisymm (String.not_lt.1 h') (String.not_lt.1 lt))
              have hy := h y.1
              have : a.lookup y.1 = none :=
                lookup_eq_none_of_lt fun e he => String.lt_trans gt (xlt e he)
              simp [Ne.symm ne, this] at hy
          have value : x.2 = y.2 := by simpa [key] using h x.1
          have rest : a = b := by
            refine ih ha hb fun k => ?_
            by_cases hk : k = x.1
            · rw [lookup_eq_none_of_lt fun e he => hk ▸ xlt e he,
                lookup_eq_none_of_lt fun e he => (hk.trans key) ▸ ylt e he]
            · simpa [hk, key ▸ hk] using h k
          rw [Prod.ext key value, rest]

/-- Dictionaries with the same look-ups are equal. -/
theorem ext_get? {a b : Dict α} (h : ∀ key, a.get? key = b.get? key) : a = b := by
  cases a with
  | mk a ha =>
      cases b with
      | mk b hb => simpa using eq_of_lookup_eq ha hb h

/-! ### Comparing dictionaries -/

/-- A dictionary contains another one if it has its entries. -/
instance : HasSubset (Dict α) :=
  ⟨fun a b => ∀ name value, a.get? name = some value → b.get? name = some value⟩

/-- Two dictionaries agree but for some names. -/
def AgreeOff (off : String → Prop) (a b : Dict α) : Prop :=
  ∀ name, ¬off name → a.get? name = b.get? name

section Compare

variable {a b c : Dict α} {name : String} {value : α} {off off' : String → Prop}

theorem Subset.refl (a : Dict α) : a ⊆ a := fun _ _ h => h

theorem Subset.trans (h : a ⊆ b) (h' : b ⊆ c) : a ⊆ c := fun name value found =>
  h' name value (h name value found)

theorem empty_subset (a : Dict α) : empty ⊆ a := fun _ _ h => by cases h

theorem contains_eq_false : a.contains name = false ↔ a.get? name = none := by
  simp [contains]

theorem contains_iff : a.contains name ↔ ∃ value, a.get? name = some value := by
  simp [contains, Option.isSome_iff_exists]

theorem contains_of_subset (sub : a ⊆ b) (has : a.contains name) : b.contains name := by
  obtain ⟨value, found⟩ := contains_iff.1 has
  exact contains_iff.2 ⟨value, sub name value found⟩

theorem contains_insert (key : String) :
    (a.insert name value).contains key = (key == name || a.contains key) := by
  by_cases h : key = name <;> simp [contains, h]

/-- A dictionary that has the new entry as well contains the insertion. -/
theorem insert_subset (h : a ⊆ b) (found : b.get? name = some value) : a.insert name value ⊆ b := by
  intro key v hv
  rw [get?_insert] at hv
  split at hv
  · rename_i same
    subst same
    cases hv
    exact found
  · exact h key v hv

theorem subset_insert (fresh : a.get? name = none) (value : α) : a ⊆ a.insert name value := by
  intro key v hv
  have ne : key ≠ name := by
    rintro rfl
    rw [fresh] at hv
    cases hv
  simpa [ne] using hv

theorem AgreeOff.mono (h : AgreeOff off a b) (weaker : ∀ name, off name → off' name) :
    AgreeOff off' a b := fun name kept => h name fun out => kept (weaker name out)

theorem AgreeOff.trans (h : AgreeOff off a b) (h' : AgreeOff off b c) : AgreeOff off a c :=
  fun name kept => (h name kept).trans (h' name kept)

theorem get?_foldl_insert {entries : List (String × α)}
    (sorted : entries.Pairwise fun a b => a.1 < b.1) (d : Dict α) (key : String) :
    (entries.foldl (fun d e => d.insert e.1 e.2) d).get? key =
      (entries.lookup key).or (d.get? key) := by
  induction entries generalizing d with
  | nil => rfl
  | cons e rest ih =>
      obtain ⟨first, rest_sorted⟩ := List.pairwise_cons.1 sorted
      rw [List.foldl_cons, ih rest_sorted, get?_insert, lookup_cons_eq_ite]
      by_cases same : key = e.1
      · rw [if_pos same, if_pos same, same, lookup_eq_none_of_lt first]
        rfl
      · rw [if_neg same, if_neg same]

theorem get?_merge (a b : Dict α) (key : String) :
    (a.merge b).get? key = (b.get? key).or (a.get? key) := get?_foldl_insert b.sorted a key

theorem empty_merge (b : Dict α) : empty.merge b = b := by
  apply ext_get?
  intro key
  rw [get?_merge, get?_empty, Option.or_none]

/-- An entry that is inserted on top may as well be inserted into the upper part. -/
theorem merge_insert (a b : Dict α) (name : String) (value : α) :
    a.merge (b.insert name value) = (a.merge b).insert name value := by
  apply ext_get?
  intro key
  rw [get?_insert, get?_merge, get?_merge, get?_insert]
  split <;> rfl

theorem subset_merge (a b : Dict α) : b ⊆ a.merge b := by
  intro name value found
  rw [get?_merge, found]
  rfl

/-- Merging changes nothing if all entries are there. -/
theorem merge_of_subset (h : b ⊆ a) : a.merge b = a := by
  apply ext_get?
  intro key
  rw [get?_merge]
  cases found : b.get? key with
  | none => rfl
  | some value => rw [h key value found]; rfl

/-- Two dictionaries agree on a name that the smaller one has. -/
theorem AgreeOff.of_contains (h : AgreeOff (fun key => key = name ∨ off key) a b) (sub : a ⊆ b)
    (has : a.contains name) : AgreeOff off a b := by
  intro key kept
  by_cases same : key = name
  · subst same
    obtain ⟨value, found⟩ := contains_iff.1 has
    rw [found, sub key value found]
  · exact h key fun out => out.elim same kept

end Compare

end Dict

end Tabletop
