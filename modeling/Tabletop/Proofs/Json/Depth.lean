import Tabletop.Proofs.Json.RoundTrip

/-! # How deep a text nests

A reader goes only so deep, and what lies deeper has no value. So whatever text it reads, the
value nests no deeper than that, and a reader that goes there again can read it back from
what is written for it. For texts written plainly no such limit is needed to tell them apart.

Main statements: `nesting_parse_le` and `render_injective`.
-/

namespace Tabletop.Json

section Depth

variable {depth : Nat} {value : Json} {rest : Option (List Char)}

theorem nesting_ifShallow_le (shallow : 0 < depth → value.nesting ≤ depth) :
    (ifShallow depth value rest).nesting ≤ depth := by
  unfold ifShallow
  split
  · split <;> exact Nat.zero_le _
  · exact shallow (by omega)

theorem nesting_arr_le {items : List Json} (shallow : itemsNesting items ≤ depth - 1)
    (positive : 0 < depth) : (arr items).nesting ≤ depth := by
  rw [nesting]
  omega

theorem nesting_obj_le {members : List (String × Json)}
    (shallow : membersNesting members ≤ depth - 1) (positive : 0 < depth) :
    (obj members).nesting ≤ depth := by
  rw [nesting]
  omega

/-- Numbers do not nest. -/
theorem nesting_readNumber {negative : Bool} {s after : List Char}
    (number : readNumber negative s = some (value, after)) : value.nesting = 0 := by
  simp only [readNumber, Option.bind_eq_bind, Option.bind_eq_some_iff] at number
  obtain ⟨_, -, _, -, _, -, number⟩ := number
  split at number
  · cases number
    rfl
  · split at number <;> cases number <;> rfl

theorem membersNesting_cons_le {key : Option String} {members : List (String × Json)}
    (first : value.nesting ≤ depth) (others : membersNesting members ≤ depth) :
    membersNesting (memberUnder key value :: members) ≤ depth := by
  cases key <;> exact Nat.max_le.2 ⟨first, others⟩

/-- What the three readers return with some fuel nests no deeper than they go. -/
structure StaysWithin (fuel : Nat) : Prop where
  value : ∀ depth s, (read fuel depth s).1.nesting ≤ depth
  items : ∀ depth s, itemsNesting (readItems fuel depth s).1 ≤ depth
  members : ∀ depth s, membersNesting (readMembers fuel depth s).1 ≤ depth

namespace StaysWithin

variable {fuel : Nat} (within : StaysWithin fuel) (depth : Nat) (s : List Char)

include within

/-- What an array or an object holds is read one level deeper. -/
theorem read_succ : (read (fuel + 1) depth s).1.nesting ≤ depth := by
  unfold read
  split
  · exact Nat.zero_le _
  · exact Nat.zero_le _
  · exact Nat.zero_le _
  · split <;> exact Nat.zero_le _
  · split
    · exact nesting_ifShallow_le (nesting_arr_le (Nat.zero_le _))
    · exact nesting_ifShallow_le (nesting_arr_le (within.items _ _))
  · split
    · exact nesting_ifShallow_le (nesting_obj_le (Nat.zero_le _))
    · exact nesting_ifShallow_le (nesting_obj_le (within.members _ _))
  · split
    · rename_i number
      exact Nat.le_trans (Nat.le_of_eq (nesting_readNumber number)) (Nat.zero_le _)
    · exact Nat.zero_le _
  · split
    · rename_i number
      exact Nat.le_trans (Nat.le_of_eq (nesting_readNumber number)) (Nat.zero_le _)
    · exact Nat.zero_le _

theorem readItems_succ : itemsNesting (readItems (fuel + 1) depth s).1 ≤ depth := by
  have first := within.value depth s
  unfold readItems
  generalize read fuel depth s = found at first
  obtain ⟨item, _ | after⟩ := found
  · exact Nat.max_le.2 ⟨first, Nat.zero_le _⟩
  · dsimp only
    split
    · exact Nat.max_le.2 ⟨first, Nat.zero_le _⟩
    · exact Nat.max_le.2 ⟨first, within.items _ _⟩
    · exact Nat.max_le.2 ⟨first, Nat.max_le.2 ⟨Nat.zero_le _, Nat.zero_le _⟩⟩

theorem readMembers_succ : membersNesting (readMembers (fuel + 1) depth s).1 ≤ depth := by
  unfold readMembers
  cases readKey s with
  | none => exact Nat.max_le.2 ⟨Nat.zero_le _, Nat.zero_le _⟩
  | some found =>
      obtain ⟨key, s⟩ := found
      have first := within.value depth s
      dsimp only
      generalize read fuel depth s = found at first
      obtain ⟨value, _ | after⟩ := found
      · exact membersNesting_cons_le first (Nat.zero_le _)
      · dsimp only
        split
        · exact membersNesting_cons_le first (Nat.zero_le _)
        · exact membersNesting_cons_le first (within.members _ _)
        · exact membersNesting_cons_le first (Nat.max_le.2 ⟨Nat.zero_le _, Nat.zero_le _⟩)

end StaysWithin

theorem staysWithin (fuel : Nat) : StaysWithin fuel := by
  induction fuel with
  | zero =>
      refine ⟨fun _ _ => Nat.zero_le _, ?_, ?_⟩
      · intro depth s
        simp [readItems, itemsNesting, nesting]
      · intro depth s
        simp [readMembers, membersNesting, nesting]
  | succ fuel ih => exact ⟨ih.read_succ, ih.readItems_succ, ih.readMembers_succ⟩

end Depth

/-- What is read of a text nests no deeper than a reader goes. -/
theorem nesting_parse_le (s : List Char) : (parse s).1.nesting ≤ maxDepth :=
  (staysWithin _).value _ _

/-- Plain values with the same text are the same. -/
theorem render_injective {a b : Json} (plain_a : Plain a) (plain_b : Plain b)
    (same : a.render = b.render) : a = b := by
  have ends : EndsNumber [] := nofun
  have a_back : read (2 * a.render.length) (max a.nesting b.nesting) (a.render ++ []) =
      (a, some []) :=
    readsBack_of_plain plain_a ends (Nat.le_refl _) (Nat.le_max_left _ _)
  have b_back : read (2 * a.render.length) (max a.nesting b.nesting) (a.render ++ []) =
      (b, some []) := by
    rw [same]
    exact readsBack_of_plain plain_b ends (Nat.le_refl _) (Nat.le_max_right _ _)
  exact (Prod.ext_iff.1 (a_back.symm.trans b_back)).1

end Tabletop.Json
