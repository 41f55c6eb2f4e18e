import Tabletop.Proofs.Json.RoundTrip

/-! # Reading fields

A plain value is complete and readable, and it keeps all its members when only the last
ones of their keys are kept. The fields of a record are those members of a plain object
that have the keys of the record, in the order in which they are written.

Main statements: `record_of_plain` and `decode_text`.
-/

namespace Tabletop.Json

section Plain

variable {j : Json} {items : List Json} {members : List (String × Json)}

theorem areReadable_iff : areReadable items ↔ ∀ item ∈ items, item.isReadable := by
  induction items with
  | nil => simp [areReadable]
  | cons item rest ih => simp [areReadable, ih]

theorem membersReadable_iff : membersReadable members ↔ ∀ m ∈ members, m.2.isReadable := by
  induction members with
  | nil => simp [membersReadable]
  | cons m rest ih => simp [membersReadable, ih]

theorem areComplete_iff : areComplete items ↔ ∀ item ∈ items, item.isComplete := by
  induction items with
  | nil => simp [areComplete]
  | cons item rest ih => simp [areComplete, ih]

theorem membersComplete_iff : membersComplete members ↔ ∀ m ∈ members, m.2.isComplete := by
  induction members with
  | nil => simp [membersComplete]
  | cons m rest ih => simp [membersComplete, ih]

theorem isReadable_of_plain (plain : Plain j) : j.isReadable := by
  induction plain with
  | arr each ih => exact areReadable_iff.2 ih
  | obj distinct each ih => exact membersReadable_iff.2 ih
  | _ => rfl

theorem isComplete_of_plain (plain : Plain j) : j.isComplete := by
  induction plain with
  | arr each ih => exact areComplete_iff.2 ih
  | obj distinct each ih => exact membersComplete_iff.2 ih
  | _ => rfl

theorem lastOnlyItems_eq (each : ∀ item ∈ items, item.lastOnly = item) :
    lastOnlyItems items = items := by
  induction items with
  | nil => rfl
  | cons item rest ih =>
      obtain ⟨first, each⟩ := List.forall_mem_cons.1 each
      rw [lastOnlyItems, first, ih each]

theorem lastMembers_eq (distinct : (members.map (·.1)).Nodup)
    (each : ∀ m ∈ members, m.2.lastOnly = m.2) : lastMembers members = members := by
  induction members with
  | nil => rfl
  | cons m rest ih =>
      obtain ⟨key, value⟩ := m
      obtain ⟨new, distinct⟩ := List.nodup_cons.1 distinct
      obtain ⟨first, each⟩ := List.forall_mem_cons.1 each
      have not_again : (rest.any fun m => m.1 == key) = false := by
        apply List.any_eq_false.2
        intro m mem same
        exact new (List.mem_map.2 ⟨m, mem, by simpa using same⟩)
      rw [lastMembers, not_again, first, ih distinct each]
      rfl

theorem lastOnly_of_plain (plain : Plain j) : j.lastOnly = j := by
  induction plain with
  | arr each ih => rw [lastOnly, lastOnlyItems_eq ih]
  | obj distinct each ih => rw [lastOnly, lastMembers_eq distinct ih]
  | _ => rfl

end Plain

/-! ### Records -/

section Records

variable {keys : List String} {check : String → Json → Reading Unit}
  {found members : List (String × Json)}

theorem gather_of_plain (distinct : (members.map (·.1)).Nodup)
    (apart : ∀ m ∈ found, m.1 ∉ members.map (·.1)) (each : ∀ m ∈ members, Plain m.2)
    (checks : ∀ m ∈ members, m.1 ∈ keys → check m.1 m.2 = .ok ()) :
    gather keys check found members =
      .ok (found.reverse ++ members.filter fun m => keys.contains m.1) := by
  induction members generalizing found with
  | nil => simp [gather]
  | cons m rest ih =>
      obtain ⟨key, value⟩ := m
      obtain ⟨new, distinct⟩ := List.nodup_cons.1 distinct
      obtain ⟨plain, each⟩ := List.forall_mem_cons.1 each
      obtain ⟨accepted, checks⟩ := List.forall_mem_cons.1 checks
      have not_misnamed : ∀ j, value ≠ misnamed j := by
        rintro j rfl
        cases plain
      have not_found : (found.any fun m => m.1 == key) = false := by
        apply List.any_eq_false.2
        intro m mem same
        exact apart m mem (by simp [show m.1 = key by simpa using same])
      have apart_rest : ∀ m ∈ found, m.1 ∉ rest.map (·.1) := by
        intro m mem later
        exact apart m mem (List.mem_cons_of_mem _ later)
      rw [gather]
      · by_cases known : keys.contains key
        · have kept : ((key, value) :: rest).filter (fun m => keys.contains m.1) =
              (key, value) :: rest.filter fun m => keys.contains m.1 :=
            List.filter_cons_of_pos known
          have accepted : check key value = .ok () := accepted (by simpa using known)
          have apart_more : ∀ m ∈ (key, value) :: found, m.1 ∉ rest.map (·.1) :=
            List.forall_mem_cons.2 ⟨new, apart_rest⟩
          have goes_on := ih distinct apart_more each checks
          rw [List.reverse_cons, List.append_assoc] at goes_on
          rw [if_pos known, not_found, kept, accepted]
          exact goes_on
        · have left_out : ((key, value) :: rest).filter (fun m => keys.contains m.1) =
              rest.filter fun m => keys.contains m.1 := List.filter_cons_of_neg known
          rw [if_neg known, if_pos (isComplete_of_plain plain), left_out]
          exact ih distinct apart_rest each checks
      · exact not_misnamed

theorem lookup_filter {key : String} (wanted : key ∈ keys) :
    (members.filter fun m => keys.contains m.1).lookup key = members.lookup key := by
  induction members with
  | nil => rfl
  | cons m rest ih =>
      obtain ⟨key', value⟩ := m
      by_cases same : key = key'
      · subst same
        have known : keys.contains key := by simpa using wanted
        rw [List.filter_cons, if_pos known, List.lookup_cons_self, List.lookup_cons_self]
      · have differ : (key == key') = false := beq_false_of_ne same
        rw [List.filter_cons, List.lookup_cons, differ, ← ih]
        split
        · rw [List.lookup_cons, differ]
        · rfl

/-- A record is found in a plain object, and its fields are the members of the object. -/
theorem record_of_plain (keys : List String) (check : String → Json → Reading Unit)
    (plain : Plain (.obj members))
    (checks : ∀ m ∈ members, m.1 ∈ keys → check m.1 m.2 = .ok ()) :
    ∃ r, record keys (.obj members) check = .ok r ∧
      ∀ key ∈ keys, r.get? key = members.lookup key := by
  cases plain with
  | obj distinct each =>
      have gathers : gather keys check [] members =
          .ok (members.filter fun m => keys.contains m.1) :=
        gather_of_plain distinct (by simp) each checks
      refine ⟨⟨false, members.filter fun m => keys.contains m.1⟩, ?_, fun key => lookup_filter⟩
      rw [record, gathers]
      rfl

/-- The same for a record that is read without looking at its fields on the way. -/
theorem fields_of_plain (keys : List String) (plain : Plain (.obj members)) :
    ∃ r, record keys (.obj members) = .ok r ∧ ∀ key ∈ keys, r.get? key = members.lookup key :=
  record_of_plain keys _ plain fun _ _ _ => rfl

end Records

/-! ### Members that may be left out -/

section Optional

variable {key other : String} {value : Option Json}

theorem keys_member? : ((member? key value).map (·.1)).Sublist [key] := by
  cases value <;> simp [member?]

theorem lookup_member? :
    (member? key value).lookup other = if other = key then value else none := by
  cases value with
  | none => simp [member?]
  | some j =>
      by_cases same : other = key
      · simp [member?, same]
      · simp [member?, same, List.lookup_cons, beq_false_of_ne same]

theorem filter_member? (keeps : String → Bool) :
    (member? key value).filter (fun m => keeps m.1) =
      if keeps key then member? key value else [] := by
  cases value <;> simp [member?, List.filter_cons]

theorem plain_member? {α : Type} {write : α → Json} {found : Option α}
    (plain : ∀ a ∈ found, Plain (write a)) : ∀ m ∈ member? key (found.map write), Plain m.2 := by
  cases found with
  | none => simp [member?]
  | some a => simpa [member?] using plain

end Optional

theorem ok_bind {α β : Type} {a : α} {f : α → Reading β} : (Except.ok a >>= f) = f a := rfl

namespace Record

variable {α : Type} {r : Record} {key : String} {j : Json} {a default : α}
  {value : Json → Reading α} {write : α → Json} {found : Option α}

theorem required_of_get? (there : r.get? key = some j) (reads : value j = .ok a) :
    r.required key value = .ok a := by
  rw [required, there]
  exact reads

theorem orElse_of_get? (there : r.get? key = some j) (reads : value j = .ok a) :
    r.orElse key default value = .ok a := by
  rw [orElse, there]
  exact reads

theorem orElse_of_missing (missing : r.get? key = none) :
    r.orElse key default value = .ok default := by
  rw [orElse, missing]

theorem optional_of_get? (there : r.get? key = some j) (reads : nullable value j = .ok found) :
    r.optional key value = .ok found := by
  rw [optional, there]
  exact reads

/-- A value that is left out of the text when there is none is read back. -/
theorem orElse_nullable (written : r.get? key = found.map write)
    (reads : ∀ a ∈ found, nullable value (write a) = .ok (some a)) :
    r.orElse key none (nullable value) = .ok found := by
  cases found with
  | none => exact orElse_of_missing written
  | some a => exact orElse_of_get? written (reads a rfl)

end Record

/-! ### Numbers, lists and texts -/

/-- What is read as a value is not taken for none if it is not `null`. -/
theorem nullable_of_reads {α : Type} {value : Json → Reading α} {j : Json} {a : α}
    (not_null : j ≠ .null) (reads : value j = .ok a) : nullable value j = .ok (some a) := by
  rw [nullable, reads]
  · rfl
  · exact not_null

theorem asNatBelow_natCast {bound n : Nat} (small : n < bound) :
    asNatBelow bound (.int n) = .ok n := by
  rw [asNatBelow, if_pos ⟨Int.natCast_nonneg n, Int.ofNat_lt.2 small⟩, Int.toNat_natCast]

theorem plain_index {n : Nat} (small : n < UInt64.size) : Plain (.int n) := by
  have bound : UInt64.size = 2 ^ 64 := rfl
  exact .int (by omega)

theorem asIndex_natCast {n : Nat} (small : n < UInt64.size) : asIndex (.int n) = .ok n :=
  asNatBelow_natCast small

theorem nullable_index {n : Nat} (small : n < UInt64.size) :
    nullable asIndex (.int n) = .ok (some n) :=
  nullable_of_reads nofun (asIndex_natCast small)

section Texts

variable {α : Type} {value : Json → Reading α} {write : α → Json}

/-- A list is read back if each of its items is. -/
theorem asList_map {items : List α} (back : ∀ a ∈ items, value (write a) = .ok a) :
    asList value (.arr (items.map write)) = .ok items := by
  induction items with
  | nil => rfl
  | cons a rest ih =>
      obtain ⟨first, back⟩ := List.forall_mem_cons.1 back
      have later : (rest.map write).mapM value = .ok rest := ih back
      rw [asList, List.map_cons, List.mapM_cons, first, later]
      rfl

/-- A value that is written plainly, and not too deep, is decoded from its text. -/
theorem decode_text {j : Json} {a : α} (plain : Plain j) (shallow : j.nesting ≤ maxDepth)
    (reads : value j = .ok a) : decode value j.text = .ok a := by
  rw [decode, text, String.toList_ofList, parse_render plain shallow]
  dsimp only
  rw [reads]
  rfl

end Texts

end Tabletop.Json
