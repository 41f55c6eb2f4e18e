import Tabletop.Selection.OfferJson
import Tabletop.Proofs.Argument.RoundTrip

/-! # Reading offers back

The fields of a kind stand among those of the offer, under keys that no other field has, and
the name of the kind says which of them to expect. So an offer is read back whole from what a
client is sent, its bounds and texts included where there are any.

Main statement: `Offer.decode_written`.
-/

namespace Tabletop

open Json

/-! ### Policies, entries and patterns -/

theorem SkipPolicy.ofJson_name (policy : SkipPolicy) :
    ofJson (.str policy.name) = .ok policy := by
  cases policy <;> simp [ofJson, asName, name, ofName?, ok_bind] <;> rfl

namespace Choice

theorem plain_toJson (c : Choice) : Plain c.toJson := by
  refine .obj (by simp) ?_
  simp [c.value.plain_toJson, Plain.str]

theorem ofJson_toJson (c : Choice) : ofJson c.toJson = .ok c := by
  obtain ⟨r, read, at_key⟩ := fields_of_plain ["value", "label"] c.plain_toJson
  have value_back : r.required "value" Argument.ofJson = .ok c.value :=
    Record.required_of_get? (at_key _ (by simp)) c.value.ofJson_toJson
  have label_back : r.required "label" asString = .ok c.label :=
    Record.required_of_get? (at_key _ (by simp)) rfl
  rw [ofJson, toJson, read, ok_bind, value_back, ok_bind, label_back]
  rfl

end Choice

theorem Text.Pattern.ofJson_source (p : Text.Pattern) : ofJson (.str p.source) = .ok p := by
  rw [ofJson, asString, ok_bind, ofSource_source]
  rfl

namespace Offer

theorem areaOfJson_written (area : Int64 × Int64) :
    areaOfJson (.arr [.int area.1.toInt, .int area.2.toInt]) = .ok area := by
  rw [areaOfJson, Argument.asInt64_toInt, ok_bind, Argument.asInt64_toInt]
  rfl

/-! ### Kinds -/

namespace Kind

/-- The bounds on the number of choices on the board are numbers of 64 bits. -/
def InRange : Kind → Prop
  | board _ least most => (∀ n ∈ least, n < UInt64.size) ∧ ∀ n ∈ most, n < UInt64.size
  | choices _ | number .. | text .. | button _ | place .. => True

/-- The keys of the fields of a kind. -/
def keys : Kind → List String
  | board .. => ["boardChoices", "min", "max"]
  | choices _ => ["choices"]
  | number .. => ["min", "max"]
  | text .. => ["pattern", "initial"]
  | button _ => ["value"]
  | place .. => ["piece", "area"]

variable {kind : Kind}

theorem keys_members (kind : Kind) : (kind.members.map (·.1)).Sublist kind.keys := by
  cases kind with
  | board items least most =>
      exact .cons_cons _ (by simpa [members] using keys_member?.append keys_member?)
  | choices items => exact .refl _
  | number least most => exact .cons_cons _ keys_member?
  | text pattern initial => simpa [members, keys] using keys_member?.append keys_member?
  | button value => exact .refl _
  | place piece area => exact .cons_cons _ keys_member?

/-- The fields of a kind stand apart from those that all offers have, and from the name of
the kind. -/
theorem apart_of_mem_members {m : String × Json} (mem : m ∈ kind.members) :
    m.1 ∉ "type" :: ownKeys := by
  have among_keys : m.1 ∈ kind.keys := (keys_members kind).subset (List.mem_map_of_mem mem)
  have apart : ∀ key ∈ kind.keys, key ∉ "type" :: ownKeys := by
    cases kind <;> simp [keys, ownKeys]
  exact apart _ among_keys

theorem lookup_members (kind : Kind) (key : String) (own : key ∈ ownKeys) :
    kind.members.lookup key = none := by
  refine List.lookup_eq_none_iff.2 fun m mem => ?_
  have apart := apart_of_mem_members mem
  simpa using fun same : key = m.1 => apart (List.mem_cons_of_mem _ (same ▸ own))

/-- The keys of an offer with a kind, in order. -/
def allKeys (kind : Kind) : List String :=
  ["name", "prompt"] ++ "type" :: kind.keys ++ ["skipIf", "confirm"]

theorem nodup_allKeys (kind : Kind) : kind.allKeys.Nodup := by
  cases kind <;> simp [allKeys, keys]

theorem members_board (items : List Argument) (least most : Option Nat) :
    (board items least most).members =
      ("boardChoices", .arr (items.map Argument.toJson)) ::
        (member? "min" (least.map fun n : Nat => .int n) ++
          member? "max" (most.map fun n : Nat => .int n)) := by
  cases least <;> cases most <;> rfl

theorem plain_of_mem_members (small : kind.InRange) : ∀ m ∈ kind.members, Plain m.2 := by
  have plain_int64 : ∀ n : Int64, Plain (.int n.toInt) := fun n => (Argument.number n).plain_toJson
  cases kind with
  | board items least most =>
      have items_plain : Plain (.arr (items.map Argument.toJson)) :=
        .arr (List.forall_mem_map.2 fun item _ => item.plain_toJson)
      rw [members_board]
      refine List.forall_mem_cons.2 ⟨items_plain, List.forall_mem_append.2 ⟨?_, ?_⟩⟩
      · exact plain_member? fun n mem => plain_index (small.1 n mem)
      · exact plain_member? fun n mem => plain_index (small.2 n mem)
  | choices items =>
      have items_plain : Plain (.arr (items.map Choice.toJson)) :=
        .arr (List.forall_mem_map.2 fun item _ => item.plain_toJson)
      exact List.forall_mem_singleton.2 items_plain
  | number least most =>
      exact List.forall_mem_cons.2 ⟨plain_int64 least, plain_member? fun n _ => plain_int64 n⟩
  | text pattern initial =>
      exact List.forall_mem_append.2
        ⟨plain_member? fun p _ => .str p.source, plain_member? fun s _ => .str s⟩
  | button value => exact List.forall_mem_singleton.2 value.plain_toJson
  | place piece area =>
      have area_plain : ∀ a ∈ area, Plain (.arr [.int a.1.toInt, .int a.2.toInt]) :=
        fun a _ => .arr (by simp [plain_int64])
      exact List.forall_mem_cons.2 ⟨piece.plain_toJson, plain_member? area_plain⟩

theorem plain_members (small : kind.InRange) : Plain (.obj kind.members) := by
  refine .obj ?_ (plain_of_mem_members small)
  refine (keys_members kind).nodup ?_
  cases kind <;> simp [keys]

theorem ofFields_board {items : List Argument} {least most : Option Nat}
    (small : (board items least most).InRange)
    (plain : Plain (.obj (board items least most).members)) :
    ofFields "board" (.obj (board items least most).members) = .ok (board items least most) := by
  obtain ⟨r, read, at_key⟩ := fields_of_plain ["boardChoices", "min", "max"] plain
  rw [members_board] at at_key
  have items_back : r.required "boardChoices" (asList Argument.ofJson) = .ok items :=
    Record.required_of_get? (at_key _ (by simp)) (Argument.asList_toJson items)
  have least_written : r.get? "min" = least.map fun n : Nat => .int n := by
    rw [at_key _ (by simp)]
    simp [List.lookup_cons, List.lookup_append, lookup_member?]
  have least_back : r.orElse "min" none (nullable asIndex) = .ok least :=
    Record.orElse_nullable least_written fun n mem => nullable_index (small.1 n mem)
  have most_written : r.get? "max" = most.map fun n : Nat => .int n := by
    rw [at_key _ (by simp)]
    simp [List.lookup_cons, List.lookup_append, lookup_member?]
  have most_back : r.orElse "max" none (nullable asIndex) = .ok most :=
    Record.orElse_nullable most_written fun n mem => nullable_index (small.2 n mem)
  simp only [ofFields, if_true, read, items_back, least_back, most_back, ok_bind]
  rfl

theorem ofFields_number {least : Int64} {most : Option Int64}
    (plain : Plain (.obj (number least most).members)) :
    ofFields "number" (.obj (number least most).members) = .ok (number least most) := by
  obtain ⟨r, read, at_key⟩ := fields_of_plain ["min", "max"] plain
  have least_back : r.required "min" asInt64 = .ok least :=
    Record.required_of_get? (at_key _ (by simp)) (Argument.asInt64_toInt least)
  have most_written : r.get? "max" = most.map fun n => .int n.toInt := by
    rw [at_key _ (by simp)]
    simp [members, List.lookup_cons, lookup_member?]
  have most_back : r.orElse "max" none (nullable asInt64) = .ok most :=
    Record.orElse_nullable most_written fun n _ =>
      nullable_of_reads nofun (Argument.asInt64_toInt n)
  simp only [ofFields, String.reduceEq, if_false, if_true, read, least_back, most_back, ok_bind]
  rfl

theorem ofFields_text {pattern : Option Text.Pattern} {initial : Option String}
    (plain : Plain (.obj (text pattern initial).members)) :
    ofFields "text" (.obj (text pattern initial).members) = .ok (text pattern initial) := by
  obtain ⟨r, read, at_key⟩ := fields_of_plain ["pattern", "initial"] plain
  have pattern_written : r.get? "pattern" = pattern.map fun p => .str p.source := by
    rw [at_key _ (by simp)]
    simp [members, List.lookup_append, lookup_member?]
  have pattern_back : r.orElse "pattern" none (nullable Text.Pattern.ofJson) = .ok pattern :=
    Record.orElse_nullable pattern_written fun p _ => nullable_of_reads nofun p.ofJson_source
  have initial_written : r.get? "initial" = initial.map .str := by
    rw [at_key _ (by simp)]
    simp [members, List.lookup_append, lookup_member?]
  have initial_back : r.orElse "initial" none (nullable asString) = .ok initial :=
    Record.orElse_nullable initial_written fun _ _ => rfl
  simp only [ofFields, String.reduceEq, if_false, if_true, read, pattern_back, initial_back,
    ok_bind]
  rfl

theorem ofFields_place {piece : Argument} {area : Option (Int64 × Int64)}
    (plain : Plain (.obj (place piece area).members)) :
    ofFields "place" (.obj (place piece area).members) = .ok (place piece area) := by
  obtain ⟨r, read, at_key⟩ := fields_of_plain ["piece", "area"] plain
  have piece_back : r.required "piece" Argument.ofJson = .ok piece :=
    Record.required_of_get? (at_key _ (by simp)) piece.ofJson_toJson
  have area_written : r.get? "area" = area.map fun a => .arr [.int a.1.toInt, .int a.2.toInt] := by
    rw [at_key _ (by simp)]
    simp [members, List.lookup_cons, lookup_member?]
  have area_back : r.orElse "area" none (nullable areaOfJson) = .ok area :=
    Record.orElse_nullable area_written fun a _ => nullable_of_reads nofun (areaOfJson_written a)
  simp only [ofFields, String.reduceEq, if_false, if_true, read, piece_back, area_back, ok_bind]
  rfl

/-- A kind is read back from its fields, by its name. -/
theorem ofFields_members (small : kind.InRange) :
    ofFields kind.name (.obj kind.members) = .ok kind := by
  have plain := plain_members small
  cases kind with
  | board items least most => exact ofFields_board small plain
  | choices items =>
      obtain ⟨r, read, at_key⟩ := fields_of_plain ["choices"] plain
      have items_back : r.required "choices" (asList Choice.ofJson) = .ok items :=
        Record.required_of_get? (at_key _ (by simp)) (asList_map fun c _ => c.ofJson_toJson)
      simp only [ofFields, name, String.reduceEq, if_false, if_true, read, items_back, ok_bind]
      rfl
  | number least most => exact ofFields_number plain
  | text pattern initial => exact ofFields_text plain
  | button value =>
      obtain ⟨r, read, at_key⟩ := fields_of_plain ["value"] plain
      have value_back : r.required "value" Argument.ofJson = .ok value :=
        Record.required_of_get? (at_key _ (by simp)) value.ofJson_toJson
      simp only [ofFields, name, String.reduceEq, if_false, if_true, read, value_back, ok_bind]
      rfl
  | place piece area => exact ofFields_place plain

end Kind

/-! ### Offers -/

variable {o : Offer}

/-- The members of an offer: its own fields stand around those of its kind. -/
def members (o : Offer) : List (String × Json) :=
  ("name", .str o.name) :: member? "prompt" (o.prompt.map .str) ++
    ("type", .str o.kind.name) :: o.kind.members ++
    ("skipIf", .str o.skip.name) :: member? "confirm" (o.confirm.map .str)

theorem toJson_eq (o : Offer) : o.toJson = .obj o.members := rfl

theorem plain_toJson (small : o.kind.InRange) : Plain o.toJson := by
  have keys_sublist : (o.members.map (·.1)).Sublist o.kind.allKeys := by
    simp only [members, List.map_append, List.map_cons]
    exact ((keys_member?.cons_cons _).append ((Kind.keys_members o.kind).cons_cons _)).append
      (keys_member?.cons_cons _)
  refine .obj (keys_sublist.nodup o.kind.nodup_allKeys) ?_
  have text_plain : ∀ (key : String) (found : Option String),
      ∀ m ∈ member? key (found.map .str), Plain m.2 := fun _ _ => plain_member? fun s _ => .str s
  simp only [List.forall_mem_append, List.forall_mem_cons]
  exact ⟨⟨⟨.str _, text_plain _ _⟩, .str _, Kind.plain_of_mem_members small⟩, .str _,
    text_plain _ _⟩

theorem lookup_prompt (o : Offer) : o.members.lookup "prompt" = o.prompt.map .str := by
  have apart := o.kind.lookup_members "prompt" (by simp [ownKeys])
  simp [members, List.lookup_append, List.lookup_cons, lookup_member?, apart]

theorem lookup_skipIf (o : Offer) : o.members.lookup "skipIf" = some (.str o.skip.name) := by
  have apart := o.kind.lookup_members "skipIf" (by simp [ownKeys])
  simp [members, List.lookup_append, List.lookup_cons, lookup_member?, apart]

theorem lookup_confirm (o : Offer) : o.members.lookup "confirm" = o.confirm.map .str := by
  have apart := o.kind.lookup_members "confirm" (by simp [ownKeys])
  simp [members, List.lookup_append, List.lookup_cons, lookup_member?, apart]

/-- Without its own fields, an offer has the name of its kind and the fields of the kind. -/
theorem filter_members (o : Offer) :
    (o.members.filter fun m => !ownKeys.contains m.1) =
      ("type", .str o.kind.name) :: o.kind.members := by
  have kept : (o.kind.members.filter fun m => !ownKeys.contains m.1) = o.kind.members := by
    refine List.filter_eq_self.2 fun m mem => ?_
    have apart := Kind.apart_of_mem_members mem
    simpa using fun own => apart (List.mem_cons_of_mem _ own)
  have left_out : ∀ (key : String) (value : Option Json), ownKeys.contains key →
      (member? key value).filter (fun m => !ownKeys.contains m.1) = [] := by
    intro key value own
    rw [filter_member? fun key => !ownKeys.contains key, own]
    rfl
  simp only [members, List.filter_append, List.filter_cons, kept, left_out "prompt" _ rfl,
    left_out "confirm" _ rfl]
  simp [ownKeys]

theorem ofJson_toJson (small : o.kind.InRange) : ofJson o.toJson = .ok o := by
  have plain := plain_toJson small
  rw [toJson_eq] at plain ⊢
  have kind_plain : Plain (.obj (("type", .str o.kind.name) :: o.kind.members)) := by
    rw [← filter_members]
    cases plain with
    | obj distinct each =>
        exact .obj (distinct.sublist (List.filter_sublist.map _))
          fun m mem => each m (List.mem_filter.1 mem).1
  have fields_only : (("type", Json.str o.kind.name) :: o.kind.members).filter
      (fun m => m.1 != "type") = o.kind.members := by
    rw [List.filter_cons_of_neg (by simp)]
    refine List.filter_eq_self.2 fun m mem => ?_
    have differs : m.1 ≠ "type" := fun same =>
      Kind.apart_of_mem_members mem (by rw [same]; exact List.mem_cons_self)
    simpa using differs
  obtain ⟨r, read, at_key⟩ := fields_of_plain ownKeys plain
  obtain ⟨tag, tag_read, at_tag⟩ := fields_of_plain ["type"] kind_plain
  have name_back : r.required "name" asString = .ok o.name :=
    Record.required_of_get? (at_key _ (by simp [ownKeys])) rfl
  have prompt_written : r.get? "prompt" = o.prompt.map .str := by
    rw [at_key _ (by simp [ownKeys]), lookup_prompt]
  have prompt_back : r.orElse "prompt" none (nullable asString) = .ok o.prompt :=
    Record.orElse_nullable prompt_written fun _ _ => rfl
  have skip_written : r.get? "skipIf" = some (.str o.skip.name) := by
    rw [at_key _ (by simp [ownKeys]), lookup_skipIf]
  have skip_back : r.orElse "skipIf" .onlyOne SkipPolicy.ofJson = .ok o.skip :=
    Record.orElse_of_get? skip_written o.skip.ofJson_name
  have confirm_written : r.get? "confirm" = o.confirm.map .str := by
    rw [at_key _ (by simp [ownKeys]), lookup_confirm]
  have confirm_back : r.orElse "confirm" none (nullable asString) = .ok o.confirm :=
    Record.orElse_nullable confirm_written fun _ _ => rfl
  have type_back : tag.required "type" Kind.nameOfJson = .ok o.kind.name :=
    Record.required_of_get? (at_tag _ (by simp)) rfl
  have kind_back := Kind.ofFields_members small
  have readable : membersReadable (("type", .str o.kind.name) :: o.kind.members) :=
    isReadable_of_plain kind_plain
  rw [ofJson, read, ok_bind, name_back, ok_bind, prompt_back, ok_bind, skip_back, ok_bind,
    confirm_back, ok_bind]
  simp only [filter_members, fields_only, readable, if_true, tag_read, type_back, kind_back,
    ok_bind]
  rfl

/-- An offer is read back from the text that a client is sent, unless the text nests deeper
than a reader goes. -/
theorem decode_written (small : o.kind.InRange) (shallow : o.toJson.nesting ≤ maxDepth) :
    decode ofJson o.toJson.text = .ok o :=
  decode_text (plain_toJson small) shallow (ofJson_toJson small)

/-- A pick of one or more things of all kinds, with one bound and all texts. -/
def somePieces : Offer where
  name := "pieces"
  prompt := some "Which \"pieces\"?"
  kind := .board
    [.element ⟨12⟩, .text "$p[1]", .list [.player ⟨1⟩, .list [], .number (-1)]] (some 1) none
  skip := .never
  confirm := some "Sure?"

theorem decode_written_somePieces :
    somePieces.kind.InRange ∧ somePieces.toJson.nesting ≤ maxDepth ∧
      decode ofJson somePieces.toJson.text = .ok somePieces := by
  have small : somePieces.kind.InRange := ⟨by decide, by decide⟩
  have shallow : somePieces.toJson.nesting ≤ maxDepth := by decide
  exact ⟨small, shallow, decode_written small shallow⟩

end Offer

end Tabletop
