import Tabletop.Fault
import Tabletop.Proofs.Argument.RoundTrip
import Tabletop.Proofs.Json.Depth

/-! # One text for each argument

Tokens, escaped texts and other texts share the strings of JSON, and each string stands for
one argument. Several strings may stand for the same one, such as tokens with leading zeros,
but only one of them is ever written, so writing what was read and reading it again changes
nothing.

Main statement: `Argument.unambiguous`.
-/

namespace Tabletop

open Json

namespace Argument

/-! ### Nesting -/

section Nesting

variable {a : Argument}

/-- A token stands for a player or an element, and these do not nest. -/
theorem nesting_of_ofToken? {s : List Char} (token : ofToken? s = some a) :
    a.toJson.nesting = 0 := by
  unfold ofToken? at token
  split at token
  · simp only [Option.bind_eq_bind, Option.bind_eq_some_iff, Option.pure_def,
      Option.some.injEq] at token
    obtain ⟨_, -, _, -, rfl⟩ := token
    rfl
  · simp only [Option.bind_eq_bind, Option.bind_eq_some_iff, Option.pure_def,
      Option.some.injEq] at token
    obtain ⟨_, -, _, -, rfl⟩ := token
    rfl
  · cases token

theorem nesting_ofText (s : String) : (ofText s).toJson.nesting = 0 := by
  unfold ofText
  split
  · rfl
  · cases token : ofToken? s.toList with
    | none => rfl
    | some a => exact nesting_of_ofToken? token

mutual
/-- An argument nests as deep as the JSON it is read from, however that is written. -/
theorem nesting_of_ofJson : (j : Json) → {a : Argument} → ofJson j = .ok a →
    a.toJson.nesting = j.nesting
  | .bool value, a, reads => by
      cases reads
      rfl
  | .int n, a, reads => by
      rw [ofJson, map_eq_pure_bind] at reads
      obtain ⟨value, -, same⟩ := bind_eq_ok.1 reads
      cases same
      rfl
  | .str s, a, reads => by
      cases reads
      exact nesting_ofText s
  | .arr items, a, reads => by
      rw [ofJson, map_eq_pure_bind] at reads
      obtain ⟨as, items_read, same⟩ := bind_eq_ok.1 reads
      cases same
      rw [toJson, nesting, nesting, itemsNesting_of_listOfJson items items_read]
  | .null, _, reads | .real _, _, reads | .obj _, _, reads | .unreadable, _, reads
  | .misnamed _, _, reads | .broken, _, reads => by cases reads
termination_by structural j => j
theorem itemsNesting_of_listOfJson : (items : List Json) → {as : List Argument} →
    listOfJson items = .ok as → itemsNesting (listToJson as) = itemsNesting items
  | [], as, reads => by
      cases reads
      rfl
  | item :: rest, as, reads => by
      obtain ⟨first, item_read, reads⟩ := bind_eq_ok.1 reads
      obtain ⟨others, rest_read, same⟩ := bind_eq_ok.1 reads
      cases same
      rw [listToJson, itemsNesting, itemsNesting, nesting_of_ofJson item item_read,
        itemsNesting_of_listOfJson rest rest_read]
termination_by structural items => items
end

end Nesting

/-! ### Reading and writing -/

theorem toJson_injective {a b : Argument} (same : a.toJson = b.toJson) : a = b := by
  have back : ofJson a.toJson = .ok b := by rw [same, ofJson_toJson]
  exact Except.ok.inj (a.ofJson_toJson.symm.trans back)

theorem text_injective {a b : Argument} (same : a.toJson.text = b.toJson.text) : a = b :=
  toJson_injective (render_injective a.plain_toJson b.plain_toJson (String.ofList_injective same))

/-- An argument that nests no deeper than a reader goes is read back from its text. -/
theorem decode_of_nesting_le {a : Argument} (shallow : a.toJson.nesting ≤ maxDepth) :
    decode ofJson a.toJson.text = .ok a :=
  decode_text a.plain_toJson shallow a.ofJson_toJson

/-- An argument that was read of some text is not too deep to be read again. -/
theorem nesting_le_of_decode {written : String} {a : Argument}
    (reads : decode ofJson written = .ok a) : a.toJson.nesting ≤ maxDepth := by
  have value : ofJson (parse written.toList).1 = .ok a := by
    obtain ⟨found, value, ends⟩ := bind_eq_ok.1 reads
    split at ends
    · split at ends
      · cases ends
        exact value
      · cases ends
    · cases ends
  rw [nesting_of_ofJson _ value]
  exact nesting_parse_le _

/-- Arguments with the same text are the same. An argument that nests no deeper than a reader
goes is read back from its text, and so is every argument that was read of some text, whether
it was written like this there or not. No text is read back as a token, whatever it starts
with, and no token as a text. -/
theorem unambiguous :
    (∀ a b : Argument, a.toJson.text = b.toJson.text → a = b) ∧
    (∀ a : Argument, a.toJson.nesting ≤ maxDepth → decode ofJson a.toJson.text = .ok a) ∧
    (∀ (written : String) (a : Argument), decode ofJson written = .ok a →
      decode ofJson a.toJson.text = .ok a) ∧
    (∀ s : String, decode ofJson (text s).toJson.text = .ok (text s)) ∧
    (∀ p : Player, decode ofJson (player p).toJson.text = .ok (player p)) ∧
    ∀ e : Element, decode ofJson (element e).toJson.text = .ok (element e) := by
  refine ⟨fun _ _ => text_injective, fun _ => decode_of_nesting_le,
    fun _ _ reads => decode_of_nesting_le (nesting_le_of_decode reads), ?_, ?_, ?_⟩
  · exact fun s => decode_of_nesting_le (Nat.zero_le _)
  · exact fun p => decode_of_nesting_le (Nat.zero_le _)
  · exact fun e => decode_of_nesting_le (Nat.zero_le _)

/-- A token with a sign and leading zeros, a number that no player has, and an escaped
text. -/
def nearTokens : Argument := list [player ⟨7⟩, text "$p[256]", text "$p[1]"]

theorem unambiguous_nearTokens :
    decode ofJson "[\"$p[+007]\",\"$p[256]\",\"$$p[1]\"]" = .ok nearTokens ∧
      decode ofJson nearTokens.toJson.text = .ok nearTokens := by
  have reads : decode ofJson "[\"$p[+007]\",\"$p[256]\",\"$$p[1]\"]" = .ok nearTokens := by cbv
  obtain ⟨-, -, read_again, -⟩ := unambiguous
  exact ⟨reads, read_again _ _ reads⟩

end Argument

end Tabletop
