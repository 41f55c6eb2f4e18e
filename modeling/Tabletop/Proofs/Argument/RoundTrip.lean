import Tabletop.Argument.Wire
import Tabletop.Proofs.Json.Fields

/-! # Reading arguments back

The token of a player or an element is read as what it stands for, and an escaped text
as itself, since its first two dollar signs keep it apart from all tokens.

Main statements: `Argument.ofJson_toJson` and `Args.ofJson_toJson`.
-/

namespace Tabletop

open Json

namespace Argument

/-! ### Tokens -/

section Tokens

theorem mapM_digit? {ds : List Char} (digits : ∀ c ∈ ds, c.isDigit) :
    ds.mapM digit? = some (ds.map fun c => c.toNat - 48) := by
  induction ds with
  | nil => rfl
  | cons c ds ih =>
      obtain ⟨first, digits⟩ := List.forall_mem_cons.1 digits
      rw [List.mapM_cons, digit?_of_isDigit first, ih digits]
      rfl

/-- The number in a token is read back from its digits. -/
theorem tokenNumber?_toDigits {bound n : Nat} (small : n < bound) :
    tokenNumber? bound (Nat.toDigits 10 n) = some n := by
  have digits : ∀ c ∈ Nat.toDigits 10 n, c.isDigit := fun c =>
    Nat.isDigit_of_mem_toDigits (by omega) (by omega)
  obtain ⟨c, s, written, digit⟩ := toDigits_eq_cons n
  have no_sign : ∀ ds, Nat.toDigits 10 n ≠ '+' :: ds := by
    intro ds same
    rw [written] at same
    rw [(List.cons.inj same).1] at digit
    cases digit
  have nonempty : (Nat.toDigits 10 n).isEmpty = false := by
    rw [written]
    rfl
  rw [tokenNumber?, nonempty, mapM_digit? digits]
  · simp [ofDigits_toDigits, small]
  · exact no_sign

theorem tokenBody?_append (body : List Char) : tokenBody? (body ++ [']']) = some body := by
  simp [tokenBody?]

theorem ofText_token_player (p : Player) : ofText p.token = player p := by
  have written : p.token.toList = '$' :: 'p' :: '[' :: (Nat.toDigits 10 p.seat.toNat ++ [']']) := by
    simp [Player.token]
  have small : p.seat.toNat < UInt8.size := p.seat.toNat_lt
  have found : ofToken? ('$' :: 'p' :: '[' :: (Nat.toDigits 10 p.seat.toNat ++ [']'])) =
      some (player p) := by
    simp [ofToken?, tokenBody?_append, tokenNumber?_toDigits small]
  rw [ofText, written]
  simp [found]

theorem ofText_token_element (e : Element) : ofText e.token = element e := by
  have written : e.token.toList =
      '$' :: 'e' :: 'l' :: '[' :: (Nat.toDigits 10 e.id.toNat ++ [']']) := by
    simp [Element.token]
  have small : e.id.toNat < UInt32.size := e.id.toNat_lt
  have found : ofToken? ('$' :: 'e' :: 'l' :: '[' :: (Nat.toDigits 10 e.id.toNat ++ [']'])) =
      some (element e) := by
    simp [ofToken?, tokenBody?_append, tokenNumber?_toDigits small]
  rw [ofText, written]
  simp [found]

theorem ofText_escapeText (s : String) : ofText (escapeText s) = text s := by
  unfold escapeText
  split
  · rename_i rest starts
    have written : ("$" ++ s).toList = '$' :: '$' :: rest := by simp [starts]
    rw [ofText, written]
    simp only
    rw [← starts, String.ofList_toList]
  · rename_i no_dollar
    rw [ofText]
    split
    · rename_i rest starts
      exact absurd starts (no_dollar _)
    · have no_token : ofToken? s.toList = none := by
        unfold ofToken?
        split
        · rename_i starts
          exact absurd starts (no_dollar _)
        · rename_i starts
          exact absurd starts (no_dollar _)
        · rfl
      rw [no_token]
      rfl

end Tokens

/-! ### Arguments -/

theorem asInt64_toInt (n : Int64) : asInt64 (.int n.toInt) = .ok n := by
  rw [asInt64, if_pos ⟨n.le_toInt, n.toInt_le⟩, Int64.ofInt_toInt]

mutual
theorem plain_toJson : (a : Argument) → Plain a.toJson
  | bool value => .bool value
  | number value => .int (by
      have least : -2 ^ 63 ≤ value.toInt := value.le_toInt
      have most : value.toInt ≤ 2 ^ 63 - 1 := value.toInt_le
      omega)
  | text _ => .str _
  | player _ => .str _
  | element _ => .str _
  | list items => .arr (plain_listToJson items)
termination_by structural a => a
theorem plain_listToJson : (items : List Argument) → ∀ j ∈ listToJson items, Plain j
  | [] => by simp [listToJson]
  | item :: rest => List.forall_mem_cons.2 ⟨plain_toJson item, plain_listToJson rest⟩
termination_by structural items => items
end

theorem toJson_ne_null (a : Argument) : a.toJson ≠ .null := by
  cases a <;> nofun

mutual
theorem ofJson_toJson : (a : Argument) → ofJson a.toJson = .ok a
  | bool value => rfl
  | number value => by rw [toJson, ofJson, asInt64_toInt]; rfl
  | text value => by rw [toJson, ofJson, ofText_escapeText]
  | player value => by rw [toJson, ofJson, ofText_token_player]
  | element value => by rw [toJson, ofJson, ofText_token_element]
  | list items => by rw [toJson, ofJson, listOfJson_listToJson items]; rfl
termination_by structural a => a
theorem listOfJson_listToJson : (items : List Argument) → listOfJson (listToJson items) = .ok items
  | [] => rfl
  | item :: rest => by
      rw [listToJson, listOfJson, ofJson_toJson item, listOfJson_listToJson rest]
      rfl
termination_by structural items => items
end

theorem nullable_toJson (a : Argument) : nullable ofJson a.toJson = .ok (some a) :=
  nullable_of_reads a.toJson_ne_null a.ofJson_toJson

theorem asList_toJson (items : List Argument) :
    Json.asList ofJson (.arr (items.map toJson)) = .ok items :=
  asList_map fun a _ => a.ofJson_toJson

end Argument

theorem Dict.keys_nodup {α : Type} (d : Dict α) : (d.entries.map (·.1)).Nodup := by
  rw [List.Nodup, List.pairwise_map]
  refine d.sorted.imp ?_
  intro a b before same
  rw [same] at before
  exact String.lt_irrefl _ before

theorem Dict.ofList_entries {α : Type} (d : Dict α) : Dict.ofList d.entries = d := by
  apply Dict.ext_get?
  intro key
  rw [Dict.ofList, Dict.get?_foldl_insert d.sorted, Dict.get?_empty, Option.or_none]
  rfl

namespace Args

theorem plain_toJson (args : Args) : Plain args.toJson := by
  refine .obj ?_ ?_
  · rw [List.map_map]
    exact args.keys_nodup
  · intro m mem
    obtain ⟨e, -, rfl⟩ := List.mem_map.1 mem
    exact e.2.plain_toJson

theorem ofJson_toJson (args : Args) : ofJson args.toJson = .ok args := by
  have entries : ∀ es : List (String × Argument),
      (es.map fun e => (e.1, e.2.toJson)).mapM (fun m => do
        let a ← Argument.ofJson m.2
        pure (m.1, a) : String × Json → Reading (String × Argument)) = .ok es := by
    intro es
    induction es with
    | nil => rfl
    | cons e rest ih =>
        rw [List.map_cons, List.mapM_cons, ih, Argument.ofJson_toJson]
        rfl
  rw [toJson, ofJson, entries]
  exact congrArg Except.ok args.ofList_entries

end Args

namespace Player

theorem plain_toJson (p : Player) : Plain p.toJson := by
  have small : p.seat.toNat < 2 ^ 8 := p.seat.toNat_lt
  exact .int (by omega)

theorem ofJson_toJson (p : Player) : ofJson p.toJson = .ok p := by
  have small : p.seat.toNat < UInt8.size := p.seat.toNat_lt
  rw [ofJson, toJson, asNatBelow_natCast small]
  exact congrArg (fun seat => Except.ok (Player.mk seat)) p.seat.ofNat_toNat

end Player

end Tabletop
