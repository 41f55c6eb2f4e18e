import Tabletop.Json.Printer
import Tabletop.Json.Record

/-! # Reading back what was written

A value is written without anything that has no meaning, so its text is read back whole,
whatever may follow it, as long as the text nests no deeper than the reader goes.

Main statement: `parse_render`.
-/

namespace Tabletop.Json

/-! ### Numbers -/

section Numbers

variable {n : Nat} {c : Char} {ds rest : List Char}

/-- What goes on with an integer: one more digit, a fraction or an exponent. -/
def GoesOnNumber (c : Char) : Prop := (digit? c).isSome ∨ c = '.' ∨ c = 'e' ∨ c = 'E'

/-- The text does not go on with a number before it. -/
def EndsNumber (rest : List Char) : Prop := ∀ c ∈ rest.head?, ¬GoesOnNumber c

theorem digit?_of_isDigit (h : c.isDigit) : digit? c = some (c.toNat - 48) := by
  have between : '0' ≤ c ∧ c ≤ '9' := by
    simp only [Char.isDigit, Bool.and_eq_true, decide_eq_true_eq] at h
    exact h
  rw [digit?, if_pos between]

theorem readDigits_append (digits : ∀ c ∈ ds, c.isDigit)
    (ends : ∀ c ∈ rest.head?, digit? c = none) :
    readDigits (ds ++ rest) = (ds.map fun c => c.toNat - 48, rest) := by
  have some_digit : ∀ c ∈ ds, (digit? c).isSome := by
    intro c mem
    rw [digit?_of_isDigit (digits c mem)]
    rfl
  have rest_ends : rest.takeWhile (fun c => (digit? c).isSome) = [] ∧
      rest.dropWhile (fun c => (digit? c).isSome) = rest := by
    cases rest with
    | nil => exact ⟨rfl, rfl⟩
    | cons c rest => simp [ends c rfl]
  have values : ds.filterMap digit? = ds.map fun c => c.toNat - 48 := by
    clear some_digit
    induction ds with
    | nil => rfl
    | cons c ds ih =>
        obtain ⟨first, others⟩ := List.forall_mem_cons.1 digits
        rw [List.filterMap_cons, digit?_of_isDigit first, ih others, List.map_cons]
  rw [readDigits, List.takeWhile_append_of_pos some_digit, List.dropWhile_append_of_pos some_digit,
    rest_ends.1, rest_ends.2, List.append_nil, values]

theorem ofDigits_toDigits : ofDigits ((Nat.toDigits 10 n).map fun c => c.toNat - 48) = n := by
  rw [ofDigits, List.foldl_map]
  exact Nat.ofDigitChars_ten_toDigits

/-- A number other than zero is not written with a zero in front. -/
theorem head?_toDigits_ne (positive : 0 < n) : (Nat.toDigits 10 n).head? ≠ some '0' := by
  induction n using Nat.strongRecOn with
  | _ n ih =>
      by_cases small : n < 10
      · have first : ∀ n < 10, 0 < n → n.digitChar ≠ '0' := by decide
        rw [Nat.toDigits_of_lt_base small]
        simpa using first n small positive
      · have front := ih (n / 10) (by omega) (by omega)
        rw [Nat.toDigits_of_base_le (by omega) (by omega), List.head?_append]
        cases head : (Nat.toDigits 10 (n / 10)).head? with
        | none => exact absurd (List.head?_eq_none_iff.1 head) Nat.toDigits_ne_nil
        | some c =>
            rw [head] at front
            simpa using front

theorem readWhole_toDigits (ends : EndsNumber rest) :
    readWhole (Nat.toDigits 10 n ++ rest) =
      some ((Nat.toDigits 10 n).map fun c => c.toNat - 48, rest) := by
  have digits : ∀ c ∈ Nat.toDigits 10 n, c.isDigit := fun c =>
    Nat.isDigit_of_mem_toDigits (by omega) (by omega)
  have no_digit : ∀ c ∈ rest.head?, digit? c = none := by
    intro c head
    have not_on := ends c head
    cases value : digit? c with
    | none => rfl
    | some d => exact absurd (.inl (by simp [value])) not_on
  rw [readWhole, readDigits_append digits no_digit]
  cases written : Nat.toDigits 10 n with
  | nil => exact absurd written Nat.toDigits_ne_nil
  | cons c cs =>
      cases cs with
      | nil => cases value : c.toNat - 48 <;> simp [value]
      | cons d cs =>
          -- Only zero starts with a zero, and it has no further digit.
          have positive : 0 < n := by
            by_cases zero : n = 0
            · rw [zero, Nat.toDigits_zero] at written
              cases written
            · omega
          have nonzero : c.toNat - 48 ≠ 0 := by
            intro zero
            have least := (Char.isDigit_iff_toNat.1 (digits c (by simp [written]))).1
            have same : c.toNat = '0'.toNat := by
              change 48 ≤ c.toNat at least
              change c.toNat = 48
              omega
            apply head?_toDigits_ne positive
            rw [written, List.head?_cons, Char.toNat_inj.1 same]
          simp only [List.map_cons]
          cases value : c.toNat - 48 with
          | zero => exact absurd value nonzero
          | succ k => rfl

theorem roundToDouble_le (n : Nat) : roundToDouble n ≤ 2 * n + 1 := by
  have unit_le : 1 <<< (n.log2 - 52) ≤ n + 1 := by
    rw [Nat.one_shiftLeft]
    by_cases zero : n = 0
    · rw [zero]
      decide
    · have self_le := Nat.log2_self_le zero
      have power_le : 2 ^ (n.log2 - 52) ≤ 2 ^ n.log2 :=
        Nat.pow_le_pow_right (by omega) (by omega)
      omega
  have quotient_le : n / (1 <<< (n.log2 - 52)) * (1 <<< (n.log2 - 52)) ≤ n :=
    Nat.div_mul_le_self _ _
  unfold roundToDouble
  dsimp only
  split
  · rw [Nat.add_mul]
    omega
  · omega

theorem leadingDigits_le {value : Nat} {digits : List Nat} (small : value < UInt64.size) :
    (leadingDigits value digits).1 < UInt64.size ∧
      (leadingDigits value digits).2 ≤ digits.length := by
  induction digits generalizing value with
  | nil => exact ⟨small, Nat.zero_le _⟩
  | cons d rest ih =>
      unfold leadingDigits
      split
      · rename_i fits
        obtain ⟨high, dropped⟩ := ih fits
        exact ⟨high, by rw [List.length_cons]; omega⟩
      · exact ⟨small, Nat.le_refl _⟩

/-- An integer of few digits has a value. -/
theorem isFiniteDecimal_of_length {digits : List Nat} (short : digits.length ≤ 40) :
    isFiniteDecimal digits [] 0 := by
  have bounds : (leadingDigits 0 digits).1 < UInt64.size ∧
      (leadingDigits 0 digits).2 ≤ digits.length := leadingDigits_le (by decide)
  unfold isFiniteDecimal
  generalize leadingDigits 0 digits = leading at bounds
  obtain ⟨high, dropped⟩ := leading
  obtain ⟨high_lt, dropped_le⟩ := bounds
  dsimp only [leadingDigits, List.length_nil] at high_lt dropped_le ⊢
  split
  · rfl
  split
  · omega
  · have power_eq : ((dropped : Int) - ((0 - 0 : Nat) : Int) + 0).toNat = dropped := by omega
    have power_le : 10 ^ dropped ≤ 10 ^ 40 := Nat.pow_le_pow_right (by omega) (by omega)
    have high_le := roundToDouble_le high
    have factor_le := roundToDouble_le (10 ^ dropped)
    rw [power_eq, isFiniteMagnitude]
    apply decide_eq_true
    calc roundToDouble high * roundToDouble (10 ^ dropped)
        ≤ (2 * UInt64.size) * (2 * 10 ^ 40 + 1) := Nat.mul_le_mul (by omega) (by omega)
      _ < (1 <<< 1024) - (1 <<< 970) := by decide

/-- An integer that is not too long is read back, without its sign. -/
theorem readNumber_toDigits {negative : Bool} (small : n < 1 <<< 128)
    (not_minus_zero : negative → n ≠ 0) (ends : EndsNumber rest) :
    readNumber negative (Nat.toDigits 10 n ++ rest) =
      some (int (if negative then -(n : Int) else n), rest) := by
  have short : ((Nat.toDigits 10 n).map fun c => c.toNat - 48).length ≤ 40 := by
    have bound : (1 <<< 128 : Nat) ≤ 10 ^ 40 := by decide
    rw [List.length_map]
    exact (Nat.length_toDigits_le_iff (by omega) (by omega)).2 (Nat.lt_of_lt_of_le small bound)
  have no_fraction : readFraction rest = some ([], rest) := by
    unfold readFraction
    split
    · exact absurd (.inr (.inl rfl)) (ends '.' rfl)
    · rfl
  have no_exponent : readExponent rest = some (none, rest) := by
    unfold readExponent
    split
    · rename_i c rest
      have not_on := ends c rfl
      rw [if_neg fun exponent => not_on (.inr (.inr exponent))]
    · rfl
  simp only [readNumber, readWhole_toDigits ends, no_fraction, no_exponent, Option.bind_eq_bind,
    Option.bind_some, ofDigits_toDigits, isFiniteDecimal_of_length short, Option.getD_none]
  cases negative with
  | false => rfl
  | true =>
      have nonzero : (n == 0) = false := by simpa using not_minus_zero rfl
      simp [nonzero]

end Numbers

/-! ### Strings -/

section Strings

theorem hexValue?_hexDigit {n : Nat} (small : n < 16) : hexValue? (hexDigit n) = some n := by
  have all : ∀ n < 16, hexValue? (hexDigit n) = some n := by decide
  exact all n small

/-- A character below the blank is read back from its number. -/
theorem unicode?_escaped {c : Char} {rest : List Char} (low : c.toNat < 32) :
    unicode? ('0' :: '0' :: hexDigit (c.toNat / 16) :: hexDigit (c.toNat % 16) :: rest) =
      some (some c, rest) := by
  have zero : hexValue? '0' = some 0 := rfl
  have first := hexValue?_hexDigit (show c.toNat / 16 < 16 by omega)
  have second := hexValue?_hexDigit (show c.toNat % 16 < 16 by omega)
  have value : ((0 * 16 + 0) * 16 + c.toNat / 16) * 16 + c.toNat % 16 = c.toNat := by omega
  have no_surrogate : ¬(0xD800 ≤ c.toNat ∧ c.toNat ≤ 0xDBFF) ∧
      ¬(0xDC00 ≤ c.toNat ∧ c.toNat ≤ 0xDFFF) := by omega
  simp only [unicode?, hexQuad?, zero, first, second, Option.bind_eq_bind, Option.bind_some,
    Option.pure_def, value, if_neg no_surrogate.1, if_neg no_surrogate.2, Char.ofNat_toNat]

/-- What is read of a string with one more character in front. -/
def withFront (c : Char) (read : Option (Option (List Char) × List Char)) :
    Option (Option (List Char) × List Char) := read.map fun (cs, rest) => (cs.map (c :: ·), rest)

theorem readString_escaped {c d : Char} {fuel : Nat} {rest : List Char} (not_unicode : d ≠ 'u')
    (stands_for : escaped? d = some c) :
    readString (fuel + 1) ('\\' :: d :: rest) = withFront c (readString fuel rest) := by
  rw [readString, stands_for]
  · cases readString fuel rest <;> rfl
  · exact not_unicode

theorem readString_unicode {c : Char} {fuel : Nat} {s rest : List Char}
    (stands_for : unicode? s = some (some c, rest)) :
    readString (fuel + 1) ('\\' :: 'u' :: s) = withFront c (readString fuel rest) := by
  rw [readString, stands_for]
  simp only [Option.bind_eq_bind, Option.bind_some]
  rcases readString fuel rest with _ | ⟨_ | cs, rest'⟩ <;> rfl

theorem readString_plain {c : Char} {fuel : Nat} {rest : List Char} (visible : 32 ≤ c.toNat)
    (no_quote : c ≠ '"') (no_escape : c ≠ '\\') :
    readString (fuel + 1) (c :: rest) = withFront c (readString fuel rest) := by
  have plain : ¬(c.toNat < 32 ∨ c = '\\') := by
    rintro (low | escape)
    · omega
    · exact no_escape escape
  rw [readString, if_neg plain]
  · cases readString fuel rest <;> rfl
  · exact no_quote
  · exact fun _ same _ => no_escape same
  · exact fun _ _ same _ => no_escape same

/-- A written character is read back, whatever its form. -/
theorem readString_escapeChar (c : Char) (fuel : Nat) (rest : List Char) :
    readString (fuel + 1) (escapeChar c ++ rest) = withFront c (readString fuel rest) := by
  unfold escapeChar
  -- Seven characters have a short form of their own.
  iterate 7
    split
    · rename_i same
      subst same
      exact readString_escaped (by decide) rfl
  split
  · exact readString_unicode (unicode?_escaped ‹_›)
  · exact readString_plain (by omega) ‹_› ‹_›

/-- A written string is read back up to its closing quotation mark. -/
theorem readString_written {cs rest : List Char} {fuel : Nat} (enough : cs.length < fuel) :
    readString fuel (cs.flatMap escapeChar ++ '"' :: rest) = some (some cs, rest) := by
  induction cs generalizing fuel with
  | nil =>
      cases fuel with
      | zero => cases enough
      | succ fuel => rfl
  | cons c cs ih =>
      cases fuel with
      | zero => cases enough
      | succ fuel =>
          have fewer : cs.length < fuel := by simpa using enough
          rw [List.flatMap_cons, List.append_assoc, readString_escapeChar, ih fewer]
          rfl

theorem length_le_flatMap_escapeChar (cs : List Char) :
    cs.length ≤ (cs.flatMap escapeChar).length := by
  have one_each : ∀ c, 1 ≤ (escapeChar c).length := by
    intro c
    unfold escapeChar
    repeat' split
    all_goals simp
  induction cs with
  | nil => exact Nat.zero_le _
  | cons c cs ih =>
      rw [List.flatMap_cons, List.length_append, List.length_cons]
      have first := one_each c
      omega

/-- The characters of a written string with the text behind them are enough fuel. -/
theorem readString_render (s : String) (rest : List Char) :
    readString ((s.toList.flatMap escapeChar ++ '"' :: rest).length + 1)
      (s.toList.flatMap escapeChar ++ '"' :: rest) = some (some s.toList, rest) := by
  apply readString_written
  have length_le := length_le_flatMap_escapeChar s.toList
  rw [List.length_append]
  omega

end Strings

/-! ### Values -/

/-- A value that is written as it is: integers are not too long, and every part has a
meaning. No object has a key twice. -/
inductive Plain : Json → Prop
  | null : Plain .null
  | bool (value : Bool) : Plain (.bool value)
  | int {n : Int} (small : n.natAbs < 1 <<< 128) : Plain (.int n)
  | str (value : String) : Plain (.str value)
  | arr {items : List Json} (each : ∀ item ∈ items, Plain item) : Plain (.arr items)
  | obj {members : List (String × Json)} (distinct : (members.map (·.1)).Nodup)
      (each : ∀ m ∈ members, Plain m.2) : Plain (.obj members)

mutual
/-- How many arrays and objects are nested in each other. -/
def nesting : Json → Nat
  | arr items => itemsNesting items + 1
  | obj members => membersNesting members + 1
  | misnamed value => value.nesting
  | _ => 0
termination_by structural j => j
/-- The deepest nesting in the items of an array. -/
def itemsNesting : List Json → Nat
  | [] => 0
  | item :: rest => max item.nesting (itemsNesting rest)
termination_by structural items => items
/-- The deepest nesting in the members of an object. -/
def membersNesting : List (String × Json) → Nat
  | [] => 0
  | (_, value) :: rest => max value.nesting (membersNesting rest)
termination_by structural members => members
end

/-- A character with which a value may start: no blank, and no closing bracket. -/
def Starts (c : Char) : Prop := isBlank c = false ∧ c ≠ ']' ∧ c ≠ '}'

theorem skipBlanks_cons {c : Char} {s : List Char} (starts : Starts c) :
    skipBlanks (c :: s) = c :: s := by
  simp [skipBlanks, starts.1]

theorem starts_of_isDigit {c : Char} (h : c.isDigit) : Starts c := by
  have no_digit : ∀ d : Char, d.isDigit = false → c ≠ d := by
    rintro d not_digit rfl
    rw [h] at not_digit
    cases not_digit
  refine ⟨?_, no_digit _ rfl, no_digit _ rfl⟩
  simp [isBlank, no_digit ' ' rfl, no_digit '\n' rfl, no_digit '\t' rfl, no_digit '\r' rfl]

theorem toDigits_eq_cons (n : Nat) : ∃ c s, Nat.toDigits 10 n = c :: s ∧ c.isDigit := by
  cases written : Nat.toDigits 10 n with
  | nil => exact absurd written Nat.toDigits_ne_nil
  | cons c s =>
      have mem : c ∈ Nat.toDigits 10 n := by simp [written]
      exact ⟨c, s, rfl, Nat.isDigit_of_mem_toDigits (by omega) (by omega) mem⟩

theorem render_eq_cons {j : Json} (plain : Plain j) : ∃ c s, j.render = c :: s ∧ Starts c := by
  cases plain with
  | null => exact ⟨_, _, rfl, by decide, by decide, by decide⟩
  | bool value => cases value <;> exact ⟨_, _, rfl, by decide, by decide, by decide⟩
  | @int n =>
      rw [render, renderInt]
      split
      · exact ⟨_, _, rfl, by decide, by decide, by decide⟩
      · obtain ⟨c, s, written, digit⟩ := toDigits_eq_cons n.natAbs
        exact ⟨c, s, written, starts_of_isDigit digit⟩
  | str value => exact ⟨_, _, rfl, by decide, by decide, by decide⟩
  | arr each => exact ⟨_, _, rfl, by decide, by decide, by decide⟩
  | obj distinct each => exact ⟨_, _, rfl, by decide, by decide, by decide⟩

theorem length_render_pos {j : Json} (plain : Plain j) : 0 < j.render.length := by
  obtain ⟨c, s, written, -⟩ := render_eq_cons plain
  simp [written]

/-- There are no blanks to skip in front of a written value. -/
theorem skipBlanks_render {j : Json} (plain : Plain j) (s : List Char) :
    skipBlanks (j.render ++ s) = j.render ++ s := by
  obtain ⟨c, s', written, starts⟩ := render_eq_cons plain
  rw [written, List.cons_append, skipBlanks_cons starts]

/-- The value is read back from its text, whatever follows, with enough fuel and depth. -/
def ReadsBack (j : Json) : Prop :=
  ∀ {fuel depth : Nat} {rest : List Char}, EndsNumber rest → 2 * j.render.length ≤ fuel →
    j.nesting ≤ depth → read fuel depth (j.render ++ rest) = (j, some rest)

/-- A value that starts with a digit is a number. -/
theorem read_digit {c : Char} {fuel depth : Nat} {s rest : List Char} {j : Json} (digit : c.isDigit)
    (number : readNumber false (c :: s) = some (j, rest)) :
    read (fuel + 1) depth (c :: s) = (j, some rest) := by
  have no_digit : ∀ d : Char, d.isDigit = false → c ≠ d := by
    rintro d not_digit rfl
    rw [digit] at not_digit
    cases not_digit
  rw [read, number]
  all_goals
    intro _ same
    refine no_digit _ ?_ (List.cons.inj same).1
    rfl

theorem readsBack_int {n : Int} (small : n.natAbs < 1 <<< 128) : ReadsBack (.int n) := by
  intro fuel depth rest ends enough _
  have some_char := length_render_pos (Plain.int small)
  obtain ⟨fuel, rfl⟩ : ∃ f, fuel = f + 1 := ⟨fuel - 1, by omega⟩
  rw [render, renderInt]
  split
  · have nonzero : n.natAbs ≠ 0 := by omega
    have value : -(n.natAbs : Int) = n := by omega
    rw [List.cons_append, read, readNumber_toDigits small (fun _ => nonzero) ends]
    simp only [if_true, value]
  · have value : (n.natAbs : Int) = n := by omega
    have number : readNumber false (Nat.toDigits 10 n.natAbs ++ rest) = some (int n, rest) := by
      rw [readNumber_toDigits small (by nofun) ends]
      simp only [Bool.false_eq_true, if_false, value]
    obtain ⟨c, s, written, digit⟩ := toDigits_eq_cons n.natAbs
    rw [written, List.cons_append] at number ⊢
    exact read_digit digit number

theorem readsBack_str (value : String) : ReadsBack (.str value) := by
  intro fuel depth rest _ enough _
  have some_char := length_render_pos (Plain.str value)
  obtain ⟨fuel, rfl⟩ : ∃ f, fuel = f + 1 := ⟨fuel - 1, by omega⟩
  simp only [render, renderString, List.cons_append, List.append_assoc, List.nil_append]
  rw [read, readString_render]
  simp

/-- Neither a comma nor a closing bracket goes on with a number. -/
theorem endsNumber_cons {c : Char} (s : List Char) (h : c = ',' ∨ c = ']' ∨ c = '}') :
    EndsNumber (c :: s) := by
  intro d head
  cases head
  unfold GoesOnNumber
  rcases h with rfl | rfl | rfl <;> decide

/-- The items of an array are read back up to the closing bracket. -/
theorem readItems_render {items : List Json} (nonempty : items ≠ [])
    (each : ∀ item ∈ items, Plain item) (back : ∀ item ∈ items, ReadsBack item)
    {fuel depth : Nat} {rest : List Char} (enough : 2 * (renderItems items).length ≤ fuel)
    (shallow : itemsNesting items ≤ depth) :
    readItems fuel depth (renderItems items ++ rest) = (items, some rest) := by
  induction items generalizing fuel with
  | nil => exact absurd rfl nonempty
  | cons item more ih =>
      obtain ⟨plain, each⟩ := List.forall_mem_cons.1 each
      obtain ⟨item_back, back⟩ := List.forall_mem_cons.1 back
      have some_char := length_render_pos plain
      rw [itemsNesting, Nat.max_le] at shallow
      rw [renderItems, List.length_append] at enough
      obtain ⟨fuel, rfl⟩ : ∃ f, fuel = f + 1 := ⟨fuel - 1, by omega⟩
      rw [renderItems, List.append_assoc]
      cases more with
      | nil =>
          have behind : renderRest [] ++ rest = ']' :: rest := rfl
          have ends : EndsNumber (']' :: rest) := endsNumber_cons rest (by decide)
          have enough_left : 2 * item.render.length ≤ fuel := by
            simp only [renderRest, List.length_singleton] at enough
            omega
          rw [behind, readItems, item_back ends enough_left shallow.1]
          rfl
      | cons next more =>
          have further : renderRest (next :: more) = ',' :: renderItems (next :: more) := rfl
          rw [further, List.length_cons] at enough
          have ends := endsNumber_cons (renderItems (next :: more) ++ rest) (.inl rfl)
          have no_blanks : skipBlanks (renderItems (next :: more) ++ rest) =
              renderItems (next :: more) ++ rest := by
            rw [renderItems, List.append_assoc, skipBlanks_render (each next List.mem_cons_self)]
          have goes_on : readItems fuel depth (renderItems (next :: more) ++ rest) =
              (next :: more, some rest) :=
            ih (List.cons_ne_nil _ _) each back (by omega) shallow.2
          rw [further, List.cons_append, readItems, item_back ends (by omega) shallow.1]
          change (item :: (readItems fuel depth (skipBlanks _)).1,
            (readItems fuel depth (skipBlanks _)).2) = _
          rw [no_blanks, goes_on]

/-- The key of a member is read back with the colon behind it. -/
theorem readKey_render {value : Json} (plain : Plain value) (key : String) (rest : List Char) :
    readKey (renderString key ++ ':' :: (value.render ++ rest)) =
      some (some key, value.render ++ rest) := by
  simp only [renderString, List.cons_append, List.append_assoc, List.nil_append]
  rw [readKey, readString_render]
  change (do
    let s := skipBlanks (value.render ++ rest)
    pure ((some key.toList).map String.ofList, s) : Option _) = _
  rw [skipBlanks_render plain]
  simp

/-- The members of an object are read back up to the closing brace. -/
theorem readMembers_render {members : List (String × Json)} (nonempty : members ≠ [])
    (each : ∀ m ∈ members, Plain m.2) (back : ∀ m ∈ members, ReadsBack m.2)
    {fuel depth : Nat} {rest : List Char} (enough : 2 * (renderMembers members).length ≤ fuel)
    (shallow : membersNesting members ≤ depth) :
    readMembers fuel depth (renderMembers members ++ rest) = (members, some rest) := by
  induction members generalizing fuel with
  | nil => exact absurd rfl nonempty
  | cons member more ih =>
      obtain ⟨key, value⟩ := member
      obtain ⟨plain, each⟩ := List.forall_mem_cons.1 each
      obtain ⟨value_back, back⟩ := List.forall_mem_cons.1 back
      have value_back : ReadsBack value := value_back
      have some_char : 0 < value.render.length := length_render_pos plain
      rw [membersNesting, Nat.max_le] at shallow
      rw [renderMembers] at enough ⊢
      simp only [List.length_append, List.length_cons, List.append_assoc, List.cons_append] at enough ⊢
      obtain ⟨fuel, rfl⟩ : ∃ f, fuel = f + 1 := ⟨fuel - 1, by omega⟩
      rw [readMembers, readKey_render plain]
      cases more with
      | nil =>
          have behind : renderMore [] ++ rest = '}' :: rest := rfl
          have ends : EndsNumber ('}' :: rest) := endsNumber_cons rest (by decide)
          rw [behind]
          dsimp only
          rw [value_back ends (by omega) shallow.1]
          rfl
      | cons next more =>
          have further : renderMore (next :: more) = ',' :: renderMembers (next :: more) := rfl
          rw [further, List.length_cons] at enough
          have ends := endsNumber_cons (renderMembers (next :: more) ++ rest) (.inl rfl)
          have no_blanks : skipBlanks (renderMembers (next :: more) ++ rest) =
              renderMembers (next :: more) ++ rest := rfl
          have goes_on : readMembers fuel depth (renderMembers (next :: more) ++ rest) =
              (next :: more, some rest) :=
            ih (List.cons_ne_nil _ _) each back (by omega) shallow.2
          rw [further, List.cons_append]
          dsimp only
          rw [value_back ends (by omega) shallow.1]
          change (memberUnder (some key) value :: (readMembers fuel depth (skipBlanks _)).1,
            (readMembers fuel depth (skipBlanks _)).2) = _
          rw [no_blanks, goes_on]
          rfl

/-- An array that does not end at once is read item by item. -/
theorem read_items {c : Char} {s : List Char} (starts : Starts c) (fuel depth : Nat) :
    read (fuel + 1) (depth + 1) ('[' :: c :: s) =
      (arr (readItems fuel depth (c :: s)).1, (readItems fuel depth (c :: s)).2) := by
  rw [read, skipBlanks_cons starts]
  split
  · rename_i same
    exact absurd (List.cons.inj same).1 starts.2.1
  · rfl

/-- An object that does not end at once is read member by member. -/
theorem read_members {c : Char} {s : List Char} (starts : Starts c) (fuel depth : Nat) :
    read (fuel + 1) (depth + 1) ('{' :: c :: s) =
      (obj (readMembers fuel depth (c :: s)).1, (readMembers fuel depth (c :: s)).2) := by
  rw [read, skipBlanks_cons starts]
  split
  · rename_i same
    exact absurd (List.cons.inj same).1 starts.2.2
  · rfl

theorem readsBack_arr {items : List Json} (each : ∀ item ∈ items, Plain item)
    (back : ∀ item ∈ items, ReadsBack item) : ReadsBack (.arr items) := by
  intro fuel depth rest _ enough shallow
  rw [nesting] at shallow
  rw [render, List.length_cons] at enough
  obtain ⟨fuel, rfl⟩ : ∃ f, fuel = f + 1 := ⟨fuel - 1, by omega⟩
  obtain ⟨depth, rfl⟩ : ∃ d, depth = d + 1 := ⟨depth - 1, by omega⟩
  cases items with
  | nil => rfl
  | cons item more =>
      obtain ⟨c, s, written, starts⟩ := render_eq_cons (each item List.mem_cons_self)
      have goes_on : readItems fuel depth (renderItems (item :: more) ++ rest) =
          (item :: more, some rest) :=
        readItems_render (List.cons_ne_nil _ _) each back (by omega) (by omega)
      rw [render, List.cons_append]
      rw [renderItems, written, List.cons_append, List.cons_append] at goes_on ⊢
      rw [read_items starts, goes_on]

theorem readsBack_obj {members : List (String × Json)} (each : ∀ m ∈ members, Plain m.2)
    (back : ∀ m ∈ members, ReadsBack m.2) : ReadsBack (.obj members) := by
  intro fuel depth rest _ enough shallow
  rw [nesting] at shallow
  rw [render, List.length_cons] at enough
  obtain ⟨fuel, rfl⟩ : ∃ f, fuel = f + 1 := ⟨fuel - 1, by omega⟩
  obtain ⟨depth, rfl⟩ : ∃ d, depth = d + 1 := ⟨depth - 1, by omega⟩
  cases members with
  | nil => rfl
  | cons member more =>
      have goes_on : readMembers fuel depth (renderMembers (member :: more) ++ rest) =
          (member :: more, some rest) :=
        readMembers_render (List.cons_ne_nil _ _) each back (by omega) (by omega)
      have starts : Starts '"' := by unfold Starts; decide
      rw [render, List.cons_append]
      rw [renderMembers, renderString] at goes_on ⊢
      simp only [List.cons_append] at goes_on ⊢
      rw [read_members starts, goes_on]

/-- A plain value is read back from its text. -/
theorem readsBack_of_plain {j : Json} (plain : Plain j) : ReadsBack j := by
  induction plain with
  | null =>
      intro fuel depth rest _ enough _
      cases fuel with
      | zero => cases enough
      | succ fuel => rfl
  | bool value =>
      intro fuel depth rest _ enough _
      cases fuel with
      | zero => cases value <;> cases enough
      | succ fuel => cases value <;> rfl
  | int small => exact readsBack_int small
  | str value => exact readsBack_str value
  | arr each back => exact readsBack_arr each back
  | obj distinct each back => exact readsBack_obj each back

/-- The text of a plain value that nests no deeper than the reader goes is read back
whole. -/
theorem parse_render {j : Json} (plain : Plain j) (shallow : j.nesting ≤ maxDepth) :
    parse j.render = (j, some []) := by
  have no_blanks : skipBlanks j.render = j.render := by
    rw [← List.append_nil j.render, skipBlanks_render plain]
  have ends : EndsNumber [] := nofun
  have back : read (2 * j.render.length + 2) maxDepth (j.render ++ []) = (j, some []) :=
    readsBack_of_plain plain ends (by omega) shallow
  rw [parse, no_blanks, ← back, List.append_nil]

end Tabletop.Json
