import Tabletop.Text.Template

/-! # Rendering part by part

A template that is put together from texts without an opening brace and from names between
double braces is rendered part by part: the texts stay, and each name gives way to what it
stands for. What is put in for one part has no effect on the others, whatever braces it
holds.

Main statement: `render_parts`.
-/

namespace Tabletop.Text

/-- A name between double braces, as it is written: blanks may stand on both sides of it. -/
structure Placeholder where
  before : String
  key : String
  after : String
  key_ne_empty : key ≠ ""
  isBlank_before : ∀ c ∈ before.toList, isBlank c
  isKeyChar_key : ∀ c ∈ key.toList, isKeyChar c
  isBlank_after : ∀ c ∈ after.toList, isBlank c

namespace Placeholder

def written (p : Placeholder) : String :=
  "\x7b\x7b" ++ p.before ++ p.key ++ p.after ++ "\x7d\x7d"

/-- The text of the argument with the name, or of the acting player under the name
`player`. A name that stands for nothing stays as it is written. -/
def filled (player : Player) (args : Args) (p : Placeholder) : String :=
  match args.get? p.key with
  | some value => value.display
  | none => if p.key = "player" then player.display else p.written

end Placeholder

/-- A part of a template. -/
inductive Part where
  | literal (text : String) (no_brace : '\x7b' ∉ text.toList)
  | placeholder (p : Placeholder)

namespace Part

/-- A part as it is written in the template. -/
def written : Part → String
  | literal text _ => text
  | placeholder p => p.written

/-- What is put in for a part. -/
def filled (player : Player) (args : Args) : Part → String
  | literal text _ => text
  | placeholder p => p.filled player args

end Part

/-! ### Names between braces -/

/-- No character of a name is a blank. -/
theorem isBlank_of_isKeyChar {c : Char} (h : isKeyChar c) : isBlank c = false := by
  have visible : 32 < c.toNat ∧ c.toNat < 127 := by
    simp only [isKeyChar, Char.isAlphanum, Bool.or_eq_true, beq_iff_eq] at h
    rcases h with ((letter | digit) | rfl) | rfl
    · rcases Bool.or_eq_true_iff.1 letter with upper | lower
      · have between : 65 ≤ c.toNat ∧ c.toNat ≤ 90 := of_decide_eq_true upper
        omega
      · obtain ⟨least, most⟩ := Bool.and_eq_true_iff.1 lower
        have between : 97 ≤ c.toNat ∧ c.toNat ≤ 122 :=
          ⟨of_decide_eq_true least, of_decide_eq_true most⟩
        omega
    · obtain ⟨least, most⟩ := Bool.and_eq_true_iff.1 digit
      have between : 48 ≤ c.toNat ∧ c.toNat ≤ 57 :=
        ⟨of_decide_eq_true least, of_decide_eq_true most⟩
      omega
    · decide
    · decide
  simp [isBlank, inRanges, blankRanges, covers]
  omega

section Brackets

variable {p : Char → Bool} {front rest : List Char}

/-- What fulfils a condition is dropped up to the first character that does not. -/
theorem dropWhile_append_of_stop (all : ∀ c ∈ front, p c) (stop : ∀ c ∈ rest.head?, p c = false) :
    (front ++ rest).dropWhile p = rest := by
  rw [List.dropWhile_append_of_pos all]
  cases rest with
  | nil => rfl
  | cons c rest => exact List.dropWhile_cons_of_neg (by simp [stop c rfl])

theorem takeWhile_append_of_stop (all : ∀ c ∈ front, p c) (stop : ∀ c ∈ rest.head?, p c = false) :
    (front ++ rest).takeWhile p = front := by
  rw [List.takeWhile_append_of_pos all]
  cases rest with
  | nil => simp
  | cons c rest => rw [List.takeWhile_cons_of_neg (by simp [stop c rfl]), List.append_nil]

end Brackets

namespace Placeholder

variable (p : Placeholder) (rest : List Char)

theorem toList_written :
    p.written.toList = '\x7b' :: '\x7b' ::
      (p.before.toList ++ (p.key.toList ++ (p.after.toList ++ ['\x7d', '\x7d']))) := by
  simp [written]

/-- The name is found at the front of a text, with the text behind its braces. -/
theorem placeholder?_written :
    placeholder? (p.written.toList ++ rest) = some (p.key.toList, rest) := by
  obtain ⟨c, key, key_eq⟩ : ∃ c key, p.key.toList = c :: key := by
    refine List.exists_cons_of_ne_nil fun empty => p.key_ne_empty ?_
    exact String.toList_eq_nil_iff.1 empty
  have key_starts : ∀ d ∈ (p.key.toList ++ (p.after.toList ++ '\x7d' :: '\x7d' :: rest)).head?,
      isBlank d = false := by
    intro d first
    rw [key_eq] at first
    cases first
    exact isBlank_of_isKeyChar (p.isKeyChar_key c (by simp [key_eq]))
  have key_stops : ∀ d ∈ (p.after.toList ++ '\x7d' :: '\x7d' :: rest).head?,
      isKeyChar d = false := by
    intro d first
    rw [List.head?_append, Option.mem_def, Option.or_eq_some_iff] at first
    rcases first with blank | ⟨-, brace⟩
    · have blank := p.isBlank_after d (List.mem_of_mem_head? blank)
      exact Bool.eq_false_iff.2 fun is_key => by simp [isBlank_of_isKeyChar is_key] at blank
    · cases brace
      decide
  have brace_stops : ∀ d ∈ ('\x7d' :: '\x7d' :: rest).head?, isBlank d = false := by
    intro d first
    cases first
    decide
  have nonempty : p.key.toList.isEmpty = false := by rw [key_eq]; rfl
  have text_eq : p.written.toList ++ rest = '\x7b' :: '\x7b' ::
      (p.before.toList ++ (p.key.toList ++ (p.after.toList ++ '\x7d' :: '\x7d' :: rest))) := by
    simp [toList_written]
  rw [text_eq, placeholder?]
  simp only [dropWhile_append_of_stop p.isBlank_before key_starts,
    takeWhile_append_of_stop p.isKeyChar_key key_stops, nonempty, List.drop_left,
    dropWhile_append_of_stop p.isBlank_after brace_stops]
  rfl

end Placeholder

section Rendering

variable {player : Player} {args : Args} {s rest : List Char}

theorem renderFrom_skip : renderFrom player args s.length (s ++ rest) =
    renderFrom player args 0 rest := by
  induction s with
  | nil => rfl
  | cons c s ih => exact ih

theorem renderFrom_literal (no_brace : '\x7b' ∉ s) :
    renderFrom player args 0 (s ++ rest) = s ++ renderFrom player args 0 rest := by
  induction s with
  | nil => rfl
  | cons c s ih =>
      obtain ⟨other, no_brace⟩ := not_or.1 (mt List.mem_cons.2 no_brace)
      have no_name : placeholder? (c :: (s ++ rest)) = none := by
        unfold placeholder?
        split
        · rename_i same
          exact absurd (List.cons.inj same).1.symm other
        · rfl
      rw [List.cons_append, renderFrom, no_name]
      exact congrArg (c :: ·) (ih no_brace)

/-- A name is replaced, and the rendering goes on behind its braces. -/
theorem renderFrom_placeholder (p : Placeholder) :
    renderFrom player args 0 (p.written.toList ++ rest) =
      (p.filled player args).toList ++ renderFrom player args 0 rest := by
  obtain ⟨inner, written_eq⟩ : ∃ inner, p.written.toList = '\x7b' :: inner := ⟨_, p.toList_written⟩
  have found := p.placeholder?_written rest
  have behind : (inner ++ rest).length - rest.length = inner.length := by
    rw [List.length_append, Nat.add_sub_cancel]
  rw [written_eq, List.cons_append] at found ⊢
  rw [renderFrom, found]
  dsimp only
  rw [behind, renderFrom_skip, substitute?, String.ofList_toList, Placeholder.filled]
  cases args.get? p.key with
  | some value => rfl
  | none =>
      by_cases acting : p.key = "player"
      · simp [acting]
      · simp [acting, written_eq]

theorem renderFrom_part (part : Part) :
    renderFrom player args 0 (part.written.toList ++ rest) =
      (part.filled player args).toList ++ renderFrom player args 0 rest := by
  cases part with
  | literal text no_brace => exact renderFrom_literal no_brace
  | placeholder p => exact renderFrom_placeholder p

end Rendering

/-- A template is rendered part by part: each name between braces gives way to the argument
of that name, or else to the acting player if it is `player`, or else stays as it is written,
and everything around it stays. -/
theorem render_parts (parts : List Part) (player : Player) (args : Args) :
    render (String.join (parts.map Part.written)) player args =
      String.join (parts.map (Part.filled player args)) := by
  have by_part : renderFrom player args 0 (parts.flatMap fun part => part.written.toList) =
      parts.flatMap fun part => (part.filled player args).toList := by
    induction parts with
    | nil => rfl
    | cons part parts ih => rw [List.flatMap_cons, List.flatMap_cons, renderFrom_part, ih]
  rw [render, String.toList_join, List.flatMap_map, by_part, ← List.flatMap_map,
    ← String.toList_join, String.ofList_toList]

/-- The braces in the text of the first argument name nothing. -/
example :
    render "\x7b\x7bnote\x7d\x7d\x7b\x7b sum \x7d\x7d\x7d" ⟨0⟩
        (Dict.ofList [("note", .text "\x7b\x7bsum\x7d\x7d"), ("sum", .number 2)]) =
      "\x7b\x7bsum\x7d\x7d2\x7d" := by
  decide

end Tabletop.Text
