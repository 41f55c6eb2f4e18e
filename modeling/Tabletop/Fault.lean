import Tabletop.Text.Regex.Source

/-! # Faults

A fault is a mistake of the author of a game: a declaration that makes no
sense, a draw from no numbers, or more players than can be seated. It ends the
operation that runs into it, and so does a counter that has no number left.
-/

namespace Tabletop

/-- What an option of a selection is made for. -/
inductive Purpose where
  | numbersAndBoard
  | board
  | text
  | placement
  deriving DecidableEq, Repr

/-- The selections an option is made for, as they are called in texts. -/
def Purpose.display : Purpose → String
  | numbersAndBoard => "number and board"
  | board => "board"
  | text => "text"
  | placement => "placement"

/-- A mistake of the author of a game. -/
inductive Fault where
  /-- More players are to be listed than there are seats. -/
  | tooManyPlayers
  /-- A number is to be drawn from an empty range. -/
  | emptyRange
  /-- A switch has two default cases. -/
  | repeatedDefault
  /-- An option is given to a selection of another kind. -/
  | wrongOption (option : String) (purpose : Purpose) (selection : String)
  /-- The pattern of a text selection is no regular expression. -/
  | badPattern (selection : String) (defect : Text.Regex.Defect)
  /-- A counter is at its last number. -/
  | overflow
  deriving DecidableEq, Repr

/-- A result of something that may run into a fault. -/
abbrev Checked (α : Type) := Except Fault α

instance decidableEqExcept {ε α : Type} [DecidableEq ε] [DecidableEq α] : DecidableEq (Except ε α)
  | .ok a, .ok b => decidable_of_iff (a = b) ⟨congrArg _, Except.ok.inj⟩
  | .error e, .error f => decidable_of_iff (e = f) ⟨congrArg _, Except.error.inj⟩
  | .ok _, .error _ => isFalse nofun
  | .error _, .ok _ => isFalse nofun

/-- Two operations have a result in a row if each has one. -/
theorem bind_eq_ok {ε α β : Type} {result : Except ε α} {next : α → Except ε β} {b : β} :
    result >>= next = .ok b ↔ ∃ a, result = .ok a ∧ next a = .ok b := by
  cases result <;> simp [bind, Except.bind]

/-- Two operations in a row go on alike if they do so after each result of the first. -/
theorem bind_congr_of_ok {ε α β : Type} {result : Except ε α} {next next' : α → Except ε β}
    (same : ∀ a, result = .ok a → next a = next' a) : result >>= next = result >>= next' := by
  cases result with
  | error e => rfl
  | ok a => exact same a rfl

theorem forM_eq_ok {ε γ : Type} {items : List γ} {check : γ → Except ε Unit} :
    items.forM check = .ok () ↔ ∀ item ∈ items, check item = .ok () := by
  induction items with
  | nil => simp [List.forM, pure, Except.pure]
  | cons item items ih =>
      rw [List.forM, bind_eq_ok, List.forall_mem_cons, ← ih]
      exact ⟨fun ⟨_, first, rest⟩ => ⟨first, rest⟩, fun ⟨first, rest⟩ => ⟨(), first, rest⟩⟩

/-- Items that are not all in order have one that is not. -/
theorem exists_of_forM_eq_error {ε γ : Type} {items : List γ} {check : γ → Except ε Unit} {e : ε}
    (h : items.forM check = .error e) : ∃ item ∈ items, check item = .error e := by
  induction items with
  | nil => cases h
  | cons item items ih =>
      cases first : check item with
      | error e' =>
          rw [List.forM, first] at h
          cases h
          exact ⟨item, List.mem_cons_self, first⟩
      | ok _ =>
          rw [List.forM, first] at h
          obtain ⟨later, mem, fails⟩ := ih h
          exact ⟨later, List.mem_cons_of_mem _ mem, fails⟩

theorem mapM_congr_of_mem {ε α β : Type} {xs : List α} {f f' : α → Except ε β}
    (same : ∀ x ∈ xs, f x = f' x) : xs.mapM f = xs.mapM f' := by
  induction xs with
  | nil => rfl
  | cons x xs ih =>
      obtain ⟨first, later⟩ := List.forall_mem_cons.1 same
      rw [List.mapM_cons, List.mapM_cons, first, ih later]

theorem mem_of_mapM_eq_ok {ε α β : Type} {f : α → Except ε β} {xs : List α} {ys : List β} {y : β}
    (h : xs.mapM f = .ok ys) : y ∈ ys ↔ ∃ x ∈ xs, f x = .ok y := by
  induction xs generalizing ys with
  | nil =>
      cases h
      simp
  | cons x xs ih =>
      rw [List.mapM_cons] at h
      obtain ⟨y', first, h⟩ := bind_eq_ok.1 h
      obtain ⟨ys', later, h⟩ := bind_eq_ok.1 h
      cases h
      simp [ih later, first, eq_comm]

theorem exists_of_mapM_eq_ok {ε α β : Type} {f : α → Except ε β} {xs : List α} {ys : List β}
    (h : xs.mapM f = .ok ys) : ∀ x ∈ xs, ∃ y, f x = .ok y := by
  induction xs generalizing ys with
  | nil => simp
  | cons x xs ih =>
      rw [List.mapM_cons] at h
      obtain ⟨y, first, h⟩ := bind_eq_ok.1 h
      obtain ⟨ys', later, -⟩ := bind_eq_ok.1 h
      exact List.forall_mem_cons.2 ⟨⟨y, first⟩, ih later⟩

theorem exists_of_getElem?_mapM {ε α β : Type} {f : α → Except ε β} {xs : List α} {ys : List β}
    {index : Nat} {y : β} (h : xs.mapM f = .ok ys) (at_index : ys[index]? = some y) :
    ∃ x, xs[index]? = some x ∧ f x = .ok y := by
  induction xs generalizing ys index with
  | nil =>
      cases h
      simp at at_index
  | cons x xs ih =>
      rw [List.mapM_cons] at h
      obtain ⟨y', first, h⟩ := bind_eq_ok.1 h
      obtain ⟨ys', later, h⟩ := bind_eq_ok.1 h
      cases h
      cases index with
      | zero =>
          cases at_index
          exact ⟨x, rfl, first⟩
      | succ index => exact ih later at_index

/-- A fault as it is told. -/
def Fault.message : Fault → String
  | tooManyPlayers => "At most 255 players supported"
  | emptyRange => "cannot sample empty range"
  | repeatedDefault => "switch declares more than one default case"
  | wrongOption option purpose selection =>
      option ++ " only applies to " ++ purpose.display ++ " selections (" ++ selection ++ ")"
  | badPattern selection defect => "invalid pattern for " ++ selection ++ ": " ++ defect.message
  | overflow => "attempt to add with overflow"

end Tabletop
