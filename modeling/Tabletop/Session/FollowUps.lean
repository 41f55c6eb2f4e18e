import Tabletop.Flow
import Tabletop.Session.FlowId

/-! # Follow-ups under way

Each follow-up gets a number of its own and a flow that offers its action to
its player, arguments filled in, and nothing else. Numbers are not used again
up to the last one.

## Implementation notes

The counter starts again at zero behind the last number. `Overflow` says
whether an operation may go there: it may not, unless it is told to.
-/

namespace Tabletop

variable {G : Type}

/-- The step that offers a follow-up. -/
def FollowUp.step (f : FollowUp) : ActionStep G (Flow G) where
  players := some fun _ _ => .ok [f.player]
  prompt := f.prompt
  passPrompt := none
  actions := [{ name := f.name, block := [], prefilled := f.args, expanded := false }]

/-- The flow of a follow-up under a number. -/
def FollowUp.flow (f : FollowUp) (id : UInt32) : Flow G :=
  (Flow.sequence [.node (Flow.act f.step)]).named (some (FlowId.followUpName id))

/-- What it means to go on from the last number of a counter. -/
inductive Overflow where
  /-- It is a fault, and the operation ends. -/
  | faults
  /-- The counter starts again at zero. -/
  | wraps
  deriving DecidableEq, Repr

/-- The follow-ups under way, by number. -/
@[ext]
structure FollowUps where
  entries : List (UInt32 × FollowUp) := []
  /-- The number of the next follow-up. -/
  next : UInt32 := 0
  deriving DecidableEq

namespace FollowUps

/-- The last number of a follow-up. -/
def last : UInt32 := 4294967295

/-- No follow-up was ever under way. -/
def empty : FollowUps := {}

/-- The follow-up of a number. -/
def get? (fs : FollowUps) (id : UInt32) : Option FollowUp := fs.entries.lookup id

/-- Forgets a follow-up. -/
def remove (fs : FollowUps) (id : UInt32) : FollowUps :=
  { fs with entries := fs.entries.filter fun e => e.1 != id }

/-- Puts a follow-up under a number, in place of the one before. -/
def put (fs : FollowUps) (id : UInt32) (f : FollowUp) : FollowUps :=
  { fs with entries := (id, f) :: (fs.remove id).entries }

/-- The next number is not below a bound. -/
def raise (fs : FollowUps) (least : UInt32) : FollowUps :=
  { fs with next := max fs.next least }

/-- Whether there may be a number after another one. -/
def goOn (overflow : Overflow) (id : UInt32) : Checked Unit :=
  if overflow = .faults ∧ id = last then .error .overflow else .ok ()

/-- Takes up a new follow-up under the next number. -/
def add (fs : FollowUps) (f : FollowUp) : FlowId × FollowUps :=
  (.followUp fs.next f, { fs.put fs.next f with next := fs.next + 1 })

/-- Takes up a follow-up under a number it had before. -/
def restore (fs : FollowUps) (id : UInt32) (f : FollowUp) : FollowUps :=
  (fs.put id f).raise (id + 1)

theorem goOn_faults_eq_ok {id : UInt32} : goOn .faults id = .ok () ↔ id ≠ last := by
  unfold goOn
  by_cases at_end : id = last <;> simp [at_end]

theorem goOn_wraps (id : UInt32) : goOn .wraps id = .ok () := rfl

theorem get?_remove (fs : FollowUps) (id id' : UInt32) :
    (fs.remove id).get? id' = if id' = id then none else fs.get? id' := by
  simp only [get?, remove]
  induction fs.entries with
  | nil => simp
  | cons e rest ih =>
      obtain ⟨key, f⟩ := e
      by_cases hk : key = id
      · subst hk
        by_cases hid : id' = key
        · subst hid
          simpa using ih
        · have hne : (id' == key) = false := by simpa using hid
          simpa [List.lookup_cons, hid, hne] using ih
      · by_cases he : id' = key
        · subst he
          simp [hk]
        · have hne : (id' == key) = false := by simpa using he
          simpa [List.lookup_cons, hk, hne] using ih

theorem get?_put (fs : FollowUps) (id id' : UInt32) (f : FollowUp) :
    (fs.put id f).get? id' = if id' = id then some f else fs.get? id' := by
  by_cases h : id' = id
  · subst h
    simp [get?, put]
  · have hne : (id' == id) = false := by simpa using h
    have get?_eq : (fs.put id f).get? id' = (fs.remove id).get? id' := by
      simp [get?, put, List.lookup_cons, hne]
    rw [get?_eq, get?_remove]
    simp [h]

theorem get?_add (fs : FollowUps) (f : FollowUp) : (fs.add f).2.get? fs.next = some f :=
  (fs.get?_put fs.next fs.next f).trans (if_pos rfl)

end FollowUps

end Tabletop
