import Tabletop.Proofs.Session.Coherence

/-! # Runs

A run is a list of operations on a new table, each answered by a reply or an error.
A snapshot may be taken up on the way if a table of another run stood there, under
the same flows and actions.

Main statements: `Runs.coherent` and `Runs.sound`.
-/

namespace Tabletop

variable {G : Type}

/-- What can be asked of a table. -/
inductive Operation (G : Type) where
  | start
  | playOne
  | play
  | submit (move : Move)
  | force (move : Move)
  | replay (moves : List Move)
  | save
  | restore (s : Snapshot)
  | restoreText (text : String)
  /-- The host takes the messages. -/
  | drain
  /-- The host uses the dice. -/
  | draw (use : Dice → Checked (List Int64 × Dice))
  /-- The host changes its game. -/
  | host (change : G → G)
  | awaiting
  | menu (player : Player) (name : Option String) (args : Option Args)

/-- What an operation answers. -/
inductive Reply where
  | done
  | signal (signal : Signal)
  | refusal (refusal : Option Refusal)
  | snapshot (s : Snapshot)
  | messages (messages : List String)
  | values (values : List Int64)
  | players (players : List Player)
  | menu (menu : Option Menu)

namespace Operation

variable [Game G]

/-- Carries out an operation. -/
def run (rules : Rules G) (op : Operation G) (overflow : Overflow := .faults) : Drive G Reply :=
  match op with
  | start => do
      rules.start
      return .done
  | playOne => do return .signal (← rules.playOne)
  | play => do
      rules.play
      return .done
  | submit move => do return .refusal (← rules.submit move overflow)
  | force move => do
      rules.force move overflow
      return .done
  | replay moves => do
      rules.replay moves overflow
      return .done
  | save => do return .snapshot (← Drive.session).snapshot
  | restore s => do
      rules.restore s overflow
      return .done
  | restoreText text => do
      rules.restoreText text overflow
      return .done
  | drain => do
      let messages := (← Drive.session).messages
      Drive.change fun s => { s with messages := [] }
      return .messages messages
  | draw use => do
      let (values, dice) ← use (← Drive.session).dice
      Drive.change fun s => { s with dice }
      return .values values
  | host change => do
      let t ← get
      Drive.putGame (change t.game) t.session.dice
      return .done
  | awaiting => do return .players (← rules.awaitingPlayers (← get))
  | menu player name args => do return .menu (← rules.menu? (← get) player name args)

omit [Game G] in
/-- The operation takes up a snapshot. -/
def isRestore : Operation G → Bool
  | restore _ | restoreText _ => true
  | _ => false

omit [Game G] in
/-- The operation puts other flows in place of all that are under way. -/
def startsOver : Operation G → Bool
  | restore _ | restoreText _ | replay _ => true
  | _ => false

end Operation

/-- The replies to some operations in a row, and the table they leave behind. An
operation that ends in an error does not keep the next one from being tried. -/
def Rules.runAll [Game G] (rules : Rules G) :
    List (Operation G) → Table G → List (Playing Reply) × Table G
  | [], t => ([], t)
  | op :: ops, t =>
      let (reply, t) := (op.run rules).on t
      let (replies, t) := rules.runAll ops t
      (reply :: replies, t)

theorem Rules.runAll_cons [Game G] (rules : Rules G) (op : Operation G) (ops : List (Operation G))
    (t : Table G) :
    rules.runAll (op :: ops) t =
      (((op.run rules).on t).1 :: (rules.runAll ops ((op.run rules).on t).2).1,
        (rules.runAll ops ((op.run rules).on t).2).2) := rfl

/-- Some operations on a new table have these replies and leave this table behind.
Snapshots that are taken up were taken in runs of the same flows and actions. -/
inductive Runs [Game G] : Rules G → List (Playing Reply) → Table G → Prop
  | new {rules} (g : G) : Runs rules [] ⟨.new rules.config, g⟩
  | step {rules replies t} (run : Runs rules replies t) (op : Operation G)
      (plain : op.isRestore = false) :
      Runs rules (replies ++ [((op.run rules).on t).1]) ((op.run rules).on t).2
  | restore {rules replies t config replies' t'} (run : Runs rules replies t)
      (saved : Runs { rules with config } replies' t') :
      Runs rules (replies ++ [(((Operation.restore t'.session.snapshot).run rules).on t).1])
        (((Operation.restore t'.session.snapshot).run rules).on t).2

section Runs

variable [Game G] {rules : Rules G} {replies : List (Playing Reply)} {t : Table G}

/-- Operations that go on with what is under way uphold what units of play and moves
uphold, and with a reply they keep a session live. -/
theorem Rules.Upheld.goOn {I : Session → Prop} {E : PlayError → Prop} (u : rules.Upheld I E)
    {op : Operation G} (goes_on : op.startsOver = false) (h : I t.session)
    (kept : rules.KeptByMoves I t.session) :
    Rules.Leaves I E (fun s => t.session.Live → s.Live) (op.run rules) t := by
  have live {s : Session} (h : I s ∧ s.Live) : I s ∧ (t.session.Live → s.Live) :=
    ⟨h.1, fun _ => h.2⟩
  cases op with
  | start => exact .bind ((u.start h).mono fun _ _ h => .pure (live h))
  | playOne => exact .bind ((u.playOne h).mono fun _ _ h => .pure (live h))
  | play => exact .bind ((u.play h).mono fun _ _ h => .pure (live h))
  | submit move => exact .bind ((u.submit h kept move).mono fun _ _ h => .pure (live h))
  | force move => exact .bind ((u.force h kept move).mono fun _ _ h => .pure (live h))
  | save => exact .session (.pure ⟨h, id⟩)
  | restore | restoreText | replay => cases goes_on
  | drain => exact .session (.bind (.change (.pure ⟨u.aside h rfl rfl, id⟩)))
  | draw use =>
      refine .session (.bind (.checked (fun _ _ => ?_) fun _ => ⟨u.other rfl, h⟩))
      exact .bind (.change (.pure ⟨u.aside h rfl rfl, id⟩))
  | host change => exact .get (.bind (.putGame (.pure ⟨u.aside h rfl rfl, id⟩)))
  | awaiting =>
      exact .get (.bind (.checked (fun _ _ => .pure ⟨h, id⟩) fun _ => ⟨u.other rfl, h⟩))
  | menu player name args =>
      exact .get (.bind (.checked (fun _ _ => .pure ⟨h, id⟩) fun _ => ⟨u.other rfl, h⟩))

/-- Operations other than restoring uphold what units of play and moves uphold, and with a
reply they keep a session live. -/
theorem Rules.Upheld.run {I : Session → Prop} {E : PlayError → Prop} (u : rules.Upheld I E)
    (kept : ∀ s, I s → rules.KeptByMoves I s) {op : Operation G} (plain : op.isRestore = false)
    (h : I t.session) : Rules.Leaves I E (fun s => t.session.Live → s.Live) (op.run rules) t := by
  cases op with
  | replay moves =>
      exact .bind ((u.replay kept t moves).mono fun _ _ h => .pure ⟨h.1, fun _ => h.2⟩)
  | restore | restoreText => cases plain
  | _ => exact u.goOn rfl h (kept _ h)

/-- What is upheld holds after any operations in a row, and all their errors are allowed. -/
theorem Rules.Upheld.runAll {I : Session → Prop} {E : PlayError → Prop} (u : rules.Upheld I E)
    (kept : ∀ s, I s → rules.KeptByMoves I s) (h : I t.session) (ops : List (Operation G))
    (plain : ∀ op ∈ ops, op.isRestore = false) :
    I (rules.runAll ops t).2.session ∧ ∀ e, .error e ∈ (rules.runAll ops t).1 → E e := by
  induction ops generalizing t with
  | nil => exact ⟨h, nofun⟩
  | cons op ops ih =>
      obtain ⟨op_plain, ops_plain⟩ := List.forall_mem_cons.1 plain
      have ends := u.run kept op_plain h
      have left : I ((op.run rules).on t).2.session :=
        ends.any_of_on (fun _ _ h => h.1) fun _ _ h => h.2
      obtain ⟨holds, allowed⟩ := ih left ops_plain
      rw [runAll_cons]
      refine ⟨holds, fun e fails => ?_⟩
      rcases List.mem_cons.1 fails with first | later
      · exact (ends.fair_of_on first.symm).1
      · exact allowed e later

/-- All operations of a run had a reply. -/
def Replied (replies : List (Playing Reply)) : Prop := ∀ reply ∈ replies, reply.isOk

theorem replied_cons {reply : Playing Reply} :
    Replied (reply :: replies) ↔ reply.isOk ∧ Replied replies := List.forall_mem_cons

theorem replied_append_singleton {reply : Playing Reply} :
    Replied (replies ++ [reply]) ↔ Replied replies ∧ reply.isOk := by
  simp [Replied, or_imp, forall_and]

/-- A run leaves a coherent session behind, and a live one if all its operations had
a reply. -/
theorem Runs.coherent_and_live (h : Runs rules replies t) :
    rules.Coherent t.session ∧ (Replied replies → t.session.Live) := by
  induction h with
  | new g => exact ⟨Rules.coherent_new _, fun _ => nofun⟩
  | step run op plain ih =>
      have ends := Rules.upheld_coherent.run Rules.coherent_keptByMoves plain ih.1
      refine ⟨ends.any_of_on (fun _ _ h => h.1) fun _ _ h => h.2, fun replied => ?_⟩
      obtain ⟨before, replied⟩ := replied_append_singleton.1 replied
      obtain ⟨r, -, live⟩ := ends.good_of_on replied
      exact live (ih.2 before)
  | @restore rules replies t config replies' t' run saved ih saved_ih =>
      have saved : rules.Coherent t'.session := ⟨saved_ih.1.track, saved_ih.1.stands⟩
      have ends : rules.Secures ((Operation.restore t'.session.snapshot).run rules) t :=
        .bind ((Rules.restore_secures ih.1 saved).mono fun _ _ h => .pure h)
      refine ⟨ends.any_of_on (fun _ _ h => h.toCoherent) fun _ _ h => h, fun replied => ?_⟩
      obtain ⟨-, replied⟩ := replied_append_singleton.1 replied
      obtain ⟨r, sound⟩ := ends.good_of_on replied
      exact sound.live

theorem Runs.coherent (h : Runs rules replies t) : rules.Coherent t.session :=
  h.coherent_and_live.1

theorem Runs.sound (h : Runs rules replies t) (replied : Replied replies) :
    rules.Sound t.session := ⟨h.coherent, h.coherent_and_live.2 replied⟩

/-- Operations other than restoring go on with a run. -/
theorem Runs.runAll (h : Runs rules replies t) (ops : List (Operation G))
    (plain : ∀ op ∈ ops, op.isRestore = false) :
    Runs rules (replies ++ (rules.runAll ops t).1) (rules.runAll ops t).2 := by
  induction ops generalizing replies t with
  | nil => simpa [Rules.runAll] using h
  | cons op ops ih =>
      obtain ⟨op_plain, ops_plain⟩ := List.forall_mem_cons.1 plain
      have later := ih (h.step op op_plain) ops_plain
      rw [List.append_assoc] at later
      exact later

end Runs

end Tabletop
