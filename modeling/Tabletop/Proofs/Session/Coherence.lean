import Tabletop.Proofs.Session.Upheld

/-! # Coherent sessions

A session is coherent when what is kept of its follow-ups goes with its flows under
way, and each of these is a flow of the rules with a trail that fits it. It is sound
if also a game that is played has a flow under way. Units of play and moves uphold
coherence, and the snapshot of a sound session leads back to it.

Main statements: `upheld_coherent`, `restore_secures` and `restore_snapshot`.
-/

namespace Tabletop

variable {G : Type}

namespace Rules

/-- A flow under way is one of the rules, and its trail fits. -/
def Stands (rules : Rules G) (a : Activation) : Prop :=
  ∃ flow, rules.flowOf? a.flow = some flow ∧ flow.Fits a.trail

/-- The follow-ups kept are those of the flows under way, and all of these stand. -/
structure Coherent (rules : Rules G) (s : Session) : Prop where
  track : s.followUps.Track s.stack
  stands : ∀ a ∈ s.stack, rules.Stands a

/-- A coherent session that can go on if its game is played. -/
structure Sound (rules : Rules G) (s : Session) : Prop extends Coherent rules s where
  live : s.Live

variable {rules : Rules G} {s : Session} {a top : Activation} {flow : Flow G} {trail : Trail}

theorem coherent_new (config : Config) : rules.Coherent (.new config) :=
  ⟨FollowUps.track_empty, by simp [Session.new]⟩

theorem Coherent.push (h : rules.Coherent s) (plain : a.flow.followUp? = none)
    (stands : rules.Stands a) : rules.Coherent (s.push a) :=
  ⟨(FollowUps.track_cons_of_none plain).2 h.track, List.forall_mem_cons.2 ⟨stands, h.stands⟩⟩

theorem Coherent.pop (h : rules.Coherent s) : rules.Coherent s.pop := by
  obtain ⟨status, stack, dice, followUps, history, messages⟩ := s
  obtain ⟨track, stands⟩ := h
  cases stack with
  | nil => exact ⟨track, stands⟩
  | cons a stack =>
      obtain ⟨flow, args, trail⟩ := a
      have below := (List.forall_mem_cons.1 stands).2
      cases flow with
      | followUp id f => exact ⟨track.remove rfl, below⟩
      | _ => exact ⟨(FollowUps.track_cons_of_none rfl).1 track, below⟩

theorem Coherent.setTrail (h : rules.Coherent s) (on_top : s.top? = some top)
    (found : rules.flowOf? top.flow = some flow) (fits : flow.Fits trail) :
    rules.Coherent (s.setTrail trail) := by
  obtain ⟨status, stack, dice, followUps, history, messages⟩ := s
  obtain ⟨track, stands⟩ := h
  cases stack with
  | nil => cases on_top
  | cons a stack =>
      obtain rfl : a = top := by simpa [Session.top?] using on_top
      have top_stands : rules.Stands { a with trail } := ⟨flow, found, fits⟩
      exact ⟨⟨track.entries_eq, track.distinct, track.below⟩,
        List.forall_mem_cons.2 ⟨top_stands, (List.forall_mem_cons.1 stands).2⟩⟩

/-- The flow of a flow under way is found. -/
theorem Coherent.get?_eq (h : rules.Coherent s) (mem : a ∈ s.stack)
    (found : rules.flowOf? a.flow = some flow) :
    rules.flows.get? s.followUps a.flow = some flow := by
  cases hf : a.flow with
  | followUp id f =>
      rw [hf, flowOf?] at found
      split at found
      · rw [FlowBook.get?, h.track.get?_eq mem hf]
        exact found
      · cases found
  | _ =>
      rw [hf] at found
      exact found

theorem Coherent.add (h : rules.Coherent s) {f : FollowUp} (more : s.followUps.next ≠ FollowUps.last)
    (declared : rules.repertoire.contains f.name)
    (fits : (f.flow s.followUps.next : Flow G).Fits trail) :
    rules.Coherent ({ s with followUps := (s.followUps.add f).2 }.push
      ⟨(s.followUps.add f).1, .empty, trail⟩) :=
  ⟨h.track.add more f _ _, List.forall_mem_cons.2 ⟨⟨_, if_pos declared, fits⟩, h.stands⟩⟩

section Operations

variable [Game G] {α : Type} {t : Table G}

/-- Coherence is upheld, whatever the error is. -/
theorem upheld_coherent : rules.Upheld rules.Coherent fun _ => True where
  new := coherent_new
  aside := by
    intro s s' h stack_eq followUps_eq
    exact ⟨stack_eq ▸ followUps_eq ▸ h.track, stack_eq ▸ h.stands⟩
  finds := by
    intro s top h on_top
    have mem := mem_stack_of_top? on_top
    obtain ⟨flow, found, fits⟩ := h.stands top mem
    exact .inr ⟨flow, h.get?_eq mem found, fits, fun _ fits _ => h.setTrail on_top found fits⟩
  push := fun h plain found enters => h.push plain ⟨_, found, fits_of_entersAt enters⟩
  pop := Coherent.pop
  add := fun h more declared enters => h.add more declared (fits_of_entersAt enters)
  undeclared := fun _ => trivial
  other := fun _ => trivial

theorem coherent_keptByMoves (s : Session) (h : rules.Coherent s) :
    rules.KeptByMoves rules.Coherent s := by
  intro top flow stop g move trail on_top found _ _ fits
  have mem := mem_stack_of_top? on_top
  obtain ⟨flow', told, -⟩ := h.stands top mem
  obtain ⟨⟩ := found.symm.trans (h.get?_eq mem told)
  exact h.setTrail on_top told fits

/-- From the table on, an operation ends with a sound session, or with an error and a
coherent one. -/
def Secures (rules : Rules G) (d : Drive G α) (t : Table G) : Prop :=
  d.Ends t (fun _ t' => rules.Sound t'.session) fun _ t' => rules.Coherent t'.session

end Operations

/-! ### Saving and restoring -/

section Restore

theorem savedFlow_eq_ok {id : FlowId} (followUps : FollowUps) :
    rules.savedFlow followUps id = .ok flow ↔ rules.flowOf? id = some flow := by
  cases id with
  | followUp number f =>
      simp only [savedFlow, flowOf?]
      split <;> simp
  | _ =>
      rw [← get?_of_plain rfl followUps, ← FlowBook.get_eq_ok]
      rfl

theorem checkSaved_eq_ok (followUps : FollowUps) :
    rules.checkSaved followUps a = .ok () ↔ rules.Stands a := by
  simp only [checkSaved, bind_eq_ok, savedFlow_eq_ok, Stands]
  apply exists_congr
  intro flow
  apply and_congr_right
  intro _
  unfold Flow.Fits
  cases flow.fit a.trail with
  | ok _ => exact ⟨fun _ => rfl, fun _ => rfl⟩
  | error e => exact ⟨nofun, nofun⟩

/-- A snapshot is accepted if all its flows under way stand, and there is one if the
game is played. The follow-ups of the session that takes it up do not matter. -/
theorem checkSnapshot_eq_ok {s : Snapshot} (followUps : FollowUps) :
    rules.checkSnapshot followUps s = .ok () ↔
      (s.status = .playing → s.stack ≠ []) ∧ ∀ a ∈ s.stack, rules.Stands a := by
  unfold checkSnapshot
  split
  · rename_i stuck
    simp only [reduceCtorEq, false_iff]
    rintro ⟨live, -⟩
    exact live stuck.1 (List.isEmpty_iff.1 stuck.2)
  · rename_i not_stuck
    simp only [forM_eq_ok, List.mem_reverse, checkSaved_eq_ok]
    constructor
    · intro stands
      refine ⟨?_, stands⟩
      intro playing empty
      exact not_stuck ⟨playing, List.isEmpty_iff.2 empty⟩
    · exact And.right

/-- A snapshot is admitted if it is accepted and its follow-ups have numbers after theirs. -/
theorem checkRestore_eq_ok {s : Snapshot} (followUps : FollowUps) :
    rules.checkRestore followUps s .faults = .ok () ↔
      (s.status = .playing → s.stack ≠ []) ∧ (∀ a ∈ s.stack, rules.Stands a) ∧
        ∀ e ∈ followUpEntries s.stack, e.1 ≠ FollowUps.last := by
  rw [← and_assoc, ← checkSnapshot_eq_ok followUps, ← Session.numbersGoOn_eq_ok, checkRestore]
  exact bind_eq_ok.trans
    ⟨fun ⟨_, accepted, go_on⟩ => ⟨accepted, Playing.ofChecked_eq_ok.1 go_on⟩,
      fun ⟨accepted, go_on⟩ => ⟨_, accepted, Playing.ofChecked_eq_ok.2 go_on⟩⟩

/-- The snapshot of a coherent session leads to a sound session if it is admitted. -/
theorem restore_secures {t : Table G} (h : rules.Coherent t.session) (saved : rules.Coherent s) :
    rules.Secures (rules.restore s.snapshot) t := by
  refine .session (.bind (.playing (fun _ admitted => .change ?_) fun _ _ => h))
  rw [Session.ofSnapshot_snapshot saved.track]
  exact ⟨⟨saved.track, saved.stands⟩, ((checkRestore_eq_ok _).1 admitted).1⟩

/-- The snapshot of a sound session is admitted and leads back to the session, but for
its messages. -/
theorem restore_snapshot (saved : rules.Sound s) (t : Table G) :
    (rules.restore s.snapshot).on t = (.ok (), { t with session := { s with messages := [] } }) := by
  have more : ∀ e ∈ followUpEntries s.stack, e.1 ≠ FollowUps.last :=
    fun e mem => FollowUps.ne_last_of_lt (saved.track.below e mem)
  have admitted : rules.checkRestore t.session.followUps s.snapshot .faults = .ok () :=
    (checkRestore_eq_ok _).2 ⟨saved.live, saved.stands, more⟩
  simp only [restore, Drive.on_bind, Drive.on_session, Drive.on_playing, admitted, Drive.on_change,
    Session.ofSnapshot_snapshot saved.track]

end Restore

end Rules

end Tabletop
