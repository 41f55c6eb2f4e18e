import Tabletop.Proofs.Session.Coherence

/-! # What lies below the running flow

Play is about the flow on top of those under way, and about flows that are entered on
top of it. As long as it is not left, the ones below are not looked at: they stay as
they are, and all goes the same way whatever they are.

Main statements: `playOne_frames`, `playWithin_over`, `submit_over` and `force_over`.
-/

namespace Tabletop

variable {G : Type} {α β : Type}

/-- The session with more flows below the ones under way. -/
def Session.over (s : Session) (left : List Activation) : Session :=
  { s with stack := s.stack ++ left }

/-- The table with more flows below the ones under way. -/
def Table.over (t : Table G) (left : List Activation) : Table G :=
  { t with session := t.session.over left }

namespace Session

variable {s : Session} {top : Activation} (left : List Activation)

theorem top?_over (on_top : s.top? = some top) : (s.over left).top? = some top := by
  rw [top?, Session.over, List.head?_append, show s.stack.head? = some top from on_top]
  rfl

theorem setTrail_over (on_top : s.top? = some top) (trail : Trail) :
    (s.over left).setTrail trail = (s.setTrail trail).over left := by
  obtain ⟨status, stack, dice, followUps, history, messages⟩ := s
  cases stack with
  | nil => cases on_top
  | cons a stack => rfl

theorem pop_over (on_top : s.top? = some top) : (s.over left).pop = s.pop.over left := by
  obtain ⟨status, stack, dice, followUps, history, messages⟩ := s
  cases stack with
  | nil => cases on_top
  | cons a stack =>
      obtain ⟨flow, args, trail⟩ := a
      cases flow <;> rfl

theorem status_setTrail (trail : Trail) : (s.setTrail trail).status = s.status := by
  unfold setTrail
  split <;> rfl

theorem status_pop : s.pop.status = s.status := by
  unfold pop
  split
  · rfl
  · split <;> rfl

theorem status_record (config : Config) (move : Move) :
    (s.record config move).status = s.status := by
  unfold record
  split <;> rfl

theorem record_over (config : Config) (move : Move) :
    (s.over left).record config move = (s.record config move).over left := by
  unfold record
  split <;> rfl

theorem exists_top? (nonempty : s.stack ≠ []) : ∃ top, s.top? = some top := by
  obtain ⟨top, rest, stack_eq⟩ := List.exists_cons_of_ne_nil nonempty
  exact ⟨top, by rw [top?, stack_eq]; rfl⟩

end Session

namespace Drive

/-- Whatever flows lie below those of a table, the operation comes to the same end and
leaves them as they are, and with a result it ends well. -/
def Frames (d : Drive G α) (t : Table G) (good : α → Table G → Prop) : Prop :=
  ∃ r t', (∀ left ≠ [], d.on (t.over left) = (r, t'.over left)) ∧ ∀ a, r = .ok a → good a t'

namespace Frames

variable {d : Drive G α} {k : α → Drive G β} {t : Table G} {good : α → Table G → Prop}
  {good' : β → Table G → Prop}

theorem mono {better : α → Table G → Prop} (h : d.Frames t better)
    (weaker : ∀ a t', better a t' → good a t') : d.Frames t good := by
  obtain ⟨r, t', same, ends⟩ := h
  exact ⟨r, t', same, fun a ok => weaker a t' (ends a ok)⟩

theorem pure {a : α} (h : good a t) : (Pure.pure a : Drive G α).Frames t good := by
  refine ⟨.ok a, t, fun _ _ => rfl, ?_⟩
  rintro _ ⟨⟩
  exact h

theorem throw (e : PlayError) : (MonadExcept.throw e : Drive G α).Frames t good :=
  ⟨.error e, t, fun _ _ => rfl, nofun⟩

/-- What holds at the end holds of the end that the operation comes to. -/
theorem runs (h : d.Frames t good) : d.Frames t fun a t' =>
    good a t' ∧ ∀ left ≠ [], d.on (t.over left) = (.ok a, t'.over left) := by
  obtain ⟨r, t', same, ends⟩ := h
  refine ⟨r, t', same, ?_⟩
  rintro a rfl
  exact ⟨ends a rfl, same⟩

/-- Nothing follows an error. -/
theorem throw_bind (e : PlayError) : ((MonadExcept.throw e : Drive G α) >>= k).Frames t good' :=
  ⟨.error e, t, fun _ _ => rfl, nofun⟩

theorem bind (h : d.Frames t fun a t' => (k a).Frames t' good') : (d >>= k).Frames t good' := by
  obtain ⟨r, t₁, same, ends⟩ := h
  cases r with
  | error e =>
      refine ⟨.error e, t₁, fun left some_left => ?_, nofun⟩
      rw [on_bind, same left some_left]
  | ok a =>
      obtain ⟨r, t', later_same, later_ends⟩ := ends a rfl
      refine ⟨r, t', fun left some_left => ?_, later_ends⟩
      rw [on_bind, same left some_left]
      exact later_same left some_left

/-- What is done on a session may be the same whatever lies below. -/
theorem session_of_eq {k : Session → Drive G β} (d : Drive G β)
    (same : ∀ left ≠ [], k (t.session.over left) = d) (h : d.Frames t good') :
    (Drive.session >>= k).Frames t good' := by
  obtain ⟨r, t', ends_same, ends⟩ := h
  refine ⟨r, t', fun left some_left => ?_, ends⟩
  rw [on_bind, on_session]
  dsimp only
  rw [show (t.over left).session = t.session.over left from rfl, same left some_left]
  exact ends_same left some_left

theorem session {k : Session → Drive G β}
    (same : ∀ left ≠ [], k (t.session.over left) = k t.session)
    (h : (k t.session).Frames t good') : (Drive.session >>= k).Frames t good' :=
  session_of_eq _ same h

theorem game {k : G → Drive G β} (h : (k t.game).Frames t good') :
    (Drive.game >>= k).Frames t good' := h

theorem get {k : Table G → Drive G β} (same : ∀ left ≠ [], k (t.over left) = k t)
    (h : (k t).Frames t good') : ((MonadState.get : Drive G (Table G)) >>= k).Frames t good' := by
  obtain ⟨r, t', ends_same, ends⟩ := h
  refine ⟨r, t', fun left some_left => ?_, ends⟩
  rw [on_bind, on_get]
  dsimp only
  rw [same left some_left]
  exact ends_same left some_left

theorem change {f : Session → Session} {good : Unit → Table G → Prop}
    (same : ∀ left ≠ [], f (t.session.over left) = (f t.session).over left)
    (h : good () { t with session := f t.session }) :
    (Drive.change f : Drive G Unit).Frames t good := by
  refine ⟨.ok (), { t with session := f t.session }, fun left some_left => ?_, fun _ _ => h⟩
  rw [on_change, show (t.over left).session = t.session.over left from rfl, same left some_left]
  rfl

theorem putGame {g : G} {dice : Dice} {good : Unit → Table G → Prop}
    (h : good () ⟨{ t.session with dice }, g⟩) : (Drive.putGame g dice).Frames t good :=
  ⟨.ok (), ⟨{ t.session with dice }, g⟩, fun _ _ => rfl, fun _ _ => h⟩

theorem playing {result : Playing α} (h : ∀ a, result = .ok a → good a t) :
    (liftM result : Drive G α).Frames t good := ⟨result, t, fun _ _ => rfl, h⟩

theorem checked {result : Checked α} (h : ∀ a, result = .ok a → good a t) :
    (liftM result : Drive G α).Frames t good :=
  ⟨Playing.ofChecked result, t, fun _ _ => rfl, fun a ok => h a (Playing.ofChecked_eq_ok.1 ok)⟩

/-- An operation for each of some items, one after the other. -/
theorem forM {ι : Type} {items : List ι} {f : ι → Drive G Unit} {keeps : Table G → Prop}
    (start : keeps t) (each : ∀ item t, keeps t → (f item).Frames t fun _ t' => keeps t') :
    (items.forM f).Frames t fun _ t' => keeps t' := by
  induction items generalizing t with
  | nil => exact pure start
  | cons item items ih => exact bind ((each item t start).mono fun _ _ => ih)

end Frames

end Drive

namespace Rules

variable [Game G] {rules : Rules G} {t : Table G} {top : Activation}

/-- Whatever flows lie below, a unit of play takes the first table to the second, on
which all flows of the first one have come to their end. -/
structure LastUnit (rules : Rules G) (v u : Table G) : Prop where
  some_flow : v.session.stack ≠ []
  at_end : u.session.stack = []
  leaves : ∀ left ≠ [], rules.playOne.on (v.over left) = (.ok .moved, u.over left)

/-- Whatever flows lie below those of a table, either the operation comes to the same
end and leaves them as they are, or the flows of the table come to their end first: then
the operation goes on from there by playing within a number of units. -/
inductive Over (rules : Rules G) (d : Drive G α) (t : Table G) : Prop
  | ends (r : Except PlayError α) (t' : Table G)
      (same : ∀ left ≠ [], d.on (t.over left) = (r, t'.over left))
  | goesOn (units : Nat) (a : α) (v u : Table G) (last : rules.LastUnit v u)
      (same : ∀ left ≠ [],
        d.on (t.over left) = (do rules.playWithin units; return a : Drive G α).on (u.over left))

section Over

variable {d : Drive G α}

theorem over_of_frames {good : α → Table G → Prop} (h : d.Frames t good) : rules.Over d t := by
  obtain ⟨r, t', same, -⟩ := h
  exact .ends r t' same

theorem over_pure (a : α) : rules.Over (pure a : Drive G α) t := .ends (.ok a) t fun _ _ => rfl

theorem over_throw (e : PlayError) : rules.Over (throw e : Drive G α) t :=
  .ends (.error e) t fun _ _ => rfl

/-- Nothing follows an error. -/
theorem over_throw_bind (e : PlayError) (k : α → Drive G β) :
    rules.Over ((throw e : Drive G α) >>= k) t := .ends (.error e) t fun _ _ => rfl

theorem over_of_on_eq {d' : Drive G α} (h : rules.Over d' t)
    (same : ∀ left ≠ [], d.on (t.over left) = d'.on (t.over left)) : rules.Over d t := by
  cases h with
  | ends r t' ends =>
      exact .ends r t' fun left some_left => (same left some_left).trans (ends left some_left)
  | goesOn units a v u last ends =>
      exact .goesOn units a v u last fun left some_left =>
        (same left some_left).trans (ends left some_left)

theorem over_session_of_eq {k : Session → Drive G α} (d : Drive G α)
    (same : ∀ left ≠ [], k (t.session.over left) = d) (h : rules.Over d t) :
    rules.Over (Drive.session >>= k) t := by
  refine over_of_on_eq h fun left some_left => ?_
  rw [Drive.on_bind, Drive.on_session]
  dsimp only
  rw [show (t.over left).session = t.session.over left from rfl, same left some_left]

theorem over_get {k : Table G → Drive G α} (same : ∀ left ≠ [], k (t.over left) = k t)
    (h : rules.Over (k t) t) : rules.Over ((MonadState.get : Drive G (Table G)) >>= k) t := by
  refine over_of_on_eq h fun left some_left => ?_
  rw [Drive.on_bind, Drive.on_get]
  dsimp only
  rw [same left some_left]

/-- What comes first leaves what lies below as it is. -/
theorem over_bind {k : α → Drive G β} (h : d.Frames t fun a t' => rules.Over (k a) t') :
    rules.Over (d >>= k) t := by
  obtain ⟨r, t₁, same, ends⟩ := h
  cases r with
  | error e =>
      refine .ends (.error e) t₁ fun left some_left => ?_
      rw [Drive.on_bind, same left some_left]
  | ok a =>
      have first (left) (some_left : left ≠ []) :
          (d >>= k).on (t.over left) = (k a).on (t₁.over left) := by
        rw [Drive.on_bind, same left some_left]
      cases ends a rfl with
      | ends r t' later =>
          exact .ends r t' fun left some_left => (first left some_left).trans (later left some_left)
      | goesOn units b v u last later =>
          exact .goesOn units b v u last fun left some_left =>
            (first left some_left).trans (later left some_left)

/-- What is made of the result is the same in the end. -/
theorem Over.map (f : α → β) (h : rules.Over d t) : rules.Over (do return f (← d)) t := by
  cases h with
  | ends r t' same =>
      refine .ends (r.map f) t' fun left some_left => ?_
      rw [Drive.on_bind, same left some_left]
      cases r <;> rfl
  | goesOn units a v u last same =>
      refine .goesOn units (f a) v u last fun left some_left => ?_
      rw [Drive.on_bind, same left some_left, ← Drive.on_bind]
      simp only [bind_assoc, pure_bind]

end Over

/-! ### Operations -/

omit [Game G] in
theorem flow_frames (id : FlowId) :
    (rules.flow id).Frames t fun flow t' =>
      t = t' ∧ rules.flows.get? t.session.followUps id = some flow :=
  .session (fun _ _ => rfl) (.playing fun _ found => ⟨rfl, FlowBook.get_eq_ok.1 found⟩)

theorem enterFlow_frames (id : FlowId) (args : Args) :
    (rules.enterFlow id args).Frames t fun _ t' =>
      t'.session.stack ≠ [] ∧ t'.session.status = t.session.status := by
  refine .bind ((flow_frames id).mono ?_)
  rintro flow _ ⟨rfl, -⟩
  refine .game (.bind (.checked fun trail _ => ?_))
  exact .change (fun _ _ => rfl) ⟨List.cons_ne_nil _ _, rfl⟩

/-- There is a flow on top, or nothing was asked for. -/
theorem enterCalls_frames (calls : List SubflowCall) :
    (rules.enterCalls calls).Frames t fun _ t' =>
      (t.session.stack ≠ [] → t'.session.stack ≠ []) ∧
        t'.session.status = t.session.status := by
  refine .forM ⟨id, rfl⟩ ?_
  rintro call t' ⟨-, same⟩
  exact (enterFlow_frames _ _).mono fun _ _ ends => ⟨fun _ => ends.1, ends.2.trans same⟩

theorem closeUnit_frames {p : Progress Trail G}
    (goes_on : t.session.stack = [] → p.signal = .complete) :
    (rules.closeUnit p).Frames t fun signal t' =>
      t'.session.status = t.session.status ∧ (t'.session.stack = [] → signal = .moved) := by
  refine .bind ((enterCalls_frames _).mono ?_)
  rintro _ t₁ ⟨nonempty, status_eq⟩
  refine .session_of_eq (pure (if p.signal = .complete then .moved else p.signal)) ?_
    (.pure ⟨status_eq, fun empty => ?_⟩)
  · intro left some_left
    have below : (t₁.session.over left).stack.isEmpty = false := by
      simp [Session.over, some_left]
    rw [below]
    rfl
  · by_cases h : t.session.stack = []
    · rw [if_pos (goes_on h)]
    · exact absurd empty (nonempty h)

/-- If a unit of play leaves the last flow, it goes on below. -/
theorem playTop_frames (on_top : t.session.top? = some top) :
    (rules.playTop top).Frames t fun signal t' =>
      t'.session.status = t.session.status ∧ (t'.session.stack = [] → signal = .moved) := by
  rw [playTop_eq]
  refine .bind ((flow_frames _).mono ?_)
  rintro flow _ ⟨rfl, -⟩
  refine .get (fun _ _ => rfl) (.bind (.playing fun p _ => ?_))
  have on_top' : ({ t.session with dice := p.dice } : Session).top? = some top := on_top
  have still_top : (Session.setTrail _ p.trail).top? = _ := top?_setTrail on_top'
  refine .bind (.putGame (.bind (.change (fun left _ => Session.setTrail_over left on_top' _) ?_)))
  split
  · exact .throw _
  · dsimp only
    split
    · rename_i ended
      refine .bind (.change (fun left _ => Session.pop_over left still_top) ?_)
      refine (closeUnit_frames fun _ => ended).mono fun _ _ ends => ⟨?_, ends.2⟩
      rw [ends.1, Session.status_pop, Session.status_setTrail]
    · refine (closeUnit_frames fun empty => ?_).mono fun _ _ ends => ⟨?_, ends.2⟩
      · exact absurd empty (Session.stack_ne_nil_of_top? still_top)
      · rw [ends.1, Session.status_setTrail]

/-- A unit of play leaves what lies below as it is. If it leaves the last flow, the game
is not over and goes on below. -/
theorem playOne_frames (nonempty : t.session.stack ≠ []) :
    rules.playOne.Frames t fun signal t' =>
      t'.session.stack = [] → signal = .moved ∧ t'.session.status ≠ .finished := by
  obtain ⟨top, on_top⟩ := Session.exists_top? nonempty
  cases status_eq : t.session.status with
  | notStarted =>
      refine .session_of_eq (MonadExcept.throw .notStarted) (fun left _ => ?_) (.throw _)
      simp only [Session.over, status_eq]
  | finished =>
      refine .session_of_eq (pure .complete) (fun left _ => ?_) (.pure fun empty => ?_)
      · simp only [Session.over, status_eq]
      · exact absurd empty nonempty
  | playing =>
      refine .session_of_eq (rules.playTop top) (fun left _ => ?_) ?_
      · rw [Session.top?_over left on_top, show (t.session.over left).status = _ from status_eq]
      · refine (playTop_frames on_top).mono ?_
        rintro signal t' ⟨same, moved⟩ empty
        refine ⟨moved empty, ?_⟩
        rw [same, status_eq]
        simp

omit [Game G] in
theorem stops_frames {a : Activation} : (rules.stops a).Frames t fun _ t' => t = t' := by
  refine .bind ((flow_frames _).mono ?_)
  rintro flow _ ⟨rfl, -⟩
  exact .pure rfl

theorem skipUnplayable_frames (nonempty : t.session.stack ≠ []) :
    rules.skipUnplayable.Frames t fun _ t' => t'.session.stack ≠ [] := by
  obtain ⟨top, on_top⟩ := Session.exists_top? nonempty
  refine .session_of_eq (do
      let skipped ← rules.skipStops (← Drive.game) (← rules.stops top) top.trail
      Drive.change fun s => s.setTrail skipped.1
      return skipped.2) (fun left _ => ?_) ?_
  · rw [Session.top?_over left on_top]
  · refine .game (.bind (stops_frames.mono ?_))
    rintro stops _ rfl
    refine .bind (.playing fun p _ => ?_)
    refine .bind (.change (fun left _ => Session.setTrail_over left on_top _) (.pure ?_))
    exact Session.stack_ne_nil_of_top? (top?_setTrail on_top)

/-- Play goes the same way whatever lies below, and once the flows of the table have come
to their end it goes on below. -/
theorem playWithin_over (nonempty : t.session.stack ≠ []) (units : Nat) :
    rules.Over (rules.playWithin units) t := by
  induction units generalizing t with
  | zero => exact over_throw _
  | succ units ih =>
      refine over_bind ((playOne_frames nonempty).runs.mono ?_)
      rintro signal t₁ ⟨goes_on, runs⟩
      by_cases finished : t₁.session.status = .finished
      · refine over_session_of_eq (pure ()) (fun left _ => ?_) (over_pure ())
        rw [if_pos (show (t₁.session.over left).status = _ from finished)]
      · refine over_session_of_eq (do
            if signal = .awaiting then
              if ← rules.skipUnplayable then rules.playWithin units
            else rules.playWithin units) (fun left _ => ?_) ?_
        · rw [if_neg (show ¬(t₁.session.over left).status = _ from finished)]
        by_cases left_last : t₁.session.stack = []
        · obtain ⟨rfl, -⟩ := goes_on left_last
          refine .goesOn units () t t₁ ⟨nonempty, left_last, runs⟩ fun left _ => ?_
          simp
        · split
          · refine over_bind ((skipUnplayable_frames left_last).mono ?_)
            intro skipped t₂ still
            split
            · exact ih still
            · exact over_pure ()
          · exact ih left_last

theorem play_over (nonempty : t.session.stack ≠ []) : rules.Over rules.play t :=
  playWithin_over nonempty _

omit [Game G] in
theorem requirePlaying_frames :
    (requirePlaying : Drive G Unit).Frames t fun _ t' => t = t' := by
  refine .session (fun _ _ => rfl) ?_
  split
  · exact .throw _
  · exact .throw _
  · exact .pure rfl

omit [Game G] in
theorem requireTop_frames (on_top : t.session.top? = some top) :
    (requireTop : Drive G Activation).Frames t fun a t' => a = top ∧ t = t' := by
  refine .session_of_eq (pure top) (fun left _ => ?_) (.pure ⟨rfl, rfl⟩)
  rw [Session.top?_over left on_top]

theorem settleMove_frames (nonempty : t.session.stack ≠ []) (s : Stop G) (move : Move)
    (performed : Performed G) :
    (settleMove s move performed).Frames t fun _ t' => t'.session.stack ≠ [] := by
  obtain ⟨outcome, g, dice⟩ := performed
  obtain ⟨top, on_top⟩ := Session.exists_top? nonempty
  let played : Table G := ⟨{ t.session with dice }, g⟩
  have on_top' : played.session.top? = some top := on_top
  refine .bind (.putGame (.bind ((requireTop_frames on_top').mono ?_)))
  rintro _ _ ⟨rfl, rfl⟩
  refine .bind (.playing fun trail _ => ?_)
  refine .change (fun left _ => Session.setTrail_over left on_top' _) ?_
  exact Session.stack_ne_nil_of_top? (top?_setTrail on_top')

theorem enterFollowUp_frames (f : FollowUp) :
    (rules.enterFollowUp f).Frames t fun _ t' => t'.session.stack ≠ [] := by
  unfold enterFollowUp
  split
  · refine .session (fun _ _ => rfl) (.bind (.checked fun _ _ => ?_))
    refine .bind (.change (fun _ _ => rfl) ?_)
    exact (enterFlow_frames _ _).mono fun _ _ ends => ends.1
  · exact .throw _

theorem takeOutcome_frames (nonempty : t.session.stack ≠ []) (outcome : Outcome) :
    (rules.takeOutcome outcome).Frames t fun _ t' => t'.session.stack ≠ [] :=
  .bind (.change (fun _ _ => rfl) (.forM nonempty fun f _ _ => enterFollowUp_frames f))

theorem submit_over (nonempty : t.session.stack ≠ []) (move : Move) :
    rules.Over (rules.submit move) t := by
  obtain ⟨top, on_top⟩ := Session.exists_top? nonempty
  refine over_bind (requirePlaying_frames.mono ?_)
  rintro _ _ rfl
  refine over_bind ((requireTop_frames on_top).mono ?_)
  rintro _ _ ⟨rfl, rfl⟩
  refine over_bind (stops_frames.mono ?_)
  rintro stops _ rfl
  dsimp only
  split
  · exact over_throw_bind _ _
  refine over_get (fun _ _ => rfl) (over_bind (.checked fun found _ => ?_))
  split
  · exact over_throw _
  refine over_bind (.playing fun result _ => ?_)
  split
  · exact over_pure _
  · refine over_bind ((settleMove_frames nonempty _ _ _).mono fun _ t₁ nonempty => ?_)
    refine over_bind (.change (fun _ _ => Session.record_over _ _ _) ?_)
    have recorded (config : Config) (move : Move) :
        (t₁.session.record config move).stack ≠ [] := by
      unfold Session.record
      split <;> exact nonempty
    refine over_bind ((takeOutcome_frames (recorded _ _) _).mono fun _ t₂ nonempty => ?_)
    exact (play_over nonempty).map fun _ => none

theorem force_over (nonempty : t.session.stack ≠ []) (move : Move) :
    rules.Over (rules.force move) t := by
  obtain ⟨top, on_top⟩ := Session.exists_top? nonempty
  unfold force
  dsimp only
  split
  · exact over_throw_bind _ _
  refine over_bind (requirePlaying_frames.mono ?_)
  rintro _ _ rfl
  refine over_bind ((requireTop_frames on_top).mono ?_)
  rintro _ _ ⟨rfl, rfl⟩
  refine over_bind (stops_frames.mono ?_)
  rintro stops _ rfl
  refine over_get (fun _ _ => rfl) (over_bind (.checked fun found _ => ?_))
  split
  · exact over_throw _
  refine over_bind (.playing fun performed _ => ?_)
  refine over_bind ((settleMove_frames nonempty _ _ _).mono fun _ t₁ nonempty => ?_)
  exact over_bind ((takeOutcome_frames nonempty _).mono fun _ t₂ nonempty => play_over nonempty)

end Rules

end Tabletop
