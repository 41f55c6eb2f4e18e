import Tabletop.Proofs.Session.Runs
import Tabletop.Script.Statement

/-! # The numbers of follow-ups

The follow-ups under way have numbers of their own, which are not given again, and a number
is found exactly if a follow-up under way has it. This holds after any operations if it is a
fault to go on from the last number. If the counter starts again at zero, it holds as long as
no operation goes there, for up to then the operations come to the same. Behind the last
number it fails: a follow-up that has the last number is not below the next one.

Main statements: `Runs.numbersExact`, `followUps_exact` and `numbers_start_again`.
-/

namespace Tabletop

variable {G : Type}

/-- The follow-up that is kept under a number is that of a flow under way. -/
theorem FollowUps.Track.exists_of_get? {fs : FollowUps} {stack : List Activation} {id : UInt32}
    {f : FollowUp} (h : fs.Track stack) (kept : fs.get? id = some f) :
    ∃ a ∈ stack, a.flow = .followUp id f := by
  rw [FollowUps.get?, h.entries_eq] at kept
  exact exists_of_mem_followUpEntries (mem_of_lookup_eq_some kept)

/-- The follow-ups under way have numbers of their own, which are not given again, and a
number is found exactly if a follow-up under way has it, with the flow of this follow-up. -/
structure Rules.NumbersExact (rules : Rules G) (s : Session) : Prop where
  distinct : ((followUpEntries s.stack).map Prod.fst).Nodup
  below : ∀ e ∈ followUpEntries s.stack, e.1 < s.followUps.next
  found : ∀ (id : UInt32) (f : FollowUp) (flow : Flow G),
    rules.flows.get? s.followUps (.followUp id f) = some flow ↔
      ∃ a ∈ s.stack, ∃ f', a.flow = .followUp id f' ∧ f'.flow id = flow

theorem Runs.numbersExact [Game G] {rules : Rules G} {replies : List (Playing Reply)}
    {t : Table G} (run : Runs rules replies t) : rules.NumbersExact t.session := by
  have track := run.coherent.track
  refine ⟨List.pairwise_map.2 track.distinct, track.below, ?_⟩
  intro id f flow
  rw [FlowBook.get?, Option.map_eq_some_iff]
  constructor
  · rintro ⟨f', kept, rfl⟩
    obtain ⟨a, mem, flow_eq⟩ := track.exists_of_get? kept
    exact ⟨a, mem, f', flow_eq, rfl⟩
  · rintro ⟨a, mem, f', flow_eq, rfl⟩
    exact ⟨f', track.get?_eq mem flow_eq, rfl⟩

/-! ### Up to the last number -/

/-- Unless it ends at the last number of a counter, the operation comes to the same as
another one. -/
def Drive.UpToOverflow {α : Type} (d d' : Drive G α) : Prop :=
  ∀ t, (d.on t).1 ≠ .error (.fault .overflow) → d'.on t = d.on t

namespace Drive.UpToOverflow

variable {α β : Type}

theorem refl (d : Drive G α) : d.UpToOverflow d := fun _ _ => rfl

/-- Nothing follows an error. -/
theorem throw_bind (e : PlayError) (k k' : α → Drive G β) :
    ((throw e : Drive G α) >>= k).UpToOverflow ((throw e : Drive G α) >>= k') := fun _ _ => rfl

theorem bind {d d' : Drive G α} {k k' : α → Drive G β} (first : d.UpToOverflow d')
    (later : ∀ a, (k a).UpToOverflow (k' a)) : (d >>= k).UpToOverflow (d' >>= k') := by
  intro t goes_on
  rw [on_bind] at goes_on
  have first := first t
  rw [on_bind, on_bind]
  rcases ends : d.on t with ⟨e | a, t'⟩
  · simp only [ends] at first goes_on
    rw [first fun overflows => goes_on (congrArg Except.error (Except.error.inj overflows))]
  · simp only [ends] at first goes_on
    rw [first nofun]
    exact later a t' goes_on

theorem forM {γ : Type} {items : List γ} {f f' : γ → Drive G Unit}
    (each : ∀ item, (f item).UpToOverflow (f' item)) :
    (items.forM f).UpToOverflow (items.forM f') := by
  induction items with
  | nil => exact refl _
  | cons item items ih => exact bind (each item) fun _ => ih

end Drive.UpToOverflow

namespace Session

theorem numbersGoOn_wraps (stack : List Activation) : numbersGoOn .wraps stack = .ok () := by
  refine forM_eq_ok.2 fun a _ => ?_
  cases a.flow <;> rfl

theorem eq_overflow_of_numbersGoOn {overflow : Overflow} {stack : List Activation} {fault : Fault}
    (h : numbersGoOn overflow stack = .error fault) : fault = .overflow := by
  obtain ⟨a, -, fails⟩ := exists_of_forM_eq_error h
  split at fails
  · unfold FollowUps.goOn at fails
    split at fails <;> cases fails
    rfl
  · cases fails

end Session

namespace Rules

open Drive

/-- A number has the same one after it, whether it is a fault to go on from the last one or
not, unless it is the last one. -/
theorem goOn_upToOverflow (id : UInt32) :
    (liftM (FollowUps.goOn .faults id) : Drive G Unit).UpToOverflow
      (liftM (FollowUps.goOn .wraps id)) := by
  intro t goes_on
  rw [on_checked] at goes_on
  rw [on_checked, on_checked]
  by_cases at_end : id = FollowUps.last
  · have fails : FollowUps.goOn .faults id = .error .overflow := if_pos ⟨rfl, at_end⟩
    rw [fails] at goes_on
    exact absurd rfl goes_on
  · rw [FollowUps.goOn_faults_eq_ok.2 at_end, FollowUps.goOn_wraps]

variable [Game G] (rules : Rules G)

theorem enterFollowUp_upToOverflow (f : FollowUp) :
    (rules.enterFollowUp f).UpToOverflow (rules.enterFollowUp f .wraps) := by
  unfold enterFollowUp
  split
  · exact .bind (.refl _) fun s => .bind (goOn_upToOverflow _) fun _ => .refl _
  · exact .refl _

theorem takeOutcome_upToOverflow (outcome : Outcome) :
    (rules.takeOutcome outcome).UpToOverflow (rules.takeOutcome outcome .wraps) :=
  .bind (.refl _) fun _ => .forM rules.enterFollowUp_upToOverflow

theorem submit_upToOverflow (move : Move) :
    (rules.submit move).UpToOverflow (rules.submit move .wraps) := by
  refine .bind (.refl _) fun _ => .bind (.refl _) fun top => .bind (.refl _) fun stops => ?_
  dsimp only
  split
  · exact .throw_bind _ _ _
  refine .bind (.refl _) fun t => .bind (.refl _) fun found => ?_
  cases found with
  | none => exact .refl _
  | some s =>
      refine .bind (.refl _) fun result => ?_
      cases result with
      | error refusal => exact .refl _
      | ok performed =>
          refine .bind (.refl _) fun _ => .bind (.refl _) fun _ => ?_
          exact .bind (rules.takeOutcome_upToOverflow _) fun _ => .refl _

theorem force_upToOverflow (move : Move) :
    (rules.force move).UpToOverflow (rules.force move .wraps) := by
  unfold force
  dsimp only
  split
  · exact .throw_bind _ _ _
  refine .bind (.refl _) fun _ => .bind (.refl _) fun top => .bind (.refl _) fun stops => ?_
  refine .bind (.refl _) fun t => .bind (.refl _) fun found => ?_
  cases found.or stops.head? with
  | none => exact .refl _
  | some s =>
      refine .bind (.refl _) fun performed => .bind (.refl _) fun _ => ?_
      exact .bind (rules.takeOutcome_upToOverflow _) fun _ => .refl _

theorem submitAll_upToOverflow (index : Nat) (moves : List Move) :
    (rules.submitAll index moves).UpToOverflow (rules.submitAll index moves .wraps) := by
  induction moves generalizing index with
  | nil => exact .refl _
  | cons move moves ih =>
      refine .bind (rules.submit_upToOverflow move) fun answer => ?_
      cases answer with
      | some refusal => exact .refl _
      | none => exact ih (index + 1)

theorem replay_upToOverflow (moves : List Move) :
    (rules.replay moves).UpToOverflow (rules.replay moves .wraps) :=
  .bind (.refl _) fun _ => .bind (.refl _) fun _ => .bind (.refl _) fun _ =>
    rules.submitAll_upToOverflow 0 moves

omit [Game G] in
theorem restore_upToOverflow (s : Snapshot) :
    (rules.restore s).UpToOverflow (rules.restore s .wraps) := by
  refine .bind (.refl _) fun session => .bind ?_ fun _ => .refl _
  intro t goes_on
  rw [on_playing] at goes_on
  rw [on_playing, on_playing]
  unfold checkRestore at *
  cases checked : rules.checkSnapshot session.followUps s with
  | error e => rfl
  | ok _ =>
      cases counted : Session.numbersGoOn .faults s.stack with
      | ok _ => rw [Session.numbersGoOn_wraps]
      | error fault =>
          obtain rfl := Session.eq_overflow_of_numbersGoOn counted
          rw [checked, counted] at goes_on
          exact absurd rfl goes_on

omit [Game G] in
theorem restoreText_upToOverflow (text : String) :
    (rules.restoreText text).UpToOverflow (rules.restoreText text .wraps) := by
  unfold restoreText
  split
  · exact rules.restore_upToOverflow _
  · exact .refl _

theorem run_upToOverflow (op : Operation G) : (op.run rules).UpToOverflow (op.run rules .wraps) := by
  cases op with
  | submit move => exact .bind (rules.submit_upToOverflow move) fun _ => .refl _
  | force move => exact .bind (rules.force_upToOverflow move) fun _ => .refl _
  | replay moves => exact .bind (rules.replay_upToOverflow moves) fun _ => .refl _
  | restore s => exact .bind (rules.restore_upToOverflow s) fun _ => .refl _
  | restoreText text => exact .bind (rules.restoreText_upToOverflow text) fun _ => .refl _
  | _ => exact .refl _

end Rules

/-- The reply is not that a counter is at its last number. -/
def CountsOn (reply : Playing Reply) : Prop := reply ≠ .error (.fault .overflow)

instance decidableCountsOn : DecidablePred CountsOn
  | .ok _ => isTrue nofun
  | .error e => decidable_of_iff (e ≠ .fault .overflow) (not_congr ⟨congrArg _, Except.error.inj⟩)

/-- Some operations on a new table have these replies and leave this table behind, and the
counter of follow-ups starts again at zero behind the last number. It does not come to that
if they are all to stay `before` it. -/
inductive UncheckedRuns [Game G] (before : Bool) :
    Rules G → List (Playing Reply) → Table G → Prop
  | new {rules} (g : G) : UncheckedRuns before rules [] ⟨.new rules.config, g⟩
  | step {rules replies t} (run : UncheckedRuns before rules replies t) (op : Operation G)
      (plain : op.isRestore = false) (counts : before → CountsOn ((op.run rules).on t).1) :
      UncheckedRuns before rules (replies ++ [((op.run rules .wraps).on t).1])
        ((op.run rules .wraps).on t).2
  | restore {rules replies t config replies' t'} (run : UncheckedRuns before rules replies t)
      (saved : UncheckedRuns before { rules with config } replies' t')
      (counts : before →
        CountsOn (((Operation.restore t'.session.snapshot).run rules).on t).1) :
      UncheckedRuns before rules
        (replies ++ [(((Operation.restore t'.session.snapshot).run rules .wraps).on t).1])
        (((Operation.restore t'.session.snapshot).run rules .wraps).on t).2

section UncheckedRuns

variable [Game G] {rules : Rules G} {replies : List (Playing Reply)} {t : Table G}

/-- Before the last number it does not matter what comes after it. -/
theorem UncheckedRuns.runs (run : UncheckedRuns true rules replies t) : Runs rules replies t := by
  induction run with
  | new g => exact .new g
  | step run op plain counts ih =>
      rw [Rules.run_upToOverflow _ op _ (counts rfl)]
      exact ih.step op plain
  | restore run saved counts ih saved_ih =>
      rw [Rules.run_upToOverflow _ _ _ (counts rfl)]
      exact ih.restore saved_ih

/-- Operations other than restoring that stay before the last number go on with a run. -/
theorem UncheckedRuns.runAll {before : Bool} (run : UncheckedRuns before rules replies t)
    (ops : List (Operation G)) (plain : ∀ op ∈ ops, op.isRestore = false)
    (counts : ∀ reply ∈ (rules.runAll ops t).1, CountsOn reply) :
    UncheckedRuns before rules (replies ++ (rules.runAll ops t).1) (rules.runAll ops t).2 := by
  induction ops generalizing replies t with
  | nil => simpa [Rules.runAll] using run
  | cons op ops ih =>
      obtain ⟨op_plain, ops_plain⟩ := List.forall_mem_cons.1 plain
      rw [Rules.runAll_cons] at counts ⊢
      obtain ⟨op_counts, ops_count⟩ := List.forall_mem_cons.1 counts
      have later := run.step op op_plain fun _ => op_counts
      rw [Rules.run_upToOverflow _ op _ op_counts] at later
      have later := ih later ops_plain ops_count
      rw [List.append_assoc] at later
      exact later

end UncheckedRuns

namespace Rules

variable [Game G] {rules : Rules G} {t : Table G}

/-- The follow-ups of a move are numbered one after the other, if the counter starts again
at zero. -/
theorem on_enterFollowUps {followUps : List FollowUp}
    (declared : ∀ f ∈ followUps, rules.repertoire.contains f.name) :
    ∃ t', (followUps.forM fun f => rules.enterFollowUp f .wraps).on t = (.ok (), t') ∧
      t'.session.followUps.next = t.session.followUps.next + UInt32.ofNat followUps.length ∧
        (∀ a ∈ t.session.stack, a ∈ t'.session.stack) ∧
          ∀ (k : Nat) (f : FollowUp), followUps[k]? = some f → ∃ a ∈ t'.session.stack,
            a.flow = .followUp (t.session.followUps.next + UInt32.ofNat k) f := by
  induction followUps generalizing t with
  | nil => exact ⟨t, rfl, by simp, fun _ => id, by simp⟩
  | cons f followUps ih =>
      obtain ⟨f_declared, declared⟩ := List.forall_mem_cons.1 declared
      obtain ⟨trail, -, ends⟩ := on_enterFollowUp (t := t) .wraps f_declared
      obtain ⟨t', later, next_eq, kept, numbered⟩ := ih declared (t := { t with
        session := Session.push { t.session with followUps := (t.session.followUps.add f).2 }
          ⟨(t.session.followUps.add f).1, .empty, trail⟩ })
      have one_more (k : Nat) : t.session.followUps.next + 1 + UInt32.ofNat k =
          t.session.followUps.next + UInt32.ofNat (k + 1) := by
        rw [UInt32.ofNat_add, UInt32.add_assoc, UInt32.add_comm 1]
        rfl
      refine ⟨t', Drive.on_bind_eq_ok.2 ⟨_, _, ends, later⟩, ?_, ?_, ?_⟩
      · rw [next_eq, List.length_cons, ← one_more]
        rfl
      · exact fun a mem => kept a (List.mem_cons_of_mem _ mem)
      · rintro (_ | k) g at_k
        · cases at_k
          refine ⟨_, kept _ List.mem_cons_self, ?_⟩
          rw [show UInt32.ofNat 0 = 0 from rfl, UInt32.add_zero]
          rfl
        · obtain ⟨a, mem, flow_eq⟩ := numbered k g at_k
          exact ⟨a, mem, flow_eq.trans (congrArg (FlowId.followUp · g) (one_more k))⟩

end Rules

/-- After any operations, with whatever replies, the numbers of the follow-ups under way are
exact. If the counter may start again at zero, they are so after any operations before that,
which are the same as if it may not. Where the next number is the last one, an operation that
takes up a follow-up ends there, or the follow-up is under way with a number that is not below
the next one. -/
theorem followUps_exact [Game G] (rules : Rules G) :
    (∀ (replies : List (Playing Reply)) (t : Table G),
      Runs rules replies t → rules.NumbersExact t.session) ∧
    (∀ (replies : List (Playing Reply)) (t : Table G),
      UncheckedRuns true rules replies t →
        Runs rules replies t ∧ rules.NumbersExact t.session) ∧
    ∀ (t : Table G) (f : FollowUp), rules.repertoire.contains f.name →
      t.session.followUps.next = FollowUps.last →
        (rules.enterFollowUp f).on t = (.error (.fault .overflow), t) ∧
          ∃ t' a, (rules.enterFollowUp f .wraps).on t = (.ok (), t') ∧
            t'.session.stack = a :: t.session.stack ∧ a.flow = .followUp FollowUps.last f ∧
              t'.session.followUps.next = 0 := by
  refine ⟨fun _ _ run => run.numbersExact,
    fun _ _ run => ⟨run.runs, run.runs.numbersExact⟩, ?_⟩
  intro t f declared at_end
  obtain ⟨_, -, fails⟩ := Rules.on_enterFollowUp (t := t) .faults declared
  obtain ⟨trail, -, ends⟩ := Rules.on_enterFollowUp (t := t) .wraps declared
  rw [at_end] at fails
  refine ⟨fails, _, _, ends, rfl, ?_, ?_⟩
  · exact congrArg (FlowId.followUp · f) at_end
  · exact congrArg (· + 1) at_end

/-- Round after round a player sends the others on errands: the second one is to pass on
what is to be fetched, and the first one to fetch something. -/
def errands : Rules Script.Host where
  flows := .ofMain (.forever [.node (.act ⟨none, none, none, [⟨"send", [], .empty, false⟩]⟩)])
  repertoire :=
    ((Dict.empty.insert "send" fun _ _ => .ok (sends "send" [passOn, fetch ⟨0⟩])).insert
      "pass on" fun _ _ => .ok (sends "pass on" [fetch ⟨1⟩])).insert
        "fetch" fun _ _ => .ok { name := "fetch" }
  config := { maxSteps := 8 }
where
  fetch (player : Player) : FollowUp := ⟨player, "fetch", .empty, none⟩
  passOn : FollowUp := ⟨⟨1⟩, "pass on", .empty, none⟩
  sends (name : String) (errands : List FollowUp) : Action Script.Host :=
    { name, callbacks := [fun deed => .ok ⟨deed.game, deed.dice, errands, []⟩] }

/-- The first player sends the others. -/
def errands.send : Move := ⟨⟨0⟩, "send", .empty⟩

/-- The second player passes the errand on. -/
def errands.passedOn : Move := ⟨⟨1⟩, "pass on", .empty⟩

/-- The second player passes an errand on and fetches something, and then the first player
does. -/
def errands.done : List (Operation Script.Host) :=
  [.submit passedOn, .submit ⟨⟨1⟩, "fetch", .empty⟩, .submit ⟨⟨0⟩, "fetch", .empty⟩]

/-- Three follow-ups are under way, also after a move of a player who may not go. If there is
no number left, the first one of them is not entered. -/
theorem followUps_exact_errands :
    ∃ (replies : List (Playing Reply)) (t full : Table Script.Host),
      Runs errands replies t ∧ UncheckedRuns true errands replies t ∧
        replies.map (·.isOk) = [true, true, true, false, true] ∧
        followUpEntries t.session.stack =
            [(2, errands.fetch ⟨1⟩), (1, errands.passOn), (0, errands.fetch ⟨0⟩)] ∧
          errands.NumbersExact t.session ∧
            errands.flows.get? t.session.followUps (.followUp 1 (errands.fetch ⟨0⟩)) =
              some (errands.passOn.flow 1) ∧
        full.session.followUps.next = FollowUps.last ∧
          (errands.enterFollowUp errands.passOn).on full = (.error (.fault .overflow), full) := by
  obtain ⟨checked, unchecked, at_limit⟩ := followUps_exact errands
  obtain ⟨replies, t, run, unchecked_run, refused, entries⟩ :
      ∃ replies t, Runs errands replies t ∧ UncheckedRuns true errands replies t ∧
        replies.map (·.isOk) = [true, true, true, false, true] ∧
        followUpEntries t.session.stack =
          [(2, errands.fetch ⟨1⟩), (1, errands.passOn), (0, errands.fetch ⟨0⟩)] := by
    let ops : List (Operation Script.Host) := [.start, .play, .submit errands.send,
      .submit errands.send, .submit errands.passedOn]
    have plain : ∀ op ∈ ops, op.isRestore = false := by simp [ops, Operation.isRestore]
    let t : Table Script.Host := ⟨.new errands.config, .fresh 2⟩
    have run := (Runs.new t.game : Runs errands [] t).runAll ops plain
    have unchecked_run :=
      (UncheckedRuns.new t.game : UncheckedRuns true errands [] t).runAll ops plain
        (by decide +kernel)
    exact ⟨_, _, run, unchecked_run, by decide +kernel, by decide +kernel⟩
  obtain ⟨-, numbers⟩ := unchecked replies t unchecked_run
  have mem : (1, errands.passOn) ∈ followUpEntries t.session.stack := by simp [entries]
  obtain ⟨a, a_mem, flow_eq⟩ := exists_of_mem_followUpEntries mem
  refine ⟨replies, t, ⟨{ t.session with followUps.next := FollowUps.last }, t.game⟩, run,
    unchecked_run, refused, entries, checked replies t run, ?_, rfl, ?_⟩
  · exact (numbers.found _ _ _).2 ⟨a, a_mem, _, flow_eq, rfl⟩
  · exact (at_limit _ _ (by decide) rfl).1

/-! ### Behind the last number -/

/-- The first player may send the second one on many errands at once. -/
def flooding (count : Nat) : Rules Script.Host where
  flows := .ofMain (.act ⟨none, none, none, [⟨"send", [], .empty, false⟩]⟩)
  repertoire :=
    (Dict.empty.insert "send" fun _ _ =>
      .ok (errands.sends "send" (List.replicate count (errands.fetch ⟨1⟩)))).insert
        "fetch" fun _ _ => .ok { name := "fetch" }
  config := { maxSteps := 0 }

/-- Sending the second player comes to taking up the errands. -/
theorem on_submit_flooding (count : Nat) :
    ∃ t : Table Script.Host, t.session.followUps.next = 0 ∧
      ((flooding count).submit errands.send .wraps).on
          ((Operation.start.run (flooding count) .wraps).on
            ⟨.new (flooding count).config, .fresh 2⟩).2 =
        (do
          (flooding count).takeOutcome
            ⟨.empty, List.replicate count (errands.fetch ⟨1⟩), []⟩ .wraps
          (flooding count).play
          return none : Drive Script.Host (Option Refusal)).on t := ⟨_, rfl, rfl⟩

/-- All errands are under way at once, with the numbers from zero on. -/
theorem exists_uncheckedRuns_flooding (count : Nat) :
    ∃ (replies : List (Playing Reply)) (t : Table Script.Host),
      UncheckedRuns false (flooding count) replies t ∧
        t.session.followUps.next = UInt32.ofNat count ∧
          ∀ k < count, ∃ a ∈ t.session.stack,
            a.flow = .followUp (UInt32.ofNat k) (errands.fetch ⟨1⟩) := by
  have new : UncheckedRuns false (flooding count) [] ⟨.new _, .fresh 2⟩ := .new _
  have run := (new.step .start rfl nofun).step (.submit errands.send) rfl nofun
  obtain ⟨t, next_zero, submitted⟩ := on_submit_flooding count
  have declared : ∀ f ∈ List.replicate count (errands.fetch ⟨1⟩),
      (flooding count).repertoire.contains f.name := by
    intro f mem
    obtain rfl := List.eq_of_mem_replicate mem
    rfl
  obtain ⟨t', enters, next_eq, -, numbered⟩ :=
    Rules.on_enterFollowUps (t := { t with session := t.session.announce [] }) declared
  have takes : ((flooding count).takeOutcome
      ⟨.empty, List.replicate count (errands.fetch ⟨1⟩), []⟩ .wraps).on t = (.ok (), t') := by
    refine Drive.on_bind_eq_ok.2 ⟨(), _, rfl, ?_⟩
    rw [List.reverse_replicate]
    exact enters
  have left : (((Operation.submit errands.send).run (flooding count) .wraps).on
      ((Operation.start.run (flooding count) .wraps).on
        ⟨.new (flooding count).config, .fresh 2⟩).2).2 = t' := by
    unfold Operation.run at *
    rw [Drive.on_bind, submitted, Drive.on_bind, takes]
    rfl
  have announced : (t.session.announce []).followUps.next = 0 := next_zero
  simp only [announced, UInt32.zero_add, List.length_replicate] at next_eq numbered
  rw [left] at run
  refine ⟨_, t', run, next_eq, fun k below => ?_⟩
  exact numbered k _ (List.getElem?_replicate_of_lt below)

/-- The counter starts again at zero when there are as many follow-ups as numbers, and the one
with the last number is not below the next number. -/
theorem numbers_start_again :
    ∃ (replies : List (Playing Reply)) (t : Table Script.Host),
      UncheckedRuns false (flooding 4294967296) replies t ∧
        (FollowUps.last, errands.fetch ⟨1⟩) ∈ followUpEntries t.session.stack ∧
          t.session.followUps.next = 0 ∧ ¬(flooding 4294967296).NumbersExact t.session := by
  obtain ⟨replies, t, run, next_eq, numbered⟩ := exists_uncheckedRuns_flooding 4294967296
  obtain ⟨a, mem, flow_eq⟩ := numbered 4294967295 (by decide)
  have last_mem : (FollowUps.last, errands.fetch ⟨1⟩) ∈ followUpEntries t.session.stack :=
    List.mem_filterMap.2 ⟨a, mem, by rw [flow_eq]; rfl⟩
  have next_zero : t.session.followUps.next = 0 := next_eq
  refine ⟨replies, t, run, last_mem, next_zero, fun numbers => ?_⟩
  have below := numbers.below _ last_mem
  rw [next_zero] at below
  exact absurd below (by decide)

end Tabletop
