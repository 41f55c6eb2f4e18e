import Tabletop.Proofs.Action.Check
import Tabletop.Proofs.Flow.Sight
import Tabletop.Proofs.Session.Resting
import Tabletop.Script.Statement

/-! # What is seen after a move

A move that is taken goes into the running flow with everything that was sent with it,
and what follows it sees all of this, over the values of the nodes around the step. So a
value that a node captured is seen under the name of the node as long as nothing was sent
under the name, with this move or with one of a nearer step: when what follows the move is
entered, and through all units of play and other moves until it is over.

Main statement: `seen_of_submit`.
-/

namespace Tabletop

variable {G : Type}

namespace Rules

/-- A name is not among those that a step of a name and the action of a move use for
themselves: keys of the step, arguments that it fixes, and selections. -/
structure Unused (rules : Rules G) (g : G) (move : Move) (s : Stop G) (stepName : Option String)
    (name : String) : Prop where
  not_owned : ¬ Mark.Owns stepName name
  not_fixed : ∀ entry, s.step.find? move.name = some entry → entry.prefilled.get? name = none
  not_selected : ∀ action, rules.repertoire.make? move.name g move.player = .ok (some action) →
    ¬ Selection.Named action.selections name

/-- The value that is sent with a move under a name, if it is not a pass. -/
def sent? (move : Move) (name : String) : Option Argument :=
  if move.name = ActionStep.pass then none else move.args.get? name

/-- Under a name that neither the step nor the action uses, a move that was carried out
keeps what was sent. -/
theorem Unused.get?_of_perform {rules : Rules G} {g g' : G} {dice dice' : Dice} {move : Move}
    {s : Stop G} {stepName : Option String} {name : String} {outcome : Outcome}
    (unused : rules.Unused g move s stepName name)
    (performs : rules.perform s g dice move = .ok (.ok (outcome, g', dice'))) :
    outcome.args.get? name = sent? move name := by
  unfold perform at performs
  split at performs
  · rename_i passes
    split at performs
    · cases performs
      rw [sent?, if_pos passes]
      rfl
    · cases performs
  · rename_i acts
    rw [sent?, if_neg acts]
    split at performs
    · cases performs
    · rename_i entry offered
      obtain ⟨action, makes, processes⟩ := bind_eq_ok.1 performs
      obtain ⟨made, makes, made_eq⟩ := bind_eq_ok.1 makes
      split at made_eq
      · rename_i action
        cases made_eq
        obtain ⟨-, checked⟩ := Action.check_of_process (Playing.ofChecked_eq_ok.1 processes)
        obtain ⟨-, agree⟩ := Action.checkAmong_adds checked
        calc outcome.args.get? name
          _ = (entry.fill move.args).get? name :=
            (agree name (unused.not_selected action (Playing.ofChecked_eq_ok.1 makes))).symm
          _ = move.args.get? name := by
            rw [StepAction.fill, Dict.get?_merge, unused.not_fixed entry offered]
            rfl
      · cases made_eq

variable [Game G] {rules : Rules G} {t t' : Table G} {move : Move}

/-- An accepted move is taken at a stop of the running flow, carried out and settled there.
Let a node around the step have captured a value under a name that no nearer node gives a
value for, and that the step and the action do not use. Then whatever is called when what
follows the move is entered, and from then on in any turn as long as a step rests in its
place, sees under the name the value that was captured, unless a value was sent under the
name, which it sees then, or a node in between gives one. -/
theorem seen_of_submit {g : G} {ops : List (Operation G)}
    (reached : (rules.runAll ops ⟨.new rules.config, g⟩).2 = t)
    (accepted : (rules.submit move).on t = (.ok none, t')) :
    ∃ top rest flow s stepName outcome g' dice settled,
      rules.Takes t move top rest flow s stepName ∧
      rules.perform s t.game t.session.dice move = .ok (.ok (outcome, g', dice)) ∧
      s.settle g' (.taken ⟨move.player, move.name, outcome.args⟩) top.trail = .ok settled ∧
      ∀ name value, Flow.Captures (top.trail.around s.place) name value →
        rules.Unused t.game move s stepName name →
          Flow.SeenInside settled flow (.ofArgs top.args) s.place name
            ((sent? move name).getD value) ∧
          ∀ t₁, rules.RestsSince t move top.flow top.args rest s.place t₁ →
            ∀ flow₁ trail, rules.flows.get? t₁.session.followUps top.flow = some flow₁ →
              t₁.session.stack = ⟨top.flow, top.args, trail⟩ :: rest →
                Flow.SeenInside trail flow₁ (.ofArgs top.args) s.place name
                  ((sent? move name).getD value) := by
  obtain ⟨top, rest, flow, s, stepName, outcome, g', dice, settled, takes, performs, settles⟩ :=
    takes_of_submit accepted
  refine ⟨top, rest, flow, s, stepName, outcome, g', dice, settled, takes, performs, settles, ?_⟩
  intro name value captures unused
  rw [← unused.get?_of_perform performs]
  constructor
  · obtain ⟨position, stepIndex, below, at_place⟩ := takes.named
    have waits := Flow.waits_of_mem_stops (mem_of_findFor takes.finds)
    have rests := Flow.RestsWith.of_settle waits at_place settles
    exact rests.seenInside captures unused.not_owned
  · intro t₁ since flow₁ trail found stack_eq
    have start : ∃ lost, rules.Tracked lost (.new rules.config) := ⟨fun _ => False, tracked_new _⟩
    obtain ⟨lost, tracked⟩ := exists_tracked_of_runAll (t := ⟨.new rules.config, g⟩) start ops
    rw [reached] at tracked
    have rests := takes.restsWith_of_restsSince performs settles tracked since found stack_eq
    exact rests.seenInside captures unused.not_owned

/-! ### Where something was sent under the name -/

/-- A move is accepted, and what follows it does not see the value that a node around the
step captured under a name, though no nearer node has the name, and the step and the
action do not use it. -/
def Misses (rules : Rules G) (t : Table G) (move : Move) (name : String) : Prop :=
  ∃ t' top rest flow s stepName, (rules.submit move).on t = (.ok none, t') ∧
    rules.Takes t move top rest flow s stepName ∧ rules.Unused t.game move s stepName name ∧
      ∃ before mark after value, top.trail.around s.place = before ++ mark :: after ∧
        mark.name = some name ∧ mark.position.captured? = some value ∧
          (∀ mark ∈ after, mark.name ≠ some name) ∧
            ∃ t₁ trail p, rules.RestsSince t move top.flow top.args rest s.place t₁ ∧
              t₁.session.stack = ⟨top.flow, top.args, trail⟩ :: rest ∧
                flow.play trail (.ofArgs top.args) t₁.game t₁.session.dice = .ok p ∧
                  ∃ run ∈ p.runs,
                    Flow.RanAt trail flow (.ofArgs top.args) t₁.game t₁.session.dice
                        (s.place ++ .down .here) run ∧
                      run.scene.args.get? name ≠ some value

/-- For each card the first player goes twice, the second time as part of what follows the
first. After each move the card is noted. -/
def cards : Rules Script.Host where
  flows := .ofMain (.named (.forEach (fun _ _ => [.number 7]) [.node (.act outer)]) (some "card"))
  repertoire := Dict.empty.insert "go" fun _ _ => .ok { name := "go" }
  config := { maxSteps := 8 }
where
  notes : Step Script.Host (Flow Script.Host) :=
    .call (Script.stepCallback [.set "seen" (.arg "card" (.literal (.bool false)))])
  asks (block : Block Script.Host) : ActionStep Script.Host (Flow Script.Host) :=
    ⟨some fun _ _ => .ok [⟨0⟩], none, none, [⟨"go", block, .empty, false⟩]⟩
  inner : ActionStep Script.Host (Flow Script.Host) := asks [notes]
  outer : ActionStep Script.Host (Flow Script.Host) := asks [notes, .node (.act inner)]

/-- The first player goes. -/
def cards.go (sent : Args) : Move := ⟨⟨0⟩, "go", sent⟩

/-- The mark of the loop at its card. -/
def cards.card : Mark Trail :=
  ⟨some "card", .each (some 0) (some (.number 7)) [.number 7], some 0⟩

/-- The mark of a step after the first player went. -/
def cards.gone (sent : Args) (step : Nat) : Mark Trail :=
  ⟨none, .action (.taken ⟨⟨0⟩, "go", sent⟩), some step⟩

/-- The mark of a step that waits. -/
def cards.waiting : Mark Trail := ⟨none, .action .awaiting, none⟩

/-- What is in sight at the step around. -/
def cards.sight : Args := Dict.empty.insert "card" (.number 7)

/-- The game after what is in sight was noted. -/
def cards.noted (g : Script.Host) (sight : Args) : Script.Host :=
  g.set "seen" ((sight.get? "card").getD (.bool false))

/-- A table under way. -/
def cards.table (marks : List (Mark Trail)) (history : List MoveRecord) (g : Script.Host) :
    Table Script.Host where
  session := { Session.new cards.config with
    status := .playing, stack := [⟨.main, .empty, .ofList marks⟩], history }
  game := g

/-- The table at the first card. -/
def cards.first : Table Script.Host := table [card, waiting] [] (.fresh 2)

/-- The table right after a first move. -/
def cards.settled (sent : Args) : Table Script.Host :=
  table [card, gone sent 0] [⟨go sent, 0⟩] (.fresh 2)

/-- The table after a first move. -/
def cards.second (sent : Args) : Table Script.Host :=
  table [card, gone sent 1, waiting] [⟨go sent, 0⟩] (noted (.fresh 2) (sight.merge sent))

/-- The table right after a second move with nothing sent. -/
def cards.settledInside (sent : Args) : Table Script.Host :=
  table [card, gone sent 1, gone .empty 0] [⟨go sent, 0⟩, ⟨go .empty, 1⟩] (second sent).game

/-- The table after a second move with nothing sent. -/
def cards.last (sent : Args) : Table Script.Host where
  session := { (second sent).session with
    status := .finished, stack := [], history := [⟨go sent, 0⟩, ⟨go .empty, 1⟩] }
  game := noted (second sent).game (sight.merge sent)

/-- The stop at the step around. -/
def cards.outerStop : Stop Script.Host := ⟨.act outer, outer, .down .here, ⟨sight, none⟩⟩

/-- The stop at the step inside, after the first move. -/
def cards.innerStop (sent : Args) : Stop Script.Host :=
  ⟨.act inner, inner, .down (.down .here), ⟨sight.merge sent, some ⟨0⟩⟩⟩

/-- The first move is taken at the step around. -/
theorem cards.takes_first (sent : Args) :
    cards.Takes cards.first (go sent) ⟨.main, .empty, .ofList [card, waiting]⟩ []
      cards.flows.main outerStop none := ⟨rfl, rfl, rfl, rfl, _, _, _, rfl⟩

/-- The second move is taken at the step inside. -/
theorem cards.takes_second (sent : Args) :
    cards.Takes (cards.second sent) (go .empty)
      ⟨.main, .empty, .ofList [card, gone sent 1, waiting]⟩ [] cards.flows.main (innerStop sent)
      none := ⟨rfl, rfl, rfl, rfl, _, _, _, rfl⟩

theorem cards.accepts_first (sent : Args) :
    (cards.submit (go sent)).on first = (.ok none, second sent) := by
  rw [(takes_first sent).on_submit rfl rfl]
  have unit : cards.playOne.on (settled sent) = (.ok .moved, second sent) := rfl
  have rest : (cards.playWithin 7).on (second sent) = (.ok (), second sent) := rfl
  refine Drive.on_bind_eq_ok.2 ⟨(), second sent, ?_, rfl⟩
  refine Drive.on_bind_eq_ok.2 ⟨(), _, Drive.on_change, ?_⟩
  refine Drive.on_bind_eq_ok.2 ⟨(), settled sent, rfl, ?_⟩
  exact Drive.on_bind_eq_ok.2 ⟨.moved, second sent, unit, rest⟩

theorem cards.accepts_second (sent : Args) :
    (cards.submit (go .empty)).on (second sent) = (.ok none, last sent) := by
  rw [(takes_second sent).on_submit rfl rfl]
  have unit : cards.playOne.on (settledInside sent) = (.ok .complete, last sent) := rfl
  refine Drive.on_bind_eq_ok.2 ⟨(), last sent, ?_, rfl⟩
  refine Drive.on_bind_eq_ok.2 ⟨(), _, Drive.on_change, ?_⟩
  refine Drive.on_bind_eq_ok.2 ⟨(), settledInside sent, rfl, ?_⟩
  exact Drive.on_bind_eq_ok.2 ⟨.complete, last sent, unit, rfl⟩

/-- Without a unit of play the first step just rests. -/
theorem cards.rests_first (sent : Args) :
    cards.RestsSince first (go sent) .main .empty [] (.down .here) (settled sent) := by
  have stops : (((cards.within 0).submit (go sent)).on first).2 = settled sent := by
    rw [((takes_first sent).within 0).on_submit rfl rfl]
    rfl
  rw [← stops]
  refine .submitted 0 ?_
  rw [stops]
  exact ⟨[], _, rfl, _, _, _, rfl, rfl⟩

theorem cards.rests_second (sent : Args) :
    cards.RestsSince (second sent) (go .empty) .main .empty [] (.down (.down .here))
      (settledInside sent) := by
  have stops : (((cards.within 0).submit (go .empty)).on (second sent)).2 = settledInside sent := by
    rw [((takes_second sent).within 0).on_submit rfl rfl]
    rfl
  rw [← stops]
  refine .submitted 0 ?_
  rw [stops]
  exact ⟨[], _, rfl, _, _, _, rfl, rfl⟩

theorem cards.unused (g : Script.Host) (sent : Args) {s : Stop Script.Host}
    (bare : s.step = inner ∨ s.step = outer) : cards.Unused g (go sent) s none "card" := by
  refine ⟨?_, ?_, ?_⟩
  · rintro ⟨own, ⟨⟩, -⟩
  · intro entry offered
    rcases bare with bare | bare <;> rw [bare] at offered <;> cases offered <;> rfl
  · intro action makes
    cases makes
    exact List.not_mem_nil

/-- What follows a move that sends a chip sees the card of the loop: the note that is taken
first, and the step inside that is entered next, when it asks who may move. -/
theorem seen_of_submit_cards :
    let sent : Args := Dict.empty.insert "chip" (.number 5)
    let first := (cards.runAll [.start, .play] ⟨.new cards.config, .fresh 2⟩).2
    let settled := cards.settled sent
    let inside : Scope := ⟨cards.sight.merge sent, some ⟨0⟩⟩
    (cards.submit (cards.go sent)).on first = (.ok none, cards.second sent) ∧
      cards.RestsSince first (cards.go sent) .main .empty [] (.down .here) settled ∧
        (∃ p, cards.flows.main.play (.ofList [cards.card, cards.gone sent 0]) (.ofArgs .empty)
            settled.game settled.session.dice = .ok p ∧
          ∃ run ∈ p.runs, run.scene.args.get? "card" = some (.number 7)) ∧
        Flow.Called (.ofList [cards.card, cards.gone sent 0]) cards.flows.main (.ofArgs .empty)
            (.down (.down .here)) [cards.card, cards.gone sent 1] inside ∧
          inside.args.get? "card" = some (.number 7) := by
  intro sent first settled inside
  have reached : (cards.runAll [.start, .play] ⟨.new cards.config, .fresh 2⟩).2 = cards.first := rfl
  have accepted := cards.accepts_first sent
  have rests := cards.rests_first sent
  obtain ⟨top, rest, flow, s, stepName, outcome, g, dice, trail, takes, -, -, seen⟩ :=
    seen_of_submit reached accepted
  obtain ⟨rfl, rfl, rfl, rfl, rfl⟩ := (cards.takes_first sent).unique takes
  have captures : Flow.Captures [cards.card] "card" (.number 7) :=
    ⟨[], cards.card, [], rfl, rfl, rfl, nofun⟩
  obtain ⟨sees, runs⟩ :=
    (seen "card" (.number 7) captures (cards.unused _ _ (.inr rfl))).2 settled rests
      cards.flows.main (.ofList [cards.card, cards.gone sent 0]) rfl rfl
  have live : Flow.liveBlock (.act cards.outer) (cards.gone sent 0) =
      some [cards.notes, .node (.act cards.inner)] := rfl
  have called : Flow.Called (.ofList [cards.card, cards.gone sent 0]) cards.flows.main
      (.ofArgs .empty) (.down (.down .here)) [cards.card, cards.gone sent 1] inside :=
    .entered (g := Script.Host.fresh 2) (.down rfl .here) rfl (.goes_on (.step 1 live)) rfl .here
  refine ⟨accepted, rests, ⟨_, rfl, _, List.mem_singleton_self _, ?_⟩, called, ?_⟩
  · obtain ⟨-, seen⟩ := runs _ _ _ rfl _ (List.mem_singleton_self _)
    exact (seen .here ⟨_, .intro (.down rfl .here) rfl rfl, rfl⟩).get?_eq
  · exact (sees .here _ _ called).get?_eq

/-- With a card of its own among its arguments a move hides the card of the loop from what
follows it, and from what follows the next move there. -/
theorem sent_hides_captured :
    let sent : Args := Dict.empty.insert "card" (.number 99)
    let first := (cards.runAll [.start, .play] ⟨.new cards.config, .fresh 2⟩).2
    cards.Misses first (cards.go sent) "card" ∧
      cards.Misses ((cards.submit (cards.go sent)).on first).2 (cards.go .empty) "card" := by
  intro sent first
  have accepted : (cards.submit (cards.go sent)).on first = (.ok none, cards.second sent) :=
    cards.accepts_first sent
  rw [accepted]
  constructor
  · exact ⟨_, _, _, _, _, _, accepted, cards.takes_first sent, cards.unused _ _ (.inr rfl), [],
      cards.card, [], .number 7, rfl, rfl, rfl, nofun, _, _, _, cards.rests_first sent, rfl, rfl, _,
      List.mem_singleton_self _, ⟨_, .intro (.down rfl .here) rfl rfl, rfl⟩, by decide⟩
  · exact ⟨_, _, _, _, _, _, cards.accepts_second sent, cards.takes_second sent,
      cards.unused _ _ (.inl rfl), [], cards.card, [cards.gone sent 1], .number 7, rfl, rfl, rfl,
      by decide, _, _, _, cards.rests_second sent, rfl, rfl, _, List.mem_singleton_self _,
      ⟨_, .intro (.down rfl (.down rfl .here)) rfl rfl, rfl⟩, by decide⟩

end Rules

end Tabletop
