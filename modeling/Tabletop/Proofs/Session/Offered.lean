import Tabletop.Proofs.Flow.Nodes
import Tabletop.Proofs.Session.Moments
import Tabletop.Proofs.Session.Restored

/-! # Offered actions are declared

The rules of a game are checked node by node when they are declared. A flow waits at one of
its nodes, wherever its trail has led it, and a follow-up is entered only if its action is
declared, so whatever a flow under way offers is declared. A submitted move runs into an
action that is not declared only by a follow-up that it asks for.

Main statement: `offered_declared`.
-/

namespace Tabletop

variable {G : Type}

namespace Rules

/-! ### The check of the rules -/

/-- All actions that the nodes of the flow offer are declared. -/
def OffersDeclared (rules : Rules G) (flow : Flow G) : Prop :=
  ∀ node ∈ flow.nodes, ∀ step, node.kind = .action step →
    ∀ entry ∈ step.actions, rules.repertoire.contains entry.name

theorem contains_of_undeclared?_eq_none {repertoire : Repertoire G} {node : Flow G}
    (h : undeclared? repertoire node = none) {step : ActionStep G (Flow G)}
    (kind_eq : node.kind = .action step) :
    ∀ entry ∈ step.actions, repertoire.contains entry.name := by
  rw [undeclared?, kind_eq, Option.map_eq_none_iff, List.find?_eq_none] at h
  intro entry mem
  simpa using h entry mem

theorem undeclared?_of_checkNodes {repertoire : Repertoire G} {used : List String}
    {nodes : List (Flow G)} (h : checkNodes repertoire used nodes = .ok ()) :
    ∀ node ∈ nodes, undeclared? repertoire node = none := by
  induction nodes generalizing used with
  | nil => simp
  | cons node rest ih =>
      unfold checkNodes at h
      split at h
      · cases h
      split at h
      · cases h
      · rename_i declared
        exact List.forall_mem_cons.2 ⟨declared, ih h⟩

/-- The nodes of all flows of rules that were accepted offer what is declared. -/
theorem offersDeclared_of_declare {main : Flow G} {subflows : List (String × Flow G)}
    {actions : List (String × ActionMaker G)} {config : Config} {rules : Rules G}
    (builds : declare main subflows actions config = .ok rules) :
    ∀ entry ∈ rules.flows.declared, rules.OffersDeclared entry.2 := by
  obtain ⟨flows, -, builds⟩ := bind_eq_ok.1 builds
  obtain ⟨repertoire, -, builds⟩ := bind_eq_ok.1 builds
  obtain ⟨⟨⟩, checks, builds⟩ := bind_eq_ok.1 builds
  cases builds
  intro entry mem node node_mem step kind_eq
  have declared := undeclared?_of_checkNodes (forM_eq_ok.1 checks entry mem) node node_mem
  exact contains_of_undeclared?_eq_none declared kind_eq

variable {rules : Rules G} {flow : Flow G} {lost : UInt32 → Prop} {s : Session} {t : Table G}

/-- A follow-up of a declared action offers nothing else. -/
theorem offersDeclared_followUp {f : FollowUp} (declared : rules.repertoire.contains f.name)
    (id : UInt32) : rules.OffersDeclared (f.flow id) := by
  have nodes_eq : (f.flow id : Flow G).nodes = [f.flow id, Flow.act f.step] := rfl
  intro node mem step kind_eq entry entry_mem
  rw [nodes_eq] at mem
  rcases List.mem_cons.1 mem with rfl | mem
  · cases kind_eq
  · obtain rfl := List.mem_singleton.1 mem
    cases kind_eq
    obtain rfl := List.mem_singleton.1 entry_mem
    exact declared

/-- Every flow that is found offers what is declared, if the follow-ups that are kept are
declared. -/
theorem offersDeclared_of_get?
    (declared : ∀ entry ∈ rules.flows.declared, rules.OffersDeclared entry.2)
    {followUps : FollowUps}
    (kept : ∀ id f, followUps.get? id = some f → rules.repertoire.contains f.name) {id : FlowId}
    (found : rules.flows.get? followUps id = some flow) : rules.OffersDeclared flow := by
  cases id with
  | main =>
      cases found
      exact declared _ List.mem_cons_self
  | subflow name =>
      exact declared (name, flow) (List.mem_cons_of_mem _ (mem_of_lookup_eq_some found))
  | followUp number f =>
      obtain ⟨f', at_number, rfl⟩ := Option.map_eq_some_iff.1 found
      exact offersDeclared_followUp (kept number f' at_number) number

/-- Wherever a flow waits, it offers what its nodes offer. -/
theorem OffersDeclared.of_mem_stops (h : rules.OffersDeclared flow) {trail : Trail} {scope : Scope}
    {stop : Stop G} (mem : stop ∈ flow.stops trail scope) :
    ∀ entry ∈ stop.step.actions, rules.repertoire.contains entry.name := by
  obtain ⟨node_mem, kind_eq⟩ := (Flow.waits_of_mem_stops mem).mem_nodes
  exact h stop.flow node_mem stop.step kind_eq

/-! ### Follow-ups that are kept -/

/-- The flows under way are tracked, and the follow-ups that are kept are declared. -/
structure KeepsDeclared (rules : Rules G) (lost : UInt32 → Prop) (s : Session) : Prop where
  tracked : rules.Tracked lost s
  declared : ∀ id f, s.followUps.get? id = some f → rules.repertoire.contains f.name

theorem KeepsDeclared.setTrail {trail : Trail} (h : rules.KeepsDeclared lost s)
    (tracked : rules.Tracked lost (s.setTrail trail)) :
    rules.KeepsDeclared lost (s.setTrail trail) := by
  refine ⟨tracked, ?_⟩
  have same : (s.setTrail trail).followUps = s.followUps := by
    unfold Session.setTrail
    split <;> rfl
  rw [same]
  exact h.declared

theorem KeepsDeclared.pop (h : rules.KeepsDeclared lost s) : rules.KeepsDeclared lost s.pop := by
  refine ⟨h.tracked.pop, fun id f found => h.declared id f ?_⟩
  unfold Session.pop at found
  split at found
  · exact found
  · split at found
    · rename_i number _ _
      change (s.followUps.remove number).get? id = some f at found
      rw [FollowUps.get?_remove] at found
      split at found
      · cases found
      · exact found
    · exact found

section Upheld

variable [Game G]

theorem upheld_keepsDeclared : rules.Upheld (rules.KeepsDeclared lost) (rules.Excuses lost) where
  new := fun config => ⟨tracked_new config, nofun⟩
  aside := fun h stack_eq followUps_eq =>
    ⟨upheld_tracked.aside h.tracked stack_eq followUps_eq, followUps_eq ▸ h.declared⟩
  finds := by
    intro s top h on_top
    refine (upheld_tracked.finds h.tracked on_top).imp_right ?_
    rintro ⟨flow, found, fits, still⟩
    exact ⟨flow, found, fits, fun trail fits goes => h.setTrail (still trail fits goes)⟩
  push := fun h plain found enters =>
    ⟨upheld_tracked.push h.tracked plain found enters, h.declared⟩
  pop := KeepsDeclared.pop
  add := by
    intro s f trail h more declared enters
    refine ⟨upheld_tracked.add h.tracked more declared enters, fun id f' found => ?_⟩
    change (s.followUps.put s.followUps.next f).get? id = some f' at found
    rw [FollowUps.get?_put] at found
    split at found
    · cases found
      exact declared
    · exact h.declared id f' found
  undeclared := .inl
  other := upheld_tracked.other

theorem keepsDeclared_keptByMoves (s : Session) (h : rules.KeepsDeclared lost s) :
    rules.KeptByMoves (rules.KeepsDeclared lost) s :=
  fun _ _ _ _ _ _ on_top found mem settles fits =>
    h.setTrail (tracked_keptByMoves s h.tracked on_top found mem settles fits)

omit [Game G] in
/-- The follow-ups of a snapshot that is taken up are declared. -/
theorem keepsDeclared_ofSnapshot {saved : Snapshot} (stand : ∀ a ∈ saved.stack, rules.Stands a)
    (more : ∀ e ∈ followUpEntries saved.stack, e.1 ≠ FollowUps.last) :
    rules.KeepsDeclared (fun id => 1 < followUpCount saved.stack id) (.ofSnapshot saved) := by
  refine ⟨tracked_ofSnapshot stand more, fun id f found => ?_⟩
  have found : (followUpEntries saved.stack).lookup id = some f := by
    rw [← Session.get?_followUpsOf]
    exact found
  obtain ⟨a, mem, flow_eq⟩ := exists_of_mem_followUpEntries (mem_of_lookup_eq_some found)
  obtain ⟨flow, told, -⟩ := stand a mem
  rw [flow_eq, flowOf?] at told
  split at told
  · assumption
  · cases told

/-- Whatever operations lead to, all that the flows under way offer is declared. -/
theorem offered_of_runAll
    (declared : ∀ entry ∈ rules.flows.declared, rules.OffersDeclared entry.2) (g : G)
    (ops : List (Operation G)) {id : FlowId}
    (found : rules.flows.get? (rules.runAll ops ⟨.new rules.config, g⟩).2.session.followUps id =
      some flow) :
    rules.OffersDeclared flow := by
  have new : ∃ lost, rules.KeepsDeclared lost (.new rules.config) :=
    ⟨fun _ => False, upheld_keepsDeclared.new _⟩
  obtain ⟨lost, kept⟩ := exists_upheld_of_runAll (t := ⟨.new rules.config, g⟩)
    (fun _ => upheld_keepsDeclared) (fun _ => keepsDeclared_keptByMoves)
    (fun _ stand more => ⟨_, keepsDeclared_ofSnapshot stand more⟩) new ops
  exact offersDeclared_of_get? declared kept.declared found

/-! ### Submitted moves -/

omit [Game G] in
/-- A declared action is made, or its author makes a mistake. -/
theorem actionOf_errs {name : String} (declared : rules.repertoire.contains name) (stop : Stop G)
    (g : G) (player : Player) : (rules.actionOf stop name g player).Errs PlayError.InPlay := by
  obtain ⟨make, makes⟩ := Dict.contains_iff.1 declared
  simp only [actionOf, Repertoire.make?, makes]
  cases make g player with
  | error fault => exact .error (.fault fault)
  | ok action => exact .ok _

omit [Game G] in
/-- At a stop that offers declared actions, no move runs into another one. -/
theorem perform_errs {stop : Stop G}
    (offered : ∀ entry ∈ stop.step.actions, rules.repertoire.contains entry.name) (g : G)
    (dice : Dice) (move : Move) : (rules.perform stop g dice move).Errs PlayError.InPlay := by
  unfold perform
  split
  · split <;> exact .ok _
  split
  · exact .ok _
  rename_i entry found
  have declared := offered entry (List.mem_of_find?_eq_some found)
  rw [show entry.name = move.name by simpa using List.find?_some found] at declared
  exact .bind (actionOf_errs declared _ _ _) fun _ => .checked _

/-- Where all that is offered is declared, a submitted move runs into an unknown action only
when it was carried out and asks for a follow-up of that action. -/
theorem submit_unknown {move : Move} {step name : String}
    (offered : ∀ stop ∈ rules.stopsNow t, ∀ entry ∈ stop.step.actions,
      rules.repertoire.contains entry.name)
    (fails : ((rules.submit move).on t).1 = .error (.unknownAction step name)) :
    ∃ stop performed, Stop.findFor t.game move.player (rules.stopsNow t) = .ok (some stop) ∧
      rules.perform stop t.game t.session.dice move = .ok (.ok performed) ∧
        step = "follow-up" ∧ ∃ f ∈ performed.1.followUps,
          rules.repertoire.contains f.name = false ∧ f.name = name := by
  obtain ⟨⟨⟨⟩⟩ | ⟨⟨⟩⟩, -⟩ | ⟨stop, finds, ⟨performs, -⟩ | ⟨performed, performs, follows⟩⟩ :=
    submit_eq_error (Prod.ext fails rfl)
  · have in_play := perform_errs (offered stop (mem_of_findFor finds)) _ _ _ _ performs
    cases in_play
  · obtain ⟨⟨⟩⟩ | ⟨f, mem, undeclared, ⟨⟩⟩ := follows
    exact ⟨stop, performed, finds, performs, rfl, f, mem, undeclared, rfl⟩

omit [Game G] in
/-- The stops at which a move can be made are those of a flow under way. -/
theorem exists_of_mem_stopsNow {stop : Stop G} (mem : stop ∈ rules.stopsNow t) :
    ∃ a ∈ t.session.stack, ∃ flow, rules.flows.get? t.session.followUps a.flow = some flow ∧
      stop ∈ flow.stops a.trail (.ofArgs a.args) := by
  obtain ⟨playing, top, flow, on_top, found⟩ :=
    exists_of_stopsNow_ne_nil (List.ne_nil_of_mem mem)
  rw [stopsNow_eq playing on_top found] at mem
  exact ⟨top, mem_stack_of_top? on_top, flow, found, mem⟩

/-- Take rules that are accepted when they are declared, and a table that any operations have
led to. All actions on offer at the stops of the flows under way are declared. And a submitted
move runs into an action that is not declared only when it was carried out at its stop and
asks for a follow-up of that action. -/
theorem offered_declared {main : Flow G} {subflows : List (String × Flow G)}
    {actions : List (String × ActionMaker G)} {config : Config}
    (builds : declare main subflows actions config = .ok rules) (g : G) (ops : List (Operation G)) :
    let t := (rules.runAll ops ⟨.new rules.config, g⟩).2
    (∀ a ∈ t.session.stack, ∀ flow, rules.flows.get? t.session.followUps a.flow = some flow →
      ∀ stop ∈ flow.stops a.trail (.ofArgs a.args), ∀ entry ∈ stop.step.actions,
        rules.repertoire.contains entry.name) ∧
      ∀ move step name, ((rules.submit move).on t).1 = .error (.unknownAction step name) →
        step = "follow-up" ∧ rules.repertoire.contains name = false ∧ ∃ stop performed,
          Stop.findFor t.game move.player (rules.stopsNow t) = .ok (some stop) ∧
            rules.perform stop t.game t.session.dice move = .ok (.ok performed) ∧
              ∃ f ∈ performed.1.followUps, f.name = name := by
  intro t
  have offered : ∀ a ∈ t.session.stack, ∀ flow,
      rules.flows.get? t.session.followUps a.flow = some flow →
        ∀ stop ∈ flow.stops a.trail (.ofArgs a.args), ∀ entry ∈ stop.step.actions,
          rules.repertoire.contains entry.name := by
    intro a _ flow found stop mem
    exact (offered_of_runAll (offersDeclared_of_declare builds) g ops found).of_mem_stops mem
  refine ⟨offered, fun move step name fails => ?_⟩
  have offered_now : ∀ stop ∈ rules.stopsNow t, ∀ entry ∈ stop.step.actions,
      rules.repertoire.contains entry.name := by
    intro stop mem
    obtain ⟨a, a_mem, flow, found, mem⟩ := exists_of_mem_stopsNow mem
    exact offered a a_mem flow found stop mem
  obtain ⟨stop, performed, finds, performs, step_eq, f, mem, undeclared, rfl⟩ :=
    submit_unknown offered_now fails
  exact ⟨step_eq, undeclared, stop, performed, finds, performs, f, mem, rfl⟩

end Upheld

end Rules

namespace Council

open Script (Host)

/-- A step with one action, and what runs after it. -/
def offers (name : String) (block : Block Host) : Step Host (Flow Host) :=
  .node (.act ⟨none, none, none, [⟨name, block, .empty, false⟩]⟩)

/-- After a call the players vote side by side, over and over. -/
def main : Flow Host :=
  .forever [offers "call" [.node (.everyPlayer none [offers "vote" []])]]

/-- Whoever votes asks for a shout, and no such action is declared. -/
def actions : List (String × ActionMaker Host) :=
  [("call", fun _ _ => .ok
      { name := "call"
        callbacks := [fun deed => .ok
          ⟨deed.game, deed.dice, [⟨⟨1⟩, "answer", .empty, none⟩], []⟩] }),
    ("answer", fun _ _ => .ok { name := "answer" }),
    ("vote", fun _ _ => .ok
      { name := "vote"
        callbacks := [fun deed => .ok
          ⟨deed.game, deed.dice, [⟨⟨1⟩, "shout", .empty, none⟩], []⟩] })]

def rules : Rules Host where
  flows := .ofMain main
  repertoire := actions.foldl (fun repertoire action => repertoire.insert action.1 action.2) .empty
  config := { maxSteps := 8 }

theorem builds : Rules.declare main [] actions { maxSteps := 8 } = .ok rules := rfl

/-- The players may vote. -/
def voting : Snapshot :=
  (rules.runAll [.start, .play, .submit ⟨⟨0⟩, "call", .empty⟩, .submit ⟨⟨1⟩, "answer", .empty⟩]
    ⟨.new rules.config, .fresh 2⟩).2.session.snapshot

/-- A new table where the game is taken up before the vote. -/
def resumed : Table Host := (rules.runAll [.restore voting] ⟨.new rules.config, .fresh 2⟩).2

/-- Both players may vote in the block behind the call, and a vote runs into the shout. -/
theorem offered_declared_vote :
    (rules.stopsNow resumed).map (fun s => s.step.actions.map (·.name)) = [["vote"], ["vote"]] ∧
      (∀ a ∈ resumed.session.stack, ∀ flow,
        rules.flows.get? resumed.session.followUps a.flow = some flow →
          ∀ stop ∈ flow.stops a.trail (.ofArgs a.args), ∀ entry ∈ stop.step.actions,
            rules.repertoire.contains entry.name) ∧
      ((rules.submit ⟨⟨0⟩, "vote", .empty⟩).on resumed).1 =
        .error (.unknownAction "follow-up" "shout") ∧
      rules.repertoire.contains "shout" = false := by
  have waits : (rules.stopsNow resumed).map (fun s => s.step.actions.map (·.name)) =
      [["vote"], ["vote"]] := by decide +kernel
  have fails : ((rules.submit ⟨⟨0⟩, "vote", .empty⟩).on resumed).1 =
      .error (.unknownAction "follow-up" "shout") := by decide +kernel
  obtain ⟨offered, unknown⟩ := Rules.offered_declared builds (.fresh 2) [.restore voting]
  unfold resumed at waits fails ⊢
  exact ⟨waits, offered, fails, (unknown _ _ _ fails).2.1⟩

end Council

end Tabletop
