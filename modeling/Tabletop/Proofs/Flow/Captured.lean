import Mathlib.Logic.Function.Iterate
import Tabletop.Proofs.Flow.Lanes

/-! # Captured positions

A node that is entered works out what it runs over: the first value of a counting loop, the
items of a collection, the value of a switch. This is done once, in the game in which the
node is entered. However a flow goes on from there, and whatever becomes of the game, the
parts of each mark agree with each other and with what was worked out then.

`LastsSince` keeps the game in which a mark was put beside the trail, which does not hold it.

Main statement: `marks_coherent`.
-/

namespace Tabletop

variable {G : Type}

namespace Flow

/-- A position of a node of a kind that was entered in a game and with arguments. The value
of a counting loop is the first one, stepped once for each iteration, and all values up to
it pass the test. The value of a loop over a collection is the item of the iteration, and
the items are those there were. A loop that is over has no iteration and no value. A switch
stands at the first case that its value passes, and at the default if there is no such case
and there is a default. -/
inductive Captured [Game G] (g : G) (args : Args) : FlowKind G (Flow G) → Position Trail → Prop
  | sequence {block index} : Captured g args (.sequence block) (.sequence index)
  | loop {condition body index} : Captured g args (.loop condition body) (.loop index none)
  | counting {initial next test body index}
      (accepted : ∀ i ≤ index, test (next^[i] (initial g args))) :
      Captured g args (.count initial next test body)
        (.loop (some index) (some (next^[index] (initial g args))))
  | counted {initial next test body} :
      Captured g args (.count initial next test body) (.loop none none)
  | item {collection setsPlayer body items index item} (captured : collection g args = .ok items)
      (at_index : items[index]? = some item) :
      Captured g args (.each collection setsPlayer body) (.each (some index) (some item) items)
  | finished {collection setsPlayer body items} (captured : collection g args = .ok items) :
      Captured g args (.each collection setsPlayer body) (.each none none items)
  | switch {value cases default index isDefault}
      (first : index = cases.findIdx? fun c => c.test (value g args))
      (otherwise : isDefault = true ↔ index = none ∧ default.isSome) :
      Captured g args (.switch value cases default) (.switch index isDefault (value g args))
  | action {step status} : Captured g args (.action step) (.action status)
  | parallel {players body seated lanes completed} (captured : seats players g args = .ok seated) :
      Captured g args (.parallel players body) (.parallel seated lanes completed)

/-- A mark of a node that was entered in a game and a scope agrees with what the node worked
out there, and it tells the next step if the node runs a block and is no sequence. -/
structure Coherent [Game G] (g : G) (scope : Scope) (node : Flow G) (mark : Mark Trail) : Prop where
  position : Captured g scope.args node.kind mark.position
  stepIndex : mark.stepIndex.isSome ↔ node.isSequence = false ∧ (node.liveBlock mark).isSome

section Captured

variable [Game G] {flow node : Flow G} {scope inner outer : Scope} {mark mark' : Mark Trail}
  {below trail trail' : Trail} {place : Place} {g g' : G} {args args' : Args}
  {kind : FlowKind G (Flow G)} {position position' : Position Trail}

/-! ### Entering a node -/

theorem captured_of_start (starts : start g kind scope = .ok position) :
    Captured g scope.args kind position := by
  cases kind with
  | sequence => cases starts; exact .sequence
  | loop => cases starts; exact .loop
  | count initial next test body =>
      cases starts
      unfold startCount
      split
      · rename_i accepted
        have all_accepted : ∀ i ≤ 0, test (next^[i] (initial g scope.args)) := by
          intro i le
          rwa [Nat.le_zero.1 le]
        exact .counting all_accepted
      · exact .counted
  | each collection setsPlayer body =>
      obtain ⟨items, captured, starts⟩ := bind_eq_ok.1 starts
      cases starts
      cases items with
      | nil => exact .finished captured
      | cons item items => exact .item captured rfl
  | switch value cases default =>
      cases starts
      exact .switch rfl (by simp)
  | action => cases starts; exact .action
  | parallel players body =>
      obtain ⟨seated, captured, starts⟩ := bind_eq_ok.1 starts
      obtain ⟨lanes, -, starts⟩ := bind_eq_ok.1 starts
      cases starts
      exact .parallel captured

/-- What a node stands at when it is entered agrees with what it has worked out. -/
theorem coherent_freshMark (starts : start g node.kind scope = .ok position) :
    Coherent g scope node (node.freshMark position) := by
  refine ⟨by simpa using captured_of_start starts, ?_⟩
  unfold freshMark
  cases node.isSequence <;> simp [atFirstStep, liveBlock]

/-! ### Going on at a mark -/

omit [Game G] in
theorem position_withStep (mark : Mark Trail) (index : Nat) :
    (mark.withStep index).position = mark.position ∨
      ∃ before, mark.position = .sequence before ∧
        (mark.withStep index).position = .sequence index := by
  obtain ⟨name, position, stepIndex⟩ := mark
  cases position with
  | sequence before => exact .inr ⟨before, rfl, rfl⟩
  | _ => exact .inl rfl

theorem Captured.withStep (captured : Captured g args kind mark.position) (index : Nat) :
    Captured g args kind (mark.withStep index).position := by
  rcases position_withStep mark index with same | ⟨before, position_eq, position_eq'⟩
  · rwa [same]
  · rw [position_eq] at captured
    rw [position_eq']
    cases captured
    exact .sequence

/-- In the next iteration a counting loop has stepped its value once more, which passes the
test, and a loop over a collection is at the next of the same items. -/
theorem Captured.next (captured : Captured g args kind position)
    (next : nextPosition g' args' kind position = some position') :
    Captured g args kind position' := by
  cases captured with
  | loop =>
      cases next
      exact .loop
  | @counting initial step test body index accepted =>
      cases next
      unfold nextCount
      dsimp only
      rw [← Function.iterate_succ_apply' step]
      split
      · rename_i accepted'
        apply Captured.counting
        intro i le
        rcases Nat.lt_or_eq_of_le le with lt | rfl
        · exact accepted i (Nat.le_of_lt_succ lt)
        · exact accepted'
      · exact .counted
  | counted =>
      cases next
      exact .counted
  | @item collection setsPlayer body items index item captured at_index =>
      cases next
      unfold nextEach
      cases at_next : items[index + 1]? with
      | none => simpa [at_next] using Captured.finished captured
      | some item' => simpa [at_next] using Captured.item captured at_next
  | finished captured =>
      cases next
      exact .finished captured
  | _ => cases next

theorem Captured.left (captured : Captured g args node.kind position) (loop : node.isLoop) :
    Captured g args node.kind position.left := by
  obtain ⟨name, kind⟩ := node
  cases captured with
  | loop => exact .loop
  | counting | counted => exact .counted
  | item captured | finished captured => exact .finished captured
  | _ => cases loop

/-- A loop runs its body exactly if it has an iteration. -/
theorem Captured.isSome_liveBlock (captured : Captured g args node.kind mark.position)
    (loop : node.isLoop) : (node.liveBlock mark).isSome = mark.position.isRunning := by
  obtain ⟨name, kind⟩ := node
  obtain ⟨markName, position, stepIndex⟩ := mark
  cases captured with
  | loop | counting | counted | item | finished => simp [liveBlock, Position.isRunning]
  | _ => cases loop

omit [Game G] in
/-- A node other than a sequence, that stands at no position of a sequence, tells the step
that it is put at. -/
theorem stepIndex_withStep (other : ∀ index, mark.position ≠ .sequence index) (index : Nat) :
    (mark.withStep index).stepIndex = some index := by
  obtain ⟨name, position, stepIndex⟩ := mark
  cases position with
  | sequence before => exact absurd rfl (other before)
  | _ => rfl

theorem Captured.isSequence_eq (captured : Captured g args node.kind mark.position)
    (other : ∀ index, mark.position ≠ .sequence index) : node.isSequence = false := by
  obtain ⟨name, kind⟩ := node
  obtain ⟨markName, position, stepIndex⟩ := mark
  cases captured with
  | @sequence block index => exact absurd rfl (other index)
  | _ => rfl

theorem Coherent.withStep {block : Block G} (coherent : Coherent g inner node mark)
    (live : node.liveBlock mark = some block) (index : Nat) :
    Coherent g inner node (mark.withStep index) := by
  refine ⟨coherent.position.withStep index, ?_⟩
  rw [liveBlock_withStep]
  by_cases sequence : ∃ before, mark.position = .sequence before
  · obtain ⟨before, position_eq⟩ := sequence
    have same : (mark.withStep index).stepIndex = mark.stepIndex := by
      rw [Mark.withStep, position_eq]
    rw [same]
    exact coherent.stepIndex
  · have other := not_exists.1 sequence
    rw [stepIndex_withStep other, coherent.position.isSequence_eq other, live]
    simp

/-- However a node goes on, its mark agrees with what was worked out when it was entered. -/
theorem Coherent.moves (coherent : Coherent g inner node mark)
    (moves : Moves g' node outer mark mark') : Coherent g inner node mark' := by
  cases moves with
  | still => exact coherent
  | step index live => exact coherent.withStep live index
  | @next position loop next =>
      have captured := coherent.position.next next
      refine ⟨captured, ?_⟩
      rw [captured.isSome_liveBlock loop, isSequence_of_isLoop loop]
      cases position.isRunning <;> simp
  | left loop =>
      have captured := coherent.position.left loop
      refine ⟨captured, ?_⟩
      rw [captured.isSome_liveBlock loop, isSequence_of_isLoop loop]
      cases mark.position <;> simp [Position.left, Position.isRunning]

/-- An action step that comes to rest agrees with what was there when it was entered, which
is nothing. -/
theorem coherent_atFirstStep {step : ActionStep G (Flow G)} {status : ActionStatus}
    (waiting : node.waiting? mark = some step) :
    Coherent g inner node (node.atFirstStep { mark with position := .action status }) := by
  obtain ⟨name, kind⟩ := node
  cases kind with
  | action step' => exact ⟨.action, by simp [atFirstStep, liveBlock, isSequence]⟩
  | _ => simp [waiting?] at waiting

theorem Coherent.withLanes {players : Option (G → Args → Checked (List Player))} {body : Flow G}
    {seated : List Player} {lanes lanes' : List Trail} {completed completed' : List Bool}
    (coherent : Coherent g inner node mark) (kind_eq : node.kind = .parallel players body)
    (position_eq : mark.position = .parallel seated lanes completed) :
    Coherent g inner node (mark.withLanes seated lanes' completed') := by
  obtain ⟨captured, stepIndex⟩ := coherent
  obtain ⟨name, kind⟩ := node
  obtain ⟨markName, position, markStep⟩ := mark
  obtain rfl : kind = .parallel players body := kind_eq
  obtain rfl : position = .parallel seated lanes completed := position_eq
  cases captured with
  | parallel captured => exact ⟨.parallel captured, stepIndex⟩

/-- Whatever is done to a flow, the mark of its root agrees with what was worked out when the
root was entered. -/
theorem Coherent.act {act : Act G} (coherent : Coherent g inner node mark)
    (leads : act.Leads (.cons mark below) node outer g' trail') :
    ∃ mark' below', trail' = .cons mark' below' ∧ Coherent g inner node mark' := by
  cases single : node.isParallel with
  | true =>
      obtain ⟨players, body, kind_eq⟩ := eq_parallel_of_isParallel single
      obtain ⟨seated, lanes, completed, position_eq⟩ :
          ∃ seated lanes completed, mark.position = .parallel seated lanes completed := by
        have captured := coherent.position
        rw [kind_eq] at captured
        generalize mark.position = position at captured
        cases captured with
        | parallel captured => exact ⟨_, _, _, rfl⟩
      obtain ⟨lanes', completed', trail_eq, -⟩ := lanes_of_act kind_eq position_eq leads
      exact ⟨_, _, trail_eq, coherent.withLanes kind_eq position_eq⟩
  | false =>
      cases leads with
      | unit played =>
          obtain ⟨mark', below', trail_eq, rfl | moves⟩ := exists_moves_of_play single played
          · exact ⟨mark', below', trail_eq, coherent⟩
          · exact ⟨mark', below', trail_eq, coherent.moves moves⟩
      | settle mem settles =>
          cases waits_of_mem_stops mem with
          | here waiting =>
              obtain ⟨entered, enters, settles⟩ := bind_eq_ok.1 settles
              cases settles
              obtain ⟨below', rfl, -⟩ := enter_eq_ok (Playing.ofChecked_eq_ok.1 enters)
              exact ⟨_, below', rfl, coherent_atFirstStep waiting⟩
          | down next =>
              rw [Stop.settle_within_down] at settles
              obtain ⟨below', -, rfl⟩ := Playing.map_eq_ok.1 settles
              exact ⟨mark, below', rfl, coherent⟩
          | lane kind_eq => simp [isParallel, kind_eq] at single

/-! ### Numbers of a range -/

/-- Below another number there is room for the next one. -/
theorem toInt_add_one {n last : Int64} (lt : n < last) : (n + 1).toInt = n.toInt + 1 := by
  have lt_last : n.toInt < last.toInt := Int64.lt_iff_toInt_lt.1 lt
  have last_lt := last.toInt_lt
  have le_n := n.le_toInt
  rw [Int64.toInt_add]
  apply Int.bmod_eq_of_le
  · rw [Int64.toInt_one]
    omega
  · rw [Int64.toInt_one]
    omega

/-- What a range steps its number to. -/
def numberAfter (value : Argument) : Argument := .number (value.asNumber.getD 0 + 1)

/-- While the numbers of a range pass its test, each is one more than the one before. -/
theorem iterate_number {first last : Int64} (index : Nat)
    (accepted : ∀ i ≤ index, ((numberAfter^[i] (.number first)).asNumber.any fun n => n < last)) :
    ∃ n : Int64, numberAfter^[index] (.number first) = .number n ∧
      n.toInt = first.toInt + index ∧ n < last := by
  induction index with
  | zero => exact ⟨first, rfl, by simp, by simpa [Argument.asNumber] using accepted 0 (Nat.le_refl _)⟩
  | succ index ih =>
      obtain ⟨n, iterate_eq, toInt_eq, lt⟩ := ih fun i le => accepted i (Nat.le_succ_of_le le)
      have next_eq : numberAfter^[index + 1] (.number first) = .number (n + 1) := by
        rw [Function.iterate_succ_apply', iterate_eq]
        rfl
      have passes := accepted (index + 1) (Nat.le_refl _)
      rw [next_eq] at passes
      refine ⟨n + 1, next_eq, ?_, by simpa [Argument.asNumber] using passes⟩
      rw [toInt_add_one lt, toInt_eq]
      omega

/-- The number of an iteration is as far from the first one, and is below the last one. -/
theorem Coherent.exists_number {first last : Int64} {body : Block G} {index : Nat}
    {value : Option Argument} (coherent : Coherent g inner node mark)
    (kind_eq : node.kind = (range first last body).kind)
    (position_eq : mark.position = .loop (some index) value) :
    ∃ n, value = some (.number n) ∧ n.toInt = first.toInt + index ∧ n < last := by
  have captured := coherent.position
  rw [kind_eq, position_eq] at captured
  cases captured with
  | counting accepted =>
      obtain ⟨n, iterate_eq, toInt_eq, lt⟩ := iterate_number index accepted
      exact ⟨n, congrArg some iterate_eq, toInt_eq, lt⟩

end Captured

/-! ### Runs -/

/-- The flow comes to the trail after it is entered, by units of play and stops that are
settled, whatever the game is each time. -/
inductive Reached [Game G] (flow : Flow G) (scope : Scope) : Trail → Prop
  | reset {g trail} (entered : flow.reset g scope = .ok trail) : Reached flow scope trail
  | act {act g trail trail'} (reached : Reached flow scope trail)
      (leads : Act.Leads trail flow scope act g trail') : Reached flow scope trail'

/-- In a trail that the flow comes to, there is a mark at the place that was put there in
the game, and has lasted since. -/
inductive LastsSince [Game G] (flow : Flow G) (scope : Scope) (place : Place) (g : G) : Trail → Prop
  | reset {trail} (entered : flow.reset g scope = .ok trail) (has : trail.HasMark place) :
      LastsSince flow scope place g trail
  | put {act trail trail'} (reached : Reached flow scope trail)
      (leads : Act.Leads trail flow scope act g trail')
      (new : trail.HasMark place → ¬act.Spares trail flow scope place)
      (has : trail'.HasMark place) : LastsSince flow scope place g trail'
  | spared {act g' trail trail'} (before : LastsSince flow scope place g trail)
      (leads : Act.Leads trail flow scope act g' trail')
      (spares : act.Spares trail flow scope place) : LastsSince flow scope place g trail'

section Runs

variable [Game G] {flow : Flow G} {scope : Scope} {place : Place} {mark : Mark Trail}
  {below trail : Trail} {g : G}

/-- Each mark was put where it is at some time. -/
theorem Reached.exists_lastsSince (reached : Reached flow scope trail)
    (has : trail.HasMark place) : ∃ g, LastsSince flow scope place g trail := by
  induction reached with
  | reset entered => exact ⟨_, .reset entered has⟩
  | @act act g trail trail' reached leads ih =>
      by_cases spared : trail.HasMark place ∧ act.Spares trail flow scope place
      · obtain ⟨g', lasts⟩ := ih spared.1
        exact ⟨g', .spared lasts leads spared.2⟩
      · exact ⟨g, .put reached leads (fun had spares => spared ⟨had, spares⟩) has⟩

/-- A mark that is put at a place agrees with what its node has worked out. -/
theorem FreshAt.coherent (fresh : FreshAt g trail flow scope place mark) :
    ∃ node inner, Stands trail flow scope place node inner ∧ Coherent g inner node mark := by
  obtain ⟨node, inner, entry, stands, starts, rfl⟩ := fresh
  exact ⟨node, inner, stands, coherent_freshMark starts⟩

/-- As long as a mark lasts, it agrees with what its node worked out when it was put. -/
theorem LastsSince.coherent (lasts : LastsSince flow scope place g trail) :
    ∃ node inner mark below, Stands trail flow scope place node inner ∧
      trail.at? place = some (.cons mark below) ∧ Coherent g inner node mark := by
  induction lasts with
  | reset entered has =>
      obtain ⟨mark, below, found⟩ := has
      obtain ⟨node, inner, stands, coherent⟩ := (fresh_of_reset entered found).coherent
      exact ⟨node, inner, mark, below, stands, found, coherent⟩
  | put reached leads new has =>
      obtain ⟨mark, below, found⟩ := has
      obtain ⟨node, inner, stands, coherent⟩ := (leads.fresh new found).coherent
      exact ⟨node, inner, mark, below, stands, found, coherent⟩
  | spared before leads spares ih =>
      obtain ⟨node, inner, mark, below, stands, found, coherent⟩ := ih
      obtain ⟨stands', same | ⟨act', g', sub', leads', at_place⟩⟩ :=
        leads.at_place spares stands found
      · exact ⟨node, inner, mark, below, stands', same, coherent⟩
      · obtain ⟨mark', below', rfl, coherent'⟩ := coherent.act leads'
        exact ⟨node, inner, mark', below', stands', at_place, coherent'⟩

/-- However a flow has come to its trail, each mark in it was put there at some time, and
since then it agrees with what its node worked out at that time: the value of a counting
loop is the first one, stepped once for each iteration, and the number of a range is as far
from the first one and below the last one; the value of a loop over a collection is the item
of the iteration among the items there were; a switch stands at the first case that its value
passes; a loop that is over has no iteration and no value; and the next step is told exactly
where a node other than a sequence runs a block. -/
theorem marks_coherent (reached : Reached flow scope trail)
    (found : trail.at? place = some (.cons mark below)) :
    (∃ g, LastsSince flow scope place g trail) ∧
      ∀ g, LastsSince flow scope place g trail →
        ∃ node inner, Stands trail flow scope place node inner ∧ Coherent g inner node mark ∧
          ∀ first last body, node.kind = (range first last body).kind →
            ∀ index value, mark.position = .loop (some index) value →
              ∃ n, value = some (.number n) ∧ n.toInt = first.toInt + index ∧ n < last := by
  refine ⟨reached.exists_lastsSince ⟨mark, below, found⟩, fun g lasts => ?_⟩
  obtain ⟨node, inner, mark', below', stands, found', coherent⟩ := lasts.coherent
  obtain ⟨⟩ := found.symm.trans found'
  refine ⟨node, inner, stands, coherent, ?_⟩
  intro first last body kind_eq index value position_eq
  exact coherent.exists_number kind_eq position_eq

end Runs

/-- For each of two colors the players draw a card for each of two numbers. -/
def drawing : Flow Script.Host :=
  forEach (fun _ _ => [.text "red", .text "blue"])
    [.node (range 3 5 [.node (act ⟨none, none, none, [⟨"draw", [], .empty, false⟩]⟩)])]

/-- A card is to be drawn for the first color and a number. -/
def drawing.trailAt (index : Nat) (number : Int64) (status : ActionStatus) : Trail :=
  .ofList
    [⟨none, .each (some 0) (some (.text "red")) [.text "red", .text "blue"], some 0⟩,
      ⟨none, .loop (some index) (some (.number number)), some 0⟩, ⟨none, .action status, none⟩]

/-- After the first card the second number is one more than the first one. -/
theorem marks_coherent_drawing :
    let scope := Scope.ofArgs .empty
    let trail := drawing.trailAt 1 4 .awaiting
    Reached drawing scope trail ∧ ∃ mark below, trail.at? (.down .here) = some (.cons mark below) ∧
      mark.position = .loop (some 1) (some (.number 4)) ∧
        ∃ g node inner, LastsSince drawing scope (.down .here) g trail ∧
          Stands trail drawing scope (.down .here) node inner ∧ Coherent g inner node mark := by
  intro scope trail
  have entered : drawing.reset (.fresh 2) scope = .ok (drawing.trailAt 0 3 .awaiting) := rfl
  have settles (s : Stop Script.Host) (mem : s ∈ stops (drawing.trailAt 0 3 .awaiting) drawing scope) :
      s.settle (.fresh 2) (.taken ⟨⟨0⟩, "draw", .empty⟩) (drawing.trailAt 0 3 .awaiting) =
        .ok (drawing.trailAt 0 3 (.taken ⟨⟨0⟩, "draw", .empty⟩)) := by
    obtain rfl := List.mem_singleton.1 mem
    rfl
  have played : play (drawing.trailAt 0 3 (.taken ⟨⟨0⟩, "draw", .empty⟩)) drawing scope (.fresh 2)
      default = .ok ⟨.moved, trail, .fresh 2, default, [], []⟩ := rfl
  have reached : Reached drawing scope trail :=
    .act (.act (.reset entered) (.settle (List.mem_singleton_self _)
      (settles _ (List.mem_singleton_self _)))) (.unit played)
  have found : trail.at? (.down .here) = some (.cons ⟨none, .loop (some 1) (some (.number 4)), some 0⟩
    (.cons ⟨none, .action .awaiting, none⟩ .nil)) := rfl
  refine ⟨reached, _, _, found, rfl, ?_⟩
  obtain ⟨⟨g, lasts⟩, coherent⟩ := marks_coherent reached found
  obtain ⟨node, inner, stands, coherent, -⟩ := coherent g lasts
  exact ⟨g, node, inner, lasts, stands, coherent⟩

end Flow

end Tabletop
