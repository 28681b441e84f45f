import Patchbay.Proofs.Graph.Integrity

/-!
# The order of a tick

A tick rewrites the nodes while it reads them. `Graph.readIn` says what an input reads in terms of
the nodes before and after the whole tick: this tick's output of a source that comes before the
reader, and the previous output of the reader itself or of a later node. Given these values the
evaluations no longer depend on each other but for the draws, which `Graph.evaluateAll` passes
along in order, and the tick is exactly that list of evaluations (`Graph.tick_in_order`).
-/

namespace Patchbay

/-- The line that a node logs when its inputs read the given values. -/
def Node.logLine? (n : Node) (inputs : List Value) : Option LogLine :=
  if (n.kind = .logger ∨ n.kind = .echoer) ∧ (inputs[0]?.getD Value.unset).isTruthy then
    some ⟨n.id, (inputs[1]?.getD Value.unset).display⟩
  else none

namespace Graph

/--
What a binding of a node stands for in a tick that turns one list of nodes into another. A source
before the node has its output of this tick, any other the output from before.
-/
def readIn (before after : List Node) (reader : NodeId) : Binding → Value
  | .literal v => v
  | .unbound => .unset
  | .reference source =>
    let outputOf (nodes : List Node) : Value :=
      ((nodes.find? fun n => n.id == source).map fun n => n.output).getD .unset
    if (before.map (·.id)).idxOf source < (before.map (·.id)).idxOf reader then outputOf after
    else outputOf before

/-- What all inputs of a node read in such a tick. -/
def inputsIn (before after : List Node) (n : Node) : List Value :=
  n.inputs.map fun i => readIn before after n.id i.binding

theorem readIn_reference (before after : List Node) (reader source : NodeId) :
    readIn before after reader (.reference source) =
      if (before.map (·.id)).idxOf source < (before.map (·.id)).idxOf reader then
        outputIn after source
      else outputIn before source := rfl

theorem inputsIn_eq (before after : List Node) (n : Node) :
    inputsIn before after n = n.bindings.map (readIn before after n.id) := by
  unfold inputsIn Node.bindings
  rw [List.map_map]
  rfl

/--
One evaluation of each node in order, given what its inputs read, and the source of draws at the
end. Each evaluation draws from the source that the one before has left.
-/
def evaluateAll (now : Instant) (inputs : Node → List Value) :
    List Node → Random → List Evaluation × Random
  | [], random => ([], random)
  | n :: rest, random =>
    let e := n.kind.evaluate (inputs n) now random n.output n.state
    let (es, random) := evaluateAll now inputs rest e.random
    (e :: es, random)

/-- The outputs that became another value, in order. -/
def changesOf (nodes : List Node) (es : List Evaluation) : List Event :=
  (nodes.zip es).filterMap fun (n, e) =>
    if e.output.equal n.output then none else some (.updated n.id .output)

def linesOf (nodes : List Node) (es : List Evaluation) : List LogLine :=
  (nodes.zip es).filterMap fun (n, e) => e.log.map (⟨n.id, ·⟩)

/-! ## Reading while rewriting -/

theorem outputIn_append_of_mem {xs : List Node} {id : NodeId} (h : id ∈ xs.map (·.id))
    (ys : List Node) : outputIn (xs ++ ys) id = outputIn xs id := by
  obtain ⟨n, hn, hid⟩ := List.mem_map.mp h
  have hsome : (xs.find? (·.id == id)).isSome := by
    rw [List.find?_isSome]
    exact ⟨n, hn, by simpa using hid⟩
  rw [outputIn, outputIn, List.find?_append, Option.or_of_isSome hsome]

theorem outputIn_append_of_not_mem {xs : List Node} {id : NodeId} (h : id ∉ xs.map (·.id))
    (ys : List Node) : outputIn (xs ++ ys) id = outputIn ys id := by
  have hnone : xs.find? (·.id == id) = none := by
    rw [List.find?_eq_none]
    intro n hn hid
    exact h (List.mem_map.mpr ⟨n, hn, by simpa using hid⟩)
  rw [outputIn, outputIn, List.find?_append, hnone, Option.none_or]

/-- Before a node come those in front of it. -/
theorem idxOf_lt_iff_mem {xs ys : List NodeId} {id other : NodeId} (h : id ∉ xs) :
    (xs ++ id :: ys).idxOf other < (xs ++ id :: ys).idxOf id ↔ other ∈ xs := by
  have hid : (xs ++ id :: ys).idxOf id = xs.length := by
    rw [List.idxOf_append, if_neg h, List.idxOf_cons_self]
    omega
  rw [hid, List.idxOf_append]
  by_cases hother : other ∈ xs
  · rw [if_pos hother]
    exact ⟨fun _ => hother, fun _ => List.idxOf_lt_length_of_mem hother⟩
  · rw [if_neg hother]
    constructor
    · intro hlt
      omega
    · exact fun hmem => absurd hmem hother

/--
The values in the list at the moment of an evaluation, some nodes passed and the others to come,
are those that `readIn` tells from the nodes before and after the tick.
-/
theorem resolve_eq_readIn {passed early rest after : List Node} {n : Node}
    (hpassed : passed.map (·.id) = early.map (·.id)) (hnew : n.id ∉ early.map (·.id))
    (b : Binding) :
    b.resolve (outputIn (passed ++ n :: rest)) =
      readIn (early ++ n :: rest) (passed ++ after) n.id b := by
  cases b with
  | literal v => rfl
  | unbound => rfl
  | reference source =>
    simp only [Binding.resolve, readIn_reference, List.map_append, List.map_cons]
    by_cases hsource : source ∈ early.map (·.id)
    · rw [if_pos ((idxOf_lt_iff_mem hnew).mpr hsource)]
      rw [← hpassed] at hsource
      rw [outputIn_append_of_mem hsource, outputIn_append_of_mem hsource]
    · rw [if_neg fun hlt => hsource ((idxOf_lt_iff_mem hnew).mp hlt)]
      rw [outputIn_append_of_not_mem hsource]
      rw [← hpassed] at hsource
      rw [outputIn_append_of_not_mem hsource]

/--
The rest of a tick, when the nodes in `early` have been passed and are now those in `passed`. The
list of nodes at its end is named, because what the inputs read is told in terms of it.
-/
theorem tickNodes_eq (now : Instant) (rest passed early : List Node) (random : Random)
    (hpassed : passed.map (·.id) = early.map (·.id))
    (hnodup : ((early ++ rest).map (·.id)).Nodup) (final : List Node)
    (hfinal : (tickNodes now passed rest random).1 = final) :
    let inputs := inputsIn (early ++ rest) final
    let pass := evaluateAll now inputs rest random
    tickNodes now passed rest random =
      (passed ++ List.zipWith Node.after rest pass.1, pass.2, changesOf rest pass.1,
        linesOf rest pass.1) := by
  -- on the nodes to come; those passed have the identities that they had before the tick
  induction rest generalizing passed early random with
  | nil => simp [tickNodes, evaluateAll, changesOf, linesOf]
  | cons n rest ih =>
    let e := n.evaluate (outputIn (passed ++ n :: rest)) now random
    have htail := ih (passed ++ [n.after e]) (early ++ [n]) e.random
      (by simpa using ⟨hpassed, rfl⟩) (by simpa using hnodup) hfinal
    dsimp only at htail
    rw [List.append_assoc, List.singleton_append, List.append_assoc, List.singleton_append]
      at htail
    -- what the node reads now is what the list at the end tells
    have hreads : n.bindings.map (·.resolve (outputIn (passed ++ n :: rest))) =
        inputsIn (early ++ n :: rest) final n := by
      rw [inputsIn_eq]
      apply List.map_congr_left
      intro b _
      have hnew : n.id ∉ early.map (·.id) := by
        rw [List.map_append, List.map_cons] at hnodup
        exact fun hmem => List.disjoint_of_nodup_append hnodup hmem List.mem_cons_self
      rw [resolve_eq_readIn hpassed hnew, ← hfinal]
      exact congrArg (readIn _ · n.id b) (congrArg Prod.fst htail).symm
    have he : e = n.kind.evaluate (inputsIn (early ++ n :: rest) final n) now random n.output
        n.state := by
      rw [← hreads]
      rfl
    simp only [tickNodes, evaluateAll, changesOf, linesOf, List.zip_cons_cons,
      List.filterMap_cons, List.zipWith_cons_cons]
    rw [← he]
    change (_, _, _, _) = _
    rw [htail]
    refine Prod.ext rfl (Prod.ext rfl (Prod.ext ?_ ?_))
    · change (if e.output.equal n.output then _ else _) = _
      by_cases hsame : e.output.equal n.output
      · simp only [hsame, if_true]
        rfl
      · simp only [hsame]
        rfl
    · dsimp only
      cases e.log with
      | none => rfl
      | some text => rfl

variable {g : Graph}

theorem length_evaluateAll (now : Instant) (inputs : Node → List Value) (nodes : List Node)
    (random : Random) : (evaluateAll now inputs nodes random).1.length = nodes.length := by
  induction nodes generalizing random with
  | nil => rfl
  | cons n rest ih => exact congrArg (· + 1) (ih _)

theorem tick_eq (hnodup : g.ids.Nodup) (now : Instant) :
    let pass := evaluateAll now (inputsIn g.nodes (g.tick now).graph.nodes) g.nodes g.random
    g.tick now =
      ⟨{ g with nodes := List.zipWith Node.after g.nodes pass.1, random := pass.2 },
        changesOf g.nodes pass.1, linesOf g.nodes pass.1⟩ := by
  generalize hfinal : (g.tick now).graph.nodes = final
  have h := tickNodes_eq now g.nodes [] [] g.random rfl hnodup final hfinal
  intro pass
  rw [tick, h]
  rfl

theorem exists_mem_zip (now : Instant) (inputs : Node → List Value) {nodes : List Node}
    (random : Random) {n : Node} (hn : n ∈ nodes) :
    ∃ draws, (n, n.kind.evaluate (inputs n) now draws n.output n.state) ∈
      nodes.zip (evaluateAll now inputs nodes random).1 := by
  induction nodes generalizing random with
  | nil => cases hn
  | cons m rest ih =>
    rw [evaluateAll, List.zip_cons_cons]
    rcases List.mem_cons.mp hn with rfl | hn
    · exact ⟨random, List.mem_cons_self⟩
    · obtain ⟨draws, hmem⟩ := ih _ hn
      exact ⟨draws, List.mem_cons_of_mem _ hmem⟩

/-- A node after a tick is the node before with its evaluation. -/
theorem node?_tick_of_mem_zip (hs : g.Sound) (now : Instant) {n : Node} {e : Evaluation}
    (hmem : (n, e) ∈ g.nodes.zip
      (evaluateAll now (inputsIn g.nodes (g.tick now).graph.nodes) g.nodes g.random).1) :
    (g.tick now).graph.node? n.id = some (n.after e) := by
  refine (node?_eq_some_iff (hs.tick now).nodup).mpr ⟨?_, rfl⟩
  have hnodes := congrArg (·.graph.nodes) (tick_eq hs.nodup now)
  dsimp only at hnodes
  rw [hnodes, ← List.map_uncurry_zip_eq_zipWith]
  exact List.mem_map_of_mem (f := Function.uncurry Node.after) hmem

/-- A node after a tick, and that it is announced if its output became another value. -/
theorem exists_node?_tick (hs : g.Sound) {n : Node} (hn : n ∈ g.nodes) (now : Instant) :
    ∃ draws, ∃ e : Evaluation,
      e = n.kind.evaluate (inputsIn g.nodes (g.tick now).graph.nodes n) now draws n.output
        n.state ∧
      (g.tick now).graph.node? n.id = some (n.after e) ∧
      (e.output.equal n.output = false → .updated n.id .output ∈ (g.tick now).events) := by
  obtain ⟨draws, hmem⟩ :=
    exists_mem_zip now (inputsIn g.nodes (g.tick now).graph.nodes) g.random hn
  refine ⟨draws, _, rfl, node?_tick_of_mem_zip hs now hmem, fun hother => ?_⟩
  have hevents := congrArg Ticked.events (tick_eq hs.nodup now)
  dsimp only at hevents
  rw [hevents, changesOf, List.mem_filterMap]
  exact ⟨_, hmem, if_neg (by rw [hother]; decide)⟩

/-- A node logs through its kind only if it is a logger or an echoer that is on. -/
theorem log_evaluate (n : Node) (inputs : List Value) (now : Instant) (random : Random) :
    (n.kind.evaluate inputs now random n.output n.state).log.map (LogLine.mk n.id) =
      n.logLine? inputs := by
  have hinputAt (index : Nat) : inputs[index]?.getD Value.unset = inputAt inputs index := rfl
  unfold Node.logLine?
  rw [hinputAt, hinputAt]
  cases hkind : n.kind with
  | logger | echoer =>
    by_cases hon : (inputAt inputs 0).isTruthy = true
    · simp [NodeKind.evaluate, NodeKind.isOn, hon]
    · simp [NodeKind.evaluate, NodeKind.isOn, hon]
  | battery | pulsifier | memory | calculator | comparison | conditionalPicker | numberCycler
  | randomWordGenerator => simp [NodeKind.evaluate]

theorem linesOf_evaluateAll (now : Instant) (inputs : Node → List Value) (nodes : List Node)
    (random : Random) :
    linesOf nodes (evaluateAll now inputs nodes random).1 =
      nodes.filterMap fun n => n.logLine? (inputs n) := by
  induction nodes generalizing random with
  | nil => rfl
  | cons n rest ih =>
    unfold linesOf at ih ⊢
    simp only [evaluateAll, List.zip_cons_cons, List.filterMap_cons]
    rw [ih, log_evaluate n (inputs n) now random]

/--
A tick evaluates every node exactly once, in order. What the inputs read is told by `readIn`; each
evaluation starts from the draws, the old output and the old state that it finds. Its node has the
output and the state that the evaluation gives, and is otherwise as it was. The lines logged are
those of the loggers and echoers that are on, in order. Everything else in the patch stays.
-/
theorem tick_in_order (hg : g.Reachable) (random : Random) (now : Instant) :
    let start := { g with random := random }
    let inputs := inputsIn g.nodes (start.tick now).graph.nodes
    let pass := evaluateAll now inputs g.nodes random
    pass.1.length = g.nodes.length ∧
      (start.tick now).graph =
        { g with
          nodes := List.zipWith (fun n e => { n with output := e.output, state := e.state })
            g.nodes pass.1
          random := pass.2 } ∧
      (start.tick now).log = g.nodes.filterMap fun n => n.logLine? (inputs n) := by
  intro start inputs pass
  have hstart : start.Sound := hg.sound.congr rfl rfl
  have htick := tick_eq hstart.nodup now
  refine ⟨length_evaluateAll now inputs g.nodes random, congrArg Ticked.graph htick, ?_⟩
  rw [← linesOf_evaluateAll now inputs g.nodes random]
  exact congrArg Ticked.log htick

/--
Of two echoers that a battery turns on, the one in front of it is still off in the first tick and
logs nothing, while the one behind it echoes. The pulsifier has its pulse and remembers it. Two
generators with the same words draw one after the other.
-/
theorem tick_in_order_lagging :
    let node := fun (kind : NodeKind) id => Node.ofType kind.nodeType (.ofNat id)
    let early := node .echoer 1
    let battery := node .battery 2
    let late := node .echoer 3
    let pulsifier := node .pulsifier 4
    let first := node .randomWordGenerator 5
    let second := node .randomWordGenerator 6
    let g := ((Session.ofGraph (blank {} (.ofSeed 7))).run
      [.edit (.add early), .edit (.add battery), .edit (.add late), .edit (.add pulsifier),
        .edit (.add first), .edit (.add second),
        .edit (.connect battery.id early.id 0), .edit (.connect battery.id early.id 1),
        .edit (.connect battery.id late.id 0), .edit (.connect battery.id late.id 1),
        .edit (.connect battery.id pulsifier.id 0),
        .edit (.connect battery.id first.id 0), .edit (.setLiteral first.id 1 (.text "a,b,c,d")),
        .edit (.connect battery.id second.id 0),
        .edit (.setLiteral second.id 1 (.text "a,b,c,d"))]).graph
    let start := { g with random := .ofSeed 3 }
    g.Reachable ∧
      (start.tick ⟨0⟩).graph.nodes.map (fun n => (n.id, n.output, n.state.wasTriggered)) =
        [(early.id, .unset, false), (battery.id, .bool true, false),
          (late.id, .bool true, false), (pulsifier.id, .bool true, true),
          (first.id, .text "a", false), (second.id, .text "c", false)] ∧
      (start.tick ⟨0⟩).log = [⟨late.id, "true"⟩] := by
  intro node early battery late pulsifier first second g start
  have hg : g.Reachable := ⟨_, _, _, rfl⟩
  obtain ⟨-, hgraph, hlog⟩ := tick_in_order hg (.ofSeed 3) ⟨0⟩
  refine ⟨hg, ?_, hlog.trans (by decide +kernel)⟩
  rw [hgraph]
  decide +kernel

end Graph

end Patchbay
