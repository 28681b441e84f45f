import Patchbay.Evaluation
import Patchbay.Graph.Basic

/-!
# Ticks

One tick evaluates every node once, in order. Nothing is sorted by dependency: an input reads what
the output of its source holds at that moment, which is this tick's value for an earlier node and
the previous one for the node itself or a later one. Draws and log lines follow the same order. An
output is announced if it became another value.
-/

namespace Patchbay

/-- A line logged by a node. -/
structure LogLine where
  node : NodeId
  text : String
deriving DecidableEq, Repr

/-- What a tick leaves behind. -/
structure Ticked where
  graph : Graph
  /-- The outputs that became another value, in order. -/
  events : List Event := []
  /-- The lines logged, in order. -/
  log : List LogLine := []

namespace Node

/-- One evaluation of a node, given the outputs that its inputs read. -/
def evaluate (n : Node) (output : NodeId → Value) (now : Instant) (random : Random) :
    Evaluation :=
  n.kind.evaluate (n.bindings.map (·.resolve output)) now random n.output n.state

/-- The node after an evaluation. -/
def after (n : Node) (e : Evaluation) : Node :=
  { n with output := e.output, state := e.state }

end Node

namespace Graph

/-- The nodes after a tick that has passed the first of two lists of nodes, and what it sent. -/
def tickNodes (now : Instant) (passed : List Node) :
    List Node → Random → List Node × Random × List Event × List LogLine
  | [], random => (passed, random, [], [])
  | n :: rest, random =>
    let e := n.evaluate (outputIn (passed ++ n :: rest)) now random
    let (nodes, random, events, log) := tickNodes now (passed ++ [n.after e]) rest e.random
    (nodes, random,
      (if e.output.equal n.output then events else .updated n.id .output :: events),
      match e.log with
      | some text => ⟨n.id, text⟩ :: log
      | none => log)

/-- One tick at a point in time. -/
def tick (g : Graph) (now : Instant) : Ticked :=
  let (nodes, random, events, log) := tickNodes now [] g.nodes g.random
  ⟨{ g with nodes := nodes, random := random }, events, log⟩

end Graph

end Patchbay
