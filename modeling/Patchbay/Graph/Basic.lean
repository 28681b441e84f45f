import Patchbay.Config
import Patchbay.Event
import Patchbay.Node.Basic
import Patchbay.Random

/-!
# Patches

A patch is an ordered list of nodes with at most one of them selected, a view, and a source of
random draws. The order is the order of evaluation and of drawing, later nodes on top. Wires are
not stored: a wire is an input that refers to a node.
-/

namespace Patchbay

/-- Why an edit is refused. -/
inductive GraphError where
  | nodeNotFound (id : NodeId)
  /-- The node has no such input. -/
  | inputOutOfRange (id : NodeId) (index : Nat) (arity : Nat)
  /-- The node to read from is not there. -/
  | unknownSource (id : NodeId)
  /-- There is a node of this name already. -/
  | duplicateNode (id : NodeId)
  /-- The edit is about the selected node, and none is selected. -/
  | nothingSelected
deriving DecidableEq, Repr

namespace GraphError

/-- The text of an error. -/
def message : GraphError → String
  | nodeNotFound id => "Node not found: " ++ id.shown
  | inputOutOfRange id index arity =>
    "Input " ++ Nat.repr index ++ " out of range for node " ++ id.shown ++ " with " ++
      Nat.repr arity ++ " inputs"
  | unknownSource id => "Referenced node not in graph: " ++ id.shown
  | duplicateNode id => "Node already in graph: " ++ id.shown
  | nothingSelected => "No node selected"

end GraphError

/-- A patch. -/
structure Graph where
  nodes : List Node := []
  selected : Option NodeId := none
  viewport : Viewport := {}
  /-- Sizes and distances. -/
  config : Config := {}
  random : Random

namespace Graph

/-- The patch without nodes. -/
def blank (config : Config) (random : Random) : Graph where
  config := config
  random := random

/-- The empty patch. The seed of the configuration comes before the one given. -/
def empty (config : Config) (seed : UInt64) : Graph :=
  blank config (.ofSeed (config.seed.getD seed))

/-- The patch with its source of random draws started anew. -/
def reseed (g : Graph) (seed : UInt64) : Graph :=
  { g with random := .ofSeed seed }

/-- The names of the nodes in order. -/
def ids (g : Graph) : List NodeId := g.nodes.map (·.id)

/-- The node of a name. -/
def node? (g : Graph) (id : NodeId) : Option Node :=
  g.nodes.find? (·.id == id)

/-- Whether there is a node of this name. -/
def contains (g : Graph) (id : NodeId) : Bool :=
  g.nodes.any (·.id == id)

/-- The output of a node among those given, unset if it is not there. -/
def outputIn (nodes : List Node) (id : NodeId) : Value :=
  ((nodes.find? (·.id == id)).map (·.output)).getD .unset

/-- The output of a node. -/
def output (g : Graph) (id : NodeId) : Value := outputIn g.nodes id

/-- The value that a binding stands for at the moment. -/
def resolve (g : Graph) (b : Binding) : Value := b.resolve g.output

/-- The value of an input at the moment. -/
def inputValue? (g : Graph) (id : NodeId) (index : Nat) : Option Value :=
  ((g.node? id).bind (·.binding? index)).map g.resolve

/-- The patch with one node changed. -/
def update (g : Graph) (id : NodeId) (f : Node → Node) : Graph :=
  { g with nodes := g.nodes.map fun n => if n.id = id then f n else n }

/-- The patch with the mark of one node set or cleared. -/
def mark (g : Graph) (id : NodeId) (on : Bool) : Graph :=
  g.update id fun n => { n with selected := on }

/-- The patch with another selection: the mark leaves the node before and goes to the node now. -/
def reselect (g : Graph) (selected : Option NodeId) : Graph :=
  let unmarked := g.selected.elim g fun id => g.mark id false
  let marked := selected.elim unmarked fun id => unmarked.mark id true
  { marked with selected := selected }

theorem contains_iff (g : Graph) (id : NodeId) : g.contains id = true ↔ id ∈ g.ids := by
  simp [contains, ids]

theorem node?_isSome (g : Graph) (id : NodeId) : (g.node? id).isSome = g.contains id := by
  rw [Bool.eq_iff_iff, node?, contains, List.find?_isSome, List.any_eq_true]

theorem ids_update (g : Graph) (id : NodeId) (f : Node → Node) (h : ∀ n, (f n).id = n.id) :
    (g.update id f).ids = g.ids := by
  simp only [ids, update, List.map_map]
  apply List.map_congr_left
  intro n _
  simp only [Function.comp]
  split <;> simp [h]

end Graph

end Patchbay
