import Patchbay.Catalog
import Patchbay.Graph.Basic

/-!
# Edits

Each edit either refuses, and then leaves the patch alone, or gives an answer, the patch afterwards
and the notifications in the order in which they are sent.

References lead only to nodes that are there: a binding to another node is refused, adding a node
unbinds the inputs that refer to absent ones, and removing a node unbinds the inputs that refer to
it. At most one node is selected, and its mark agrees with the patch.
-/

namespace Patchbay

/-- What an edit leaves behind. -/
structure Change (α : Type) where
  result : α
  graph : Graph
  events : List Event := []

namespace Graph

/-- An edit of one node that is announced as a change of one field. -/
def editNode (g : Graph) (id : NodeId) (field : NodeField) (f : Node → Node) :
    Except GraphError (Change Unit) :=
  if g.contains id then .ok ⟨(), g.update id f, [.updated id field]⟩
  else .error (.nodeNotFound id)

/--
A node as it is once added: not selected, and without the references to absent nodes. One to the
node itself stays.
-/
def admitted (g : Graph) (n : Node) : Node :=
  { n.keepReferences fun source => source == n.id || g.contains source with selected := false }

/-- The patch with a node on top. -/
def withNode (g : Graph) (n : Node) : Graph := { g with nodes := g.nodes ++ [g.admitted n] }

/-- Adds a node on top. -/
def add (g : Graph) (n : Node) : Except GraphError (Change NodeId) :=
  if g.contains n.id then .error (.duplicateNode n.id)
  else .ok ⟨n.id, g.withNode n, [.added n.id]⟩

/-- A node of a kind near the upper left corner of the view, and the draws that placed it. -/
def spawned (g : Graph) (kind : NodeKind) (id : NodeId) : Node × Random :=
  let (x, random) := g.random.unit
  let (y, random) := random.unit
  let away := g.config.spawnOffset.toFloat32
  let corner := g.viewport.scroll + Offset.mk away away
  let place := corner + (Offset.mk x y).scale g.config.spawnJitter.toFloat32
  ({ Node.ofType kind.nodeType id with
      size := g.config.nodeSize.toOffset
      position := ⟨place.x, place.y⟩ }, random)

/--
Adds a node of a kind near the upper left corner of the view, under a name not in use. The node is
placed before the name is looked at.
-/
def spawn (g : Graph) (kind : NodeKind) (id : NodeId) : Except GraphError (Change NodeId) :=
  let (n, random) := g.spawned kind id
  { g with random := random }.add n

/-- The patch without a node, its wires and its selection. -/
def without (g : Graph) (id : NodeId) : Graph :=
  { g with
    nodes := (g.nodes.filter (·.id ≠ id)).map (·.keepReferences (· != id))
    selected := if g.selected = some id then none else g.selected }

/-- The notifications of a removal: the selection, the node, then the inputs unbound in order. -/
def removalEvents (g : Graph) (id : NodeId) : List Event :=
  (if g.selected = some id then [.selectionChanged none] else []) ++ .removed id ::
    (g.nodes.filter (·.id ≠ id)).flatMap fun n =>
      (n.indicesReading id).map fun index => .updated n.id (.input index)

/-- Removes a node and gives it back as it was; nothing happens if there is none. -/
def remove (g : Graph) (id : NodeId) : Change (Option Node) :=
  match g.node? id with
  | none => ⟨none, g, []⟩
  | some n => ⟨some n, g.without id, g.removalEvents id⟩

/-- Binds an input and gives back what it was bound to. -/
def bind (g : Graph) (id : NodeId) (index : Nat) (b : Binding) :
    Except GraphError (Change Binding) :=
  match b.source?.filter (!g.contains ·) with
  | some source => .error (.unknownSource source)
  | none =>
    match g.node? id with
    | none => .error (.nodeNotFound id)
    | some n =>
      match n.binding? index with
      | none => .error (.inputOutOfRange id index n.inputs.length)
      | some before =>
        .ok ⟨before, g.update id (·.bind index b), [.updated id (.input index)]⟩

/-- Binds an input to a constant. -/
def setLiteral (g : Graph) (id : NodeId) (index : Nat) (v : Value) :
    Except GraphError (Change Binding) :=
  g.bind id index (.literal v)

/-- Unbinds an input. -/
def clearInput (g : Graph) (id : NodeId) (index : Nat) : Except GraphError (Change Binding) :=
  g.bind id index .unbound

/-- Moves a node by an offset. -/
def moveNode (g : Graph) (id : NodeId) (d : Offset) : Except GraphError (Change Unit) :=
  g.editNode id .position fun n => { n with position := n.position + d }

/-- Puts a node in a place. -/
def setPosition (g : Graph) (id : NodeId) (p : Point) : Except GraphError (Change Unit) :=
  g.editNode id .position fun n => { n with position := p }

/-- Changes the name shown for a node. -/
def rename (g : Graph) (id : NodeId) (name : String) : Except GraphError (Change Unit) :=
  g.editNode id .name fun n => { n with name := name }

/-- Changes the description of a node. -/
def describe (g : Graph) (id : NodeId) (description : String) :
    Except GraphError (Change Unit) :=
  g.editNode id .description fun n => { n with description := description }

/-- Selects a node; to select it again is no change. -/
def select (g : Graph) (id : NodeId) : Except GraphError (Change Unit) :=
  if g.contains id then
    if g.selected = some id then .ok ⟨(), g, []⟩
    else .ok ⟨(), g.reselect (some id), [.selectionChanged (some id)]⟩
  else .error (.nodeNotFound id)

/-- Selects nothing. -/
def deselect (g : Graph) : Change Unit :=
  match g.selected with
  | none => ⟨(), g, []⟩
  | some _ => ⟨(), g.reselect none, [.selectionChanged none]⟩

/-- Scrolls the view; to scroll by nothing is no change. -/
def scrollBy (g : Graph) (d : Offset) : Change Unit :=
  if d.isZero then ⟨(), g, []⟩
  else ⟨(), { g with viewport := ⟨g.viewport.scroll + d⟩ }, [.viewportChanged]⟩

end Graph

end Patchbay
