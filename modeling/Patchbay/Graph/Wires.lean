import Patchbay.Graph.Edit

/-!
# Wires

The wires of a patch are the inputs that refer to a node, in the order of the nodes and then of
their inputs.
-/

namespace Patchbay

/-- A wire from the output of a node to an input of a node. -/
structure Wire where
  source : NodeId
  target : NodeId
  input : Nat
deriving DecidableEq, Repr

namespace Wire

/-- Whether a node is at either end. -/
def involves (w : Wire) (id : NodeId) : Bool :=
  w.source == id || w.target == id

end Wire

/-- The wires that enter a node. -/
def Node.wiresIn (n : Node) : List Wire :=
  n.bindings.zipIdx.filterMap fun (b, index) =>
    b.source?.map fun source => ⟨source, n.id, index⟩

namespace Graph

/-- The wires of a patch. -/
def wires (g : Graph) : List Wire := g.nodes.flatMap Node.wiresIn

/-- The wires with a given node at either end. -/
def wiresOf (g : Graph) (id : NodeId) : List Wire := g.wires.filter (·.involves id)

/-- Wires the output of a node to an input, in place of what the input was bound to. -/
def connect (g : Graph) (source target : NodeId) (index : Nat) :
    Except GraphError (Change Wire) :=
  (g.bind target index (.reference source)).map fun c =>
    ⟨⟨source, target, index⟩, c.graph, c.events⟩

end Graph

end Patchbay
