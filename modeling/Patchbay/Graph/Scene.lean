import Patchbay.Graph.Wires

/-!
# Scenes

A picture of a patch in screen coordinates, for a renderer: the nodes in drawing order with their
jacks, and the wires.
-/

namespace Patchbay

/-- A wire to draw. -/
structure WirePicture where
  start : Point
  finish : Point
  /-- Whether the output that it leaves is on. -/
  powered : Bool
deriving DecidableEq

/-- An input jack to draw. -/
structure JackPicture where
  label : String
  /-- The place of the jack. -/
  anchor : Point
  /-- The value at the moment. -/
  value : Value
  binding : BindingKind
deriving DecidableEq

/-- A node to draw. -/
structure NodePicture where
  id : NodeId
  name : String
  rect : Rect
  color : Color
  /-- Whether it is marked. -/
  selected : Bool
  /-- The place of the output jack. -/
  outputAnchor : Point
  output : Value
  inputs : List JackPicture
deriving DecidableEq

/-- A picture of a patch. -/
structure Scene where
  scroll : Offset
  /-- The nodes, the last one on top. -/
  nodes : List NodePicture
  wires : List WirePicture
deriving DecidableEq

/-- The picture of a node. -/
def Scene.node? (s : Scene) (id : NodeId) : Option NodePicture :=
  s.nodes.find? (·.id == id)

namespace Graph

/-- The picture of one node. -/
def picture (g : Graph) (n : Node) : NodePicture where
  id := n.id
  name := n.name
  rect := g.viewport.rectToScreen n.rect
  color := n.displayColor
  selected := n.selected
  outputAnchor := g.viewport.toScreen n.outputAnchor
  output := n.output
  inputs := n.inputs.zipIdx.map fun (i, index) =>
    { label := i.slot.label
      anchor := g.viewport.toScreen (n.inputAnchor index)
      value := g.resolve i.binding
      binding := i.binding.kind }

/-- The picture of a wire between two nodes that are there. -/
def wirePicture? (g : Graph) (w : Wire) : Option WirePicture := do
  let source ← g.node? w.source
  let target ← g.node? w.target
  return {
    start := g.viewport.toScreen source.outputAnchor
    finish := g.viewport.toScreen (target.inputAnchor w.input)
    powered := source.output.isTruthy }

/-- The picture of a patch. -/
def scene (g : Graph) : Scene where
  scroll := g.viewport.scroll
  nodes := g.nodes.map g.picture
  wires := g.wires.filterMap g.wirePicture?

end Graph

end Patchbay
