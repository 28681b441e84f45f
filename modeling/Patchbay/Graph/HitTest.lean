import Patchbay.Graph.Basic

/-!
# Hit tests

What lies under a point of the screen. The last of several nodes, or inputs, is on top. Borders
are outside. The hotspot of an output lies to the right of its anchor and that of an input to the
left, both centred vertically.
-/

namespace Patchbay

/-- An input of a node. -/
structure InputHit where
  node : NodeId
  index : Nat
deriving DecidableEq, Repr

/-- The hotspot of an output drawn at an anchor. -/
def outputHotspot (size : Offset) (anchor : Point) : Rect :=
  ⟨⟨anchor.x, anchor.y - size.y / 2⟩, ⟨anchor.x + size.x, anchor.y + size.y / 2⟩⟩

/-- The hotspot of an input drawn at an anchor. -/
def inputHotspot (size : Offset) (anchor : Point) : Rect :=
  ⟨⟨anchor.x - size.x, anchor.y - size.y / 2⟩, ⟨anchor.x, anchor.y + size.y / 2⟩⟩

namespace Graph

/-- The topmost node whose body contains a point. -/
def nodeAt? (g : Graph) (p : Point) : Option NodeId :=
  (g.nodes.reverse.find? fun n => (g.viewport.rectToScreen n.rect).contains p).map (·.id)

/-- The size of the hotspots. -/
def hotspotSize (g : Graph) : Offset := g.config.hotspotSize.toOffset

/-- The topmost node whose output has a point in its hotspot. -/
def outputAt? (g : Graph) (p : Point) : Option NodeId :=
  (g.nodes.reverse.find? fun n =>
    (outputHotspot g.hotspotSize (g.viewport.toScreen n.outputAnchor)).contains p).map (·.id)

/-- All inputs with their nodes, in the order of the nodes and then of their inputs. -/
def inputJacks (g : Graph) : List (Node × Nat) :=
  g.nodes.flatMap fun n => (List.range n.inputs.length).map fun index => (n, index)

/-- The last input that has a point in its hotspot. -/
def inputAt? (g : Graph) (p : Point) : Option InputHit :=
  (g.inputJacks.reverse.find? fun (n, index) =>
    (inputHotspot g.hotspotSize (g.viewport.toScreen (n.inputAnchor index))).contains p).map
      fun (n, index) => ⟨n.id, index⟩

end Graph

end Patchbay
