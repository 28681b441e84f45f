import Patchbay.Graph.HitTest
import Patchbay.Graph.Scene

/-!
# Pointer handling

Presses, moves, releases and turns of the wheel become edits of a patch. A press is remembered with
what lay under it, an output before a node before the canvas. It becomes a drag when the pointer
has travelled far enough, and then draws a wire, moves the node or pans the view; a release before
that is a click where the pointer then is. An edit that the patch refuses, because a node has gone
meanwhile, changes nothing and is no gesture.
-/

namespace Patchbay

/-- A movement or a button of the pointer. -/
structure PointerEvent where
  /-- Where the pointer is on the screen. -/
  position : Point
  /-- How far it moved since the last event. -/
  delta : Offset := .zero
deriving DecidableEq

/-- What lay under a press. -/
inductive PressTarget where
  | output (id : NodeId)
  /-- The body of a node. -/
  | node (id : NodeId)
  | canvas
deriving DecidableEq

/-- What the pointer is doing. -/
inductive PointerMode where
  | idle
  /-- Pressed, and neither click nor drag yet. -/
  | pressed (origin : Point) (target : PressTarget) (travelled : Float32)
  /-- A node follows the pointer. -/
  | draggingNode (id : NodeId)
  /-- A wire out of a node ends at the pointer. -/
  | draggingWire (source : NodeId) (tip : Point)
  /-- The view follows the pointer. -/
  | panning
deriving DecidableEq

/-- What an event came to. -/
inductive Gesture where
  /-- The patch is as it was. -/
  | ignored
  | selected (id : NodeId)
  | deselected
  | movedNode (id : NodeId)
  | panned
  /-- A wire follows the pointer. -/
  | wireStarted (id : NodeId)
  /-- A wire was dropped on an input. -/
  | wireCompleted (w : Wire)
  /-- A wire was cut by a click on its input. -/
  | wireDeleted (w : Wire)
deriving DecidableEq

/-- The pointer between two events. -/
structure Pointer where
  /-- How far it travels before a press becomes a drag. -/
  dragThreshold : Float32
  /-- What it is doing. -/
  mode : PointerMode := .idle
deriving DecidableEq

namespace Pointer

/-- A pointer with the threshold of a configuration. -/
def ofConfig (c : Config) : Pointer := ⟨c.dragThreshold.toFloat32, .idle⟩

/-- An event that leaves the patch alone. -/
def noChange (g : Graph) (gesture : Gesture) : Change Gesture := ⟨gesture, g, []⟩

/-- The gesture that an edit comes to; a refused one is ignored. -/
def attempt {α : Type} (g : Graph) (edit : Except GraphError (Change α)) (gesture : Gesture) :
    Change Gesture :=
  match edit with
  | .ok c => ⟨gesture, c.graph, c.events⟩
  | .error _ => noChange g .ignored

/-- What lies under a point: an output before a node before the canvas. -/
def targetAt (g : Graph) (p : Point) : PressTarget :=
  match g.outputAt? p with
  | some id => .output id
  | none =>
    match g.nodeAt? p with
    | some id => .node id
    | none => .canvas

/-- The button goes down; only an idle pointer takes notice. -/
def press (s : Pointer) (g : Graph) (e : PointerEvent) : Pointer :=
  match s.mode with
  | .idle => { s with mode := .pressed e.position (targetAt g e.position) 0 }
  | _ => s

/-- A drag goes on. -/
def drag (s : Pointer) (g : Graph) (e : PointerEvent) : Pointer × Change Gesture :=
  match s.mode with
  | .draggingNode id => (s, attempt g (g.moveNode id e.delta) (.movedNode id))
  | .draggingWire source _ =>
    ({ s with mode := .draggingWire source e.position }, noChange g .ignored)
  | .panning =>
    if e.delta.isZero then (s, noChange g .ignored)
    else
      let c := g.scrollBy (-e.delta)
      (s, ⟨.panned, c.graph, c.events⟩)
  | _ => (s, noChange g .ignored)

/-- The pointer moves. The move that crosses the threshold already moves the node or the view. -/
def move (s : Pointer) (g : Graph) (e : PointerEvent) : Pointer × Change Gesture :=
  match s.mode with
  | .idle => (s, noChange g .ignored)
  | .pressed origin target travelled =>
    let travelled := e.delta.travel travelled
    if travelled < s.dragThreshold then
      ({ s with mode := .pressed origin target travelled }, noChange g .ignored)
    else
      match target with
      | .output source =>
        ({ s with mode := .draggingWire source e.position }, noChange g (.wireStarted source))
      | .node id => drag { s with mode := .draggingNode id } g e
      | .canvas => drag { s with mode := .panning } g e
  | _ => drag s g e

/-- The wire that ends in an input, if one does. -/
def wireAt? (g : Graph) (hit : InputHit) : Option Wire :=
  (((g.node? hit.node).bind (·.binding? hit.index)).bind (·.source?)).map fun source =>
    ⟨source, hit.node, hit.index⟩

/-- Selects the node under a point, or nothing if it is selected or there is none. -/
def clickNode (g : Graph) (p : Point) (input : Option InputHit) : Change Gesture :=
  match g.nodeAt? p with
  | some id =>
    if g.selected = some id then
      let c := g.deselect
      ⟨.deselected, c.graph, c.events⟩
    else attempt g (g.select id) (.selected id)
  | none =>
    if input.any fun hit => g.selected = some hit.node then noChange g .ignored
    else
      let c := g.deselect
      ⟨.deselected, c.graph, c.events⟩

/--
A click cuts the wire into the input under it. Otherwise it selects the node under it, or clears
the selection, except that a click on an input of the selected node keeps it.
-/
def click (g : Graph) (p : Point) : Change Gesture :=
  let input := g.inputAt? p
  match input.bind (wireAt? g) with
  | some w => attempt g (g.clearInput w.target w.input) (.wireDeleted w)
  | none => clickNode g p input

/-- A wire is dropped; on an input it takes the place of what the input was bound to. -/
def dropWire (g : Graph) (source : NodeId) (p : Point) : Change Gesture :=
  match g.inputAt? p with
  | none => noChange g .ignored
  | some hit =>
    attempt g (g.connect source hit.node hit.index)
      (.wireCompleted ⟨source, hit.node, hit.index⟩)

/-- The button comes up, and the pointer is idle again. -/
def release (s : Pointer) (g : Graph) (e : PointerEvent) : Pointer × Change Gesture :=
  ({ s with mode := .idle },
    match s.mode with
    | .pressed .. => click g e.position
    | .draggingWire source _ => dropWire g source e.position
    | _ => noChange g .ignored)

/-- The wheel turns and scrolls the view, whatever the pointer is doing. -/
def wheel (g : Graph) (d : Offset) : Change Gesture :=
  if d.isZero then noChange g .ignored
  else
    let c := g.scrollBy d
    ⟨.panned, c.graph, c.events⟩

/-- The wire that follows the pointer, from its output. -/
def pendingWire? (s : Pointer) (g : Graph) : Option WirePicture :=
  match s.mode with
  | .draggingWire source tip =>
    (g.node? source).map fun n =>
      { start := g.viewport.toScreen n.outputAnchor
        finish := tip
        powered := n.output.isTruthy }
  | _ => none

end Pointer

end Patchbay
