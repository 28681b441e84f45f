import Patchbay.Binding
import Patchbay.Geometry
import Patchbay.Instant
import Patchbay.Node.Type

/-!
# Nodes

A node has an identity, a presentation, a place, a list of inputs, an output, and a private state
that its kind may use between ticks. Each input carries both its declaration and its binding, so a
node always has exactly one binding for each slot.
-/

namespace Patchbay

/-- What a node remembers between ticks besides its output. -/
structure NodeState where
  /-- Whether the input of a pulsifier was on at the last tick. -/
  wasTriggered : Bool := false
  /-- When a number cycler was turned on. -/
  cycleStarted : Option Instant := none
deriving DecidableEq, Inhabited

/-- A node. -/
structure Node where
  id : NodeId
  kind : NodeKind
  name : String
  description : String
  /-- The upper left corner of its body. -/
  position : Point
  size : Offset
  /-- The colour of its body while it is not selected. -/
  color : Color
  inputs : List Input
  output : Value := .unset
  /-- What it remembers. -/
  state : NodeState := {}
  /-- Whether it is drawn as selected. -/
  selected : Bool := false
deriving DecidableEq

namespace Node

/-- The size of a node that is given none. -/
def defaultSize : Offset := ⟨40, 40⟩

/-- The place of a node that is given none. -/
def defaultPosition : Point := ⟨80, 80⟩

/-- A new node of a type, its inputs unbound. -/
def ofType (type : NodeType) (id : NodeId) : Node where
  id := id
  kind := type.kind
  name := type.name
  description := type.description
  position := defaultPosition
  size := defaultSize
  color := type.category.color
  inputs := type.inputs.map fun slot => { slot }

/-- The declarations of the inputs. -/
def slots (n : Node) : List Slot := n.inputs.map (·.slot)

/-- The bindings of the inputs. -/
def bindings (n : Node) : List Binding := n.inputs.map (·.binding)

/-- The binding of an input. -/
def binding? (n : Node) (index : Nat) : Option Binding :=
  n.inputs[index]?.map (·.binding)

/-- The nodes that the inputs read from, in order. -/
def sources (n : Node) : List NodeId := n.bindings.filterMap Binding.source?

/-- The node with one input bound anew; nothing changes past the last input. -/
def bind (n : Node) (index : Nat) (b : Binding) : Node :=
  { n with inputs := n.inputs.modify index ({ · with binding := b }) }

/-- The node with the references that fail a test unbound. -/
def keepReferences (n : Node) (keep : NodeId → Bool) : Node :=
  { n with inputs := n.inputs.map fun i =>
      if i.binding.source?.all keep then i else { i with binding := .unbound } }

/-- The indices of the inputs that read from a node. -/
def indicesReading (n : Node) (source : NodeId) : List Nat :=
  n.inputs.zipIdx.filterMap fun (i, index) =>
    if i.binding.refersTo source then some index else none

/-- The colour to draw a node in: selected nodes are lighter. -/
def displayColor (n : Node) : Color :=
  if n.selected then n.color.lightened else n.color

/-- The body of a node. -/
def rect (n : Node) : Rect := .ofCorner n.position n.size

/-- Where wires leave a node: the middle of the right edge. -/
def outputAnchor (n : Node) : Point :=
  ⟨n.position.x + n.size.x, n.position.y + n.size.y / 2⟩

/-- Where the wire into an input arrives: the jacks share the middle 70% of the left edge. -/
def inputAnchor (n : Node) (index : Nat) : Point :=
  let height := n.size.y
  let spacing := 0.7 * height / Float32.ofNat (max n.inputs.length 1)
  ⟨n.position.x, n.position.y + 0.15 * height + spacing * (Float32.ofNat index + 0.5)⟩

@[simp] theorem length_bindings (n : Node) : n.bindings.length = n.inputs.length := by
  simp [bindings]

@[simp] theorem length_slots (n : Node) : n.slots.length = n.inputs.length := by
  simp [slots]

@[simp] theorem slots_bind (n : Node) (index : Nat) (b : Binding) :
    (n.bind index b).slots = n.slots := by
  apply List.ext_getElem?
  intro i
  simp only [slots, bind, List.getElem?_map, List.getElem?_modify]
  split <;> cases n.inputs[i]? <;> simp

@[simp] theorem slots_keepReferences (n : Node) (keep : NodeId → Bool) :
    (n.keepReferences keep).slots = n.slots := by
  simp only [slots, keepReferences, List.map_map]
  apply List.map_congr_left
  intro i _
  simp only [Function.comp]
  split <;> rfl

end Node

end Patchbay
