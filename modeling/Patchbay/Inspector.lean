import Patchbay.Event.Bus
import Patchbay.Graph.Edit

/-!
# Inspectors

An inspector shows the selected node of a patch: its name, description, output and inputs. It
subscribes to the patch and makes its view anew when a notification says that something it shows
may have changed. Edits made through it go to the selected node, and the inspector follows them at
once.
-/

namespace Patchbay

/-- The binding of an input as it is shown. -/
inductive BindingView where
  | literal (v : Value)
  /-- The output of a node, with its name. -/
  | reference (source : NodeId) (name : String)
  | unbound
deriving DecidableEq

/-- An input as it is shown. -/
structure InputView where
  index : Nat
  label : String
  type : SlotType
  options : Option (List Value)
  binding : BindingView
  /-- Its value at the moment. -/
  value : Value
deriving DecidableEq

/-- A node as it is shown. -/
structure NodeView where
  id : NodeId
  kind : NodeKind
  name : String
  description : String
  output : Value
  inputs : List InputView
deriving DecidableEq

namespace BindingView

/-- The binding of an input of a patch. -/
def ofBinding (g : Graph) : Binding → BindingView
  | .literal v => .literal v
  | .reference source => .reference source (((g.node? source).map (·.name)).getD "")
  | .unbound => .unbound

/-- Whether two bindings look the same, numbers compared as numbers. -/
def equal : BindingView → BindingView → Bool
  | literal v, literal w => v.equal w
  | reference a s, reference b t => a == b && s == t
  | unbound, unbound => true
  | _, _ => false

end BindingView

namespace InputView

/-- Whether two inputs look the same. -/
def equal (a b : InputView) : Bool :=
  a.index == b.index && a.label == b.label && a.type == b.type &&
    (match a.options, b.options with
      | some vs, some ws => Value.equalAll vs ws
      | none, none => true
      | _, _ => false) &&
    a.binding.equal b.binding && a.value.equal b.value

/-- Whether two lists of inputs look the same, place by place. -/
def equalAll : List InputView → List InputView → Bool
  | [], [] => true
  | a :: as, b :: bs => a.equal b && equalAll as bs
  | _, _ => false

end InputView

namespace NodeView

/-- Whether two views look the same. -/
def equal (a b : NodeView) : Bool :=
  a.id == b.id && a.kind == b.kind && a.name == b.name && a.description == b.description &&
    a.output.equal b.output && InputView.equalAll a.inputs b.inputs

/-- The view of a node of a patch. -/
def ofNode (g : Graph) (n : Node) : NodeView where
  id := n.id
  kind := n.kind
  name := n.name
  description := n.description
  output := n.output
  inputs := n.inputs.zipIdx.map fun (i, index) =>
    { index := index
      label := i.slot.label
      type := i.slot.type
      options := i.slot.options
      binding := .ofBinding g i.binding
      value := g.resolve i.binding }

/-- The view of the selected node. -/
def ofSelection (g : Graph) : Option NodeView :=
  (g.selected.bind g.node?).map (ofNode g)

end NodeView

/-- An inspector. -/
structure Inspector where
  subscriber : Nat
  /-- What it shows; nothing while nothing is selected. -/
  view : Option NodeView
deriving DecidableEq

namespace Inspector

/-- Whether two views, or their absence, look the same. -/
def sameView : Option NodeView → Option NodeView → Bool
  | some a, some b => a.equal b
  | none, none => true
  | _, _ => false

/-- Whether a notification can concern what an inspector shows. -/
def concerns : Event → Bool
  | .viewportChanged => false
  | .added _ => false
  | .updated _ .position => false
  | _ => true

/--
Follows the patch after the given notifications. The answer says whether the view was replaced,
which it is only by one that looks different.
-/
def follow (i : Inspector) (g : Graph) (pending : List Event) : Bool × Inspector :=
  if pending.any concerns then
    let view := NodeView.ofSelection g
    if sameView view i.view then (false, i) else (true, { i with view := view })
  else (false, i)

/-- Subscribes to a patch and shows its selection. -/
def attach (g : Graph) (b : Bus) : Inspector × Bus :=
  let (subscriber, b) := b.subscribe
  (⟨subscriber, NodeView.ofSelection g⟩, b)

/-- Reads the pending notifications and follows the patch. -/
def sync (i : Inspector) (g : Graph) (b : Bus) : Bool × Inspector × Bus :=
  let (pending, b) := b.drain i.subscriber
  let (changed, i) := i.follow g pending
  (changed, i, b)

end Inspector

/-! ## Edits of the selected node -/

namespace Graph

/-- Binds an input of the selected node to a constant. -/
def setSelectedLiteral (g : Graph) (index : Nat) (v : Value) : Except GraphError (Change Unit) :=
  match g.selected with
  | none => .error .nothingSelected
  | some id => (g.setLiteral id index v).map fun c => ⟨(), c.graph, c.events⟩

/-- Binds an input of the selected node to what a text means for the type of the input. -/
def setSelectedText (g : Graph) (index : Nat) (text : String) :
    Except GraphError (Change Value) :=
  match g.selected with
  | none => .error .nothingSelected
  | some id =>
    match g.node? id with
    | none => .error (.nodeNotFound id)
    | some n =>
      match n.inputs[index]? with
      | none => .error (.inputOutOfRange id index n.inputs.length)
      | some i =>
        let v := i.slot.type.coerce text
        (g.setLiteral id index v).map fun c => ⟨v, c.graph, c.events⟩

/-- Unbinds an input of the selected node. -/
def clearSelectedInput (g : Graph) (index : Nat) : Except GraphError (Change Unit) :=
  match g.selected with
  | none => .error .nothingSelected
  | some id => (g.clearInput id index).map fun c => ⟨(), c.graph, c.events⟩

/-- Changes the name of the selected node. -/
def renameSelected (g : Graph) (name : String) : Except GraphError (Change Unit) :=
  match g.selected with
  | none => .error .nothingSelected
  | some id => g.rename id name

/-- Removes the selected node and gives back its identity. -/
def removeSelected (g : Graph) : Except GraphError (Change NodeId) :=
  match g.selected with
  | none => .error .nothingSelected
  | some id =>
    let c := g.remove id
    if c.result.isSome then .ok ⟨id, c.graph, c.events⟩ else .error (.nodeNotFound id)

end Graph

end Patchbay
