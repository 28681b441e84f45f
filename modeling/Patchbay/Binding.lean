import Patchbay.Node.Id
import Patchbay.Slot

/-!
# Bindings

What an input reads: a constant, the output of a node, or nothing. A reference is followed for one
step only, to whatever the node's output holds at that moment.
-/

namespace Patchbay

/-- What an input is bound to. -/
inductive Binding where
  | literal (v : Value)
  | reference (source : NodeId)
  | unbound
deriving DecidableEq, Inhabited

/-- The sort of a binding. -/
inductive BindingKind where
  | literal
  | reference
  | unbound
deriving DecidableEq, Repr

namespace Binding

/-- The sort of a binding. -/
def kind : Binding → BindingKind
  | literal _ => .literal
  | reference _ => .reference
  | unbound => .unbound

/-- The node that a binding reads from. -/
def source? : Binding → Option NodeId
  | reference source => some source
  | _ => none

/-- Whether the binding reads from the given node. -/
def refersTo (b : Binding) (id : NodeId) : Bool :=
  b.source? == some id

/-- The value that a binding stands for, given the outputs of the nodes. -/
def resolve (output : NodeId → Value) : Binding → Value
  | literal v => v
  | reference source => output source
  | unbound => .unset

end Binding

/-- One input of a node: what it declares, and what it is bound to. -/
structure Input where
  slot : Slot
  binding : Binding := .unbound
deriving DecidableEq

end Patchbay
