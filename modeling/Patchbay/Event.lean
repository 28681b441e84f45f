import Patchbay.Node.Id

/-!
# Notifications

What a patch tells its subscribers: nodes that come and go, fields of nodes that change, the
selection, and the scroll of the view.
-/

namespace Patchbay

/-- A field of a node that can change. -/
inductive NodeField where
  | output
  | name
  | description
  | input (index : Nat)
  | position
deriving DecidableEq, Repr

/-- One notification. -/
inductive Event where
  | added (id : NodeId)
  | removed (id : NodeId)
  /-- A field of a node was written. -/
  | updated (id : NodeId) (field : NodeField)
  /-- Another node, or none, is selected. -/
  | selectionChanged (selected : Option NodeId)
  | viewportChanged
deriving DecidableEq, Repr

end Patchbay
