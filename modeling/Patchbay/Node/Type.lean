import Patchbay.Node.Kind
import Patchbay.Slot

/-!
# Node types

A node type names a kind and says how its nodes are presented: name, category, description and
inputs.
-/

namespace Patchbay

/-- The definition that nodes are made from. -/
structure NodeType where
  id : String
  /-- The kind, which decides how its nodes are evaluated. -/
  kind : NodeKind
  /-- The name shown for its nodes. -/
  name : String
  category : NodeCategory
  description : String
  inputs : List Slot
deriving DecidableEq

end Patchbay
