import Patchbay.Catalog
import Patchbay.Node.Basic

/-!
# Registries

The node types on offer, in the order in which their identifiers were first registered. To register
an identifier again replaces its definition in place.
-/

namespace Patchbay

/-- The node types on offer. -/
structure Registry where
  /-- The types in order, one for each identifier. -/
  types : List NodeType := []
deriving DecidableEq

namespace Registry

/-- Registers a type, in place of an earlier one of the same identifier. -/
def register (r : Registry) (t : NodeType) : Registry :=
  if r.types.any (·.id == t.id) then
    ⟨r.types.map fun u => if u.id = t.id then t else u⟩
  else ⟨r.types ++ [t]⟩

/-- The registry of all built-in kinds, in the order of the palette. -/
def standard : Registry :=
  (NodeKind.all.map NodeKind.nodeType).foldl register {}

/-- The type of an identifier. -/
def get? (r : Registry) (id : String) : Option NodeType :=
  r.types.find? (·.id == id)

/-- The types of a category. -/
def inCategory (r : Registry) (c : NodeCategory) : List NodeType :=
  r.types.filter (·.category == c)

/-- How many types there are. -/
def size (r : Registry) : Nat := r.types.length

/-- Whether there are none. -/
def isEmpty (r : Registry) : Bool := r.types.isEmpty

/-- A new node of a type. -/
def create? (r : Registry) (typeId : String) (id : NodeId) : Option Node :=
  (r.get? typeId).map fun t => Node.ofType t id

end Registry

end Patchbay
