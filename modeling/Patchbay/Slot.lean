import Patchbay.Value.Text

/-!
# Input slots

A node type declares its inputs as slots: a label, the type of value expected, and the choices an
editor offers. The type says how text typed into an editor field becomes a value.
-/

namespace Patchbay

/-- The type of value that a slot expects. -/
inductive SlotType where
  | bool
  | number
  | string
  /-- Whatever comes. -/
  | any
deriving DecidableEq, Repr

namespace SlotType

/-- The name shown for a type. -/
def name : SlotType → String
  | bool => "boolean"
  | number => "number"
  | string => "string"
  | any => "any"

/-- The value of a text typed into a field of this type. -/
def coerce : SlotType → String → Value
  | bool, s => .bool (s == "true")
  | number, s => .number (Number.ofText s)
  | string, s => .text s
  | any, s => .text s

end SlotType

/-- The type that a value belongs to; an unset value has none. -/
def Value.slotType? : Value → Option SlotType
  | .unset => none
  | .bool _ => some .bool
  | .number _ => some .number
  | .text _ => some .string

/-- One entry of a node's list of inputs. -/
structure Slot where
  label : String
  type : SlotType
  /-- The values that the slot is restricted to. -/
  choices : Option (List Value) := none
deriving DecidableEq

namespace Slot

/-- The slot restricted to the given texts. -/
def withChoices (slot : Slot) (texts : List String) : Slot :=
  { slot with choices := some (texts.map .text) }

/-- The values that an editor offers; a slot for truth values offers both of them. -/
def options (slot : Slot) : Option (List Value) :=
  match slot.choices, slot.type with
  | some choices, _ => some choices
  | none, .bool => some [.bool true, .bool false]
  | none, _ => none

end Slot

end Patchbay
