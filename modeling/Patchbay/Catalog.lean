import Patchbay.Node.Type
import Patchbay.Value.Arithmetic
import Patchbay.Value.Order

/-!
# The catalog

The node type of every kind: its name, category and description, and its inputs in order.
-/

namespace Patchbay

namespace NodeKind

/-- The name of a kind. -/
def title : NodeKind → String
  | battery => "Battery"
  | pulsifier => "Pulsifier"
  | memory => "Memory"
  | logger => "Logger"
  | echoer => "Echoer"
  | calculator => "Calculator"
  | comparison => "Comparison"
  | conditionalPicker => "Conditional Picker"
  | numberCycler => "Number Cycler"
  | randomWordGenerator => "Random Word Generator"

/-- The section of the palette that a kind stands in. -/
def category : NodeKind → NodeCategory
  | battery | pulsifier | memory => .control
  | logger | echoer => .output
  | calculator | comparison | conditionalPicker | numberCycler | randomWordGenerator => .operator

/-- What a kind does. -/
def summary : NodeKind → String
  | battery => "Always outputs true"
  | pulsifier => "Converts an input to a pulse"
  | memory => "Stores its value input while activated"
  | logger => "Logs its value input while activated"
  | echoer => "Echoes and stores its input"
  | calculator => "Does math on two numbers"
  | comparison => "Compares two values"
  | conditionalPicker => "Outputs one of two values depending on a condition"
  | numberCycler => "Cycles a number in a range"
  | randomWordGenerator => "Outputs a random word"

/-- The input that turns a node on. -/
def activation : Slot := ⟨"Activated?", .bool, none⟩

/-- The inputs of a kind. -/
def slots : NodeKind → List Slot
  | battery => []
  | pulsifier => [activation]
  | memory => [activation, ⟨"Value", .any, none⟩]
  | logger => [activation, ⟨"Value", .string, none⟩]
  | echoer => [activation, ⟨"Value", .any, none⟩]
  | calculator =>
    [Slot.withChoices ⟨"Operator", .string, none⟩ Value.calculatorOperators,
      ⟨"a", .number, none⟩, ⟨"b", .number, none⟩]
  | comparison =>
    [Slot.withChoices ⟨"Operator", .string, none⟩ Value.comparisonOperators,
      ⟨"a", .any, none⟩, ⟨"b", .any, none⟩]
  | conditionalPicker =>
    [⟨"Condition", .bool, none⟩, ⟨"True Value", .any, none⟩, ⟨"False Value", .any, none⟩]
  | numberCycler =>
    [activation, ⟨"Low", .number, none⟩, ⟨"High", .number, none⟩, ⟨"Rate", .number, none⟩]
  | randomWordGenerator => [activation, ⟨"Word List", .string, none⟩]

/-- The node type of a kind. -/
def nodeType (kind : NodeKind) : NodeType :=
  ⟨kind.typeId, kind, kind.title, kind.category, kind.summary, kind.slots⟩

end NodeKind

end Patchbay
