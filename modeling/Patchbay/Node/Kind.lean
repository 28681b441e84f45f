/-!
# Kinds of nodes

The closed set of node kinds, each with the identifier that a registry knows it by, and the three
categories of the palette with their colours.
-/

namespace Patchbay

/-- A kind of node. -/
inductive NodeKind where
  /-- Always on. -/
  | battery
  /-- Turns a rising input into a pulse of one tick. -/
  | pulsifier
  /-- Keeps a value while it is on. -/
  | memory
  /-- Logs a value while it is on. -/
  | logger
  /-- Logs a value and passes it on while it is on. -/
  | echoer
  | calculator
  | comparison
  | conditionalPicker
  /-- Runs a number through a range as time goes by. -/
  | numberCycler
  /-- Picks words from a list at random. -/
  | randomWordGenerator
deriving DecidableEq, Repr

namespace NodeKind

/-- All kinds in the order of the palette. -/
def all : List NodeKind :=
  [battery, pulsifier, memory, logger, echoer, calculator, comparison, conditionalPicker,
    numberCycler, randomWordGenerator]

/-- The identifier of a kind. -/
def typeId : NodeKind → String
  | battery => "battery"
  | pulsifier => "pulsifier"
  | memory => "memory"
  | logger => "logger"
  | echoer => "echoer"
  | calculator => "calculator"
  | comparison => "comparison"
  | conditionalPicker => "conditional_picker"
  | numberCycler => "number_cycler"
  | randomWordGenerator => "random_word_generator"

end NodeKind

/-- A colour as red, green and blue. -/
structure Color where
  red : UInt8
  green : UInt8
  blue : UInt8
deriving DecidableEq, Repr

namespace Color

/-- The part raised by the given amount, as far as it goes. -/
def brighten (part amount : UInt8) : UInt8 :=
  UInt8.ofNat (min 255 (part.toNat + amount.toNat))

/-- The colour with all parts raised by thirty. -/
def lightened (c : Color) : Color :=
  ⟨brighten c.red 30, brighten c.green 30, brighten c.blue 30⟩

end Color

/-- A section of the palette. -/
inductive NodeCategory where
  /-- Sources of power and shapers of signals. -/
  | control
  /-- Effects outside the patch. -/
  | output
  /-- Transformations of values. -/
  | operator
deriving DecidableEq, Repr

/-- The colour of the nodes in a category. -/
def NodeCategory.color : NodeCategory → Color
  | .control => ⟨200, 131, 48⟩
  | .output => ⟨138, 35, 215⟩
  | .operator => ⟨92, 138, 18⟩

end Patchbay
