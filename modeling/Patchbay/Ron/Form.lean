import Patchbay.Graph.Wires
import Patchbay.Ron.Reader
import Patchbay.Ron.Writer

/-!
# The written forms of plain data

Values, bindings, slots, node types and wires as they are kept in the object notation. A `Form` is a
way to write the data of a type and a reader for it.
-/

namespace Patchbay.Ron

/-- The written form of a type. -/
structure Form (α : Type) where
  /-- How data is written. -/
  write : α → List Char
  /-- How it is read. -/
  read : Reader α

namespace Form

/-- The text of some data. -/
def toText {α : Type} (f : Form α) (a : α) : String := String.ofList (f.write a)

/-- The data of a text, which may hold nothing else. -/
def ofText? {α : Type} (f : Form α) (text : String) : Option α := f.read.document? text.toList

end Form

/-! ## Enumerations -/

/-- The form of a type whose members are words. -/
def enumeration {α : Type} (word : α → String) (members : List α) : Form α where
  write a := (word a).toList
  read := Reader.variants (members.map fun a => (word a, a)) []

/-- The word for a slot type. -/
def slotTypeWord : SlotType → String
  | .bool => "Bool"
  | .number => "Number"
  | .string => "String"
  | .any => "Any"

/-- The word for a kind. -/
def kindWord : NodeKind → String
  | .battery => "Battery"
  | .pulsifier => "Pulsifier"
  | .memory => "Memory"
  | .logger => "Logger"
  | .echoer => "Echoer"
  | .calculator => "Calculator"
  | .comparison => "Comparison"
  | .conditionalPicker => "ConditionalPicker"
  | .numberCycler => "NumberCycler"
  | .randomWordGenerator => "RandomWordGenerator"

/-- The word for a category. -/
def categoryWord : NodeCategory → String
  | .control => "Control"
  | .output => "Output"
  | .operator => "Operator"

/-- Slot types. -/
def slotType : Form SlotType := enumeration slotTypeWord [.bool, .number, .string, .any]

/-- Kinds. -/
def nodeKind : Form NodeKind := enumeration kindWord NodeKind.all

/-- Categories. -/
def nodeCategory : Form NodeCategory := enumeration categoryWord [.control, .output, .operator]

/-! ## Values, identifiers and bindings -/

/-- Values. -/
def value : Form Value where
  write
    | .unset => "Unset".toList
    | .bool b => writeVariant "Bool" (writeBool b)
    | .number x => writeVariant "Number" (writeDouble x)
    | .text s => writeVariant "Text" (writeString s)
  read := .variants [("Unset", .unset)]
    [("Bool", .map .bool .bool), ("Number", .map .number .double), ("Text", .map .text .string)]

/-- Node identifiers: their text in the parentheses of a wrapper. -/
def nodeId : Form NodeId where
  write id := inParentheses (writeString id.toText)
  read := .wrapped "NodeId" (.mapOption (fun s => NodeId.ofChars? s.toList) .string)

/-- Bindings. -/
def binding : Form Binding where
  write
    | .literal v => writeVariant "Literal" (value.write v)
    | .reference id => writeVariant "NodeRef" (nodeId.write id)
    | .unbound => "Unbound".toList
  read := .variants [("Unbound", .unbound)]
    [("Literal", .map .literal value.read), ("NodeRef", .map .reference nodeId.read)]

/-! ## Records -/

/-- Slots. -/
def slot : Form Slot where
  write s := writeRecord
    [("label", writeString s.label), ("value_type", slotType.write s.type),
      ("choices", writeOption (writeList value.write) s.choices)]
  read := .record "InputSlot"
    [.of "label" true .string fun s label => { s with label := label },
      .of "value_type" true slotType.read fun s type => { s with type := type },
      .of "choices" false (.option (.list value.read)) fun s choices =>
        { s with choices := choices }]
    ⟨"", .any, none⟩

/-- Node types. -/
def nodeType : Form NodeType where
  write t := writeRecord
    [("id", writeString t.id), ("kind", nodeKind.write t.kind), ("name", writeString t.name),
      ("category", nodeCategory.write t.category), ("description", writeString t.description),
      ("inputs", writeList slot.write t.inputs)]
  read := .record "NodeType"
    [.of "id" true .string fun t id => { t with id := id },
      .of "kind" true nodeKind.read fun t kind => { t with kind := kind },
      .of "name" true .string fun t name => { t with name := name },
      .of "category" true nodeCategory.read fun t category => { t with category := category },
      .of "description" true .string fun t description => { t with description := description },
      .of "inputs" true (.list slot.read) fun t inputs => { t with inputs := inputs }]
    ⟨"", .battery, "", .control, "", []⟩

/-- Wires. -/
def wire : Form Wire where
  write w := writeRecord
    [("from_node", nodeId.write w.source), ("to_node", nodeId.write w.target),
      ("to_input", writeNat w.input)]
  read := .record "Connection"
    [.of "from_node" true nodeId.read fun w id => { w with source := id },
      .of "to_node" true nodeId.read fun w id => { w with target := id },
      .of "to_input" true .index fun w index => { w with input := index }]
    ⟨.ofNat 0, .ofNat 0, 0⟩

end Patchbay.Ron
