import Patchbay.Ron.Numeral
import Patchbay.Ron.Quoted

/-!
# Writing the object notation

The compact form, without white space: records list their fields by name in parentheses, variants
hold their content in parentheses, lists stand in square brackets.
-/

namespace Patchbay.Ron

/-- Pieces with commas between them. -/
def commaSeparated : List (List Char) → List Char
  | [] => []
  | [piece] => piece
  | piece :: pieces => piece ++ ',' :: commaSeparated pieces

/-- A truth value. -/
def writeBool (b : Bool) : List Char :=
  if b then "true".toList else "false".toList

/-- Something in parentheses. -/
def inParentheses (inner : List Char) : List Char :=
  '(' :: inner ++ [')']

/-- A variant and what it holds. -/
def writeVariant (name : String) (inner : List Char) : List Char :=
  name.toList ++ inParentheses inner

/-- Something that may be absent. -/
def writeOption {α : Type} (write : α → List Char) : Option α → List Char
  | none => "None".toList
  | some a => writeVariant "Some" (write a)

/-- A list. -/
def writeList {α : Type} (write : α → List Char) (as : List α) : List Char :=
  '[' :: commaSeparated (as.map write) ++ [']']

/-- A record, given its fields in order. -/
def writeRecord (fields : List (String × List Char)) : List Char :=
  inParentheses (commaSeparated (fields.map fun (name, value) => name.toList ++ ':' :: value))

end Patchbay.Ron
