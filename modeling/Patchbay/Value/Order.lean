import Patchbay.Value.Basic

/-!
# Comparing values

Numbers, texts and truth values are ordered among themselves: numbers as numbers, texts by code
point from the front, false before true. Values of different sorts, unset values and what is no
number are not ordered. `Value.comparison` answers the three comparison operators.
-/

namespace Patchbay.Value

/-- How two values compare, if they do. -/
def order? : Value → Value → Option Ordering
  | number x, number y => x.order? y
  | text s, text t => some (compareOfLessAndEq s t)
  | bool a, bool b => some (compare a b)
  | _, _ => none

/-- The operators of a comparison, in the order they are offered. -/
def comparisonOperators : List String := ["<", ">", "="]

/-- The answer of a comparison; an operator it does not know answers false. -/
def comparison (operator a b : Value) : Bool :=
  match operator with
  | text "<" => order? a b == some .lt
  | text ">" => order? a b == some .gt
  | text "=" => equal a b
  | _ => false

end Patchbay.Value
