import Patchbay.Value.Basic
import Patchbay.Binary.Remainder

/-!
# Arithmetic on numbers

The six operators of a calculator. An operator it does not know gives zero.
-/

namespace Patchbay.Value

/-- The operators of a calculator, in the order they are offered. -/
def calculatorOperators : List String := ["+", "-", "/", "*", "^", "%"]

/-- The result of an operator on two numbers. -/
def calculate (operator : Value) (a b : Double) : Double :=
  match operator with
  | text "+" => a + b
  | text "-" => a - b
  | text "/" => a / b
  | text "*" => a * b
  | text "^" => a.pow b
  | text "%" => a % b
  | _ => 0

end Patchbay.Value
