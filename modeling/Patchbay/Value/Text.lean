import Patchbay.Value.Basic
import Patchbay.Decimal.Shortest
import Patchbay.Text.Blank

/-!
# Values as text and as numbers

`Value.display` is the text shown for a value and written by logging nodes; numbers are shown by
their shortest decimal, without an exponent. `Value.toNumber` is the number that arithmetic takes
for a value; a text counts as the numeral it holds.
-/

namespace Patchbay

namespace Number

/-- The text of a number. -/
def display (x : Double) : String :=
  if x.isNaN then "NaN"
  else
    let sign := if x.isNegative then ['-'] else []
    if x.isInfinite then String.ofList (sign ++ "Infinity".toList)
    else String.ofList (sign ++ Decimal.text .double x.magnitude)

/-- The number that a text spells, blanks at its ends aside; no number if it spells none. -/
def ofText (s : String) : Double :=
  match Decimal.Numeral.ofChars? (Text.trim s.toList) with
  | some n => n.toDouble
  | none => .nan

end Number

namespace Value

/-- The text shown for a value. -/
def display : Value → String
  | unset => "unset"
  | bool b => if b then "true" else "false"
  | number x => Number.display x
  | text s => s

/-- The number that arithmetic takes for a value; a blank text counts as zero. -/
def toNumber : Value → Double
  | unset => .nan
  | bool b => if b then 1 else 0
  | number x => x
  | text s => if (Text.trim s.toList).isEmpty then 0 else Number.ofText s

end Value

end Patchbay
