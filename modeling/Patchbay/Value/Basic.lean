import Patchbay.Binary.Number

/-!
# Values

What flows along a wire: nothing yet, a truth value, a number or a text. Two notions of sameness
are kept apart. Lean's `=` is identity of the bits, where what is no number is itself; `Value.equal`
compares numbers as numbers, so that it tells no number from itself but not `0` from `-0`. A
change of output is reported, and a comparison answered, by `Value.equal`.
-/

namespace Patchbay

/-- A value on an output, or a constant bound to an input. -/
inductive Value where
  /-- No value yet. -/
  | unset
  | bool (b : Bool)
  | number (x : Double)
  | text (s : String)
deriving DecidableEq, Inhabited

namespace Value

/-- Equality of values of one sort, numbers compared as numbers. -/
def equal : Value → Value → Bool
  | unset, unset => true
  | bool a, bool b => a == b
  | number x, number y => x.equal y
  | text s, text t => s == t
  | _, _ => false

/-- Equality of lists of values, place by place. -/
def equalAll : List Value → List Value → Bool
  | [], [] => true
  | a :: as, b :: bs => equal a b && equalAll as bs
  | _, _ => false

/-- Whether the value counts as on: not unset, false, zero, empty or no number. -/
def isTruthy : Value → Bool
  | unset => false
  | bool b => b
  | number x => !x.isZero && !x.isNaN
  | text s => !s.isEmpty

/-- Whether the value is the truth value true; nothing else is taken for it. -/
def isTrue : Value → Bool
  | bool b => b
  | _ => false

/-- Whether the value is unset. -/
def isUnset : Value → Bool
  | unset => true
  | _ => false

/-- The text of a text value. -/
def asText? : Value → Option String
  | text s => some s
  | _ => none

end Value

end Patchbay
