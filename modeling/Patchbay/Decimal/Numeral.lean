import Patchbay.Binary.Number

/-!
# Numerals

The text of a number: an optional sign, then digits with an optional point and an optional power
of ten, or one of the words `inf`, `infinity` and `nan` in any letter case. `Numeral.ofChars?`
reads one, and `Numeral.toDouble` and `Numeral.toSingle` give the nearest number of the format, so
that a numeral out of range is an infinity and one that is too small is a zero of its sign.
-/

namespace Patchbay.Decimal

/-- What the text of a number says. -/
inductive Numeral where
  | nan (negative : Bool)
  | infinity (negative : Bool)
  /-- The number `digits · 10^exponent`. -/
  | finite (negative : Bool) (digits : Nat) (exponent : Int)
deriving DecidableEq, Repr

/-- The value of one digit. -/
def digitValue (c : Char) : Nat :=
  c.toNat - '0'.toNat

/-- The number that a row of digits spells. -/
def ofDigits (cs : List Char) : Nat :=
  cs.foldl (fun n c => 10 * n + digitValue c) 0

/-- How many digits a number has; zero has none. -/
def digitCount (n : Nat) : Nat :=
  if n = 0 then 0 else (Nat.toDigits 10 n).length

namespace Numeral

/-- Splits off a sign; the answer says whether it is a minus. -/
def splitSign : List Char → Bool × List Char
  | '+' :: r => (false, r)
  | '-' :: r => (true, r)
  | r => (false, r)

/-- Reads the power of ten that may end a numeral. -/
def exponent? : List Char → Option Int
  | [] => some 0
  | c :: r =>
    if c = 'e' ∨ c = 'E' then
      let (negative, ds) := splitSign r
      if ds.isEmpty || !ds.all Char.isDigit then none
      else some (if negative then -(ofDigits ds : Int) else ofDigits ds)
    else none

/-- The digits after the point, and what follows them. -/
def splitFraction : List Char → List Char × List Char
  | '.' :: r => (r.takeWhile Char.isDigit, r.dropWhile Char.isDigit)
  | r => ([], r)

/-- The words for infinity and for what is no number, in any letter case. -/
def special? (negative : Bool) (cs : List Char) : Option Numeral :=
  let word := String.ofList (cs.map Char.toLower)
  if word = "inf" ∨ word = "infinity" then some (.infinity negative)
  else if word = "nan" then some (.nan negative)
  else none

/-- Reads a numeral that takes up the whole text. -/
def ofChars? (cs : List Char) : Option Numeral :=
  let (negative, body) := splitSign cs
  let whole := body.takeWhile Char.isDigit
  let (fraction, rest) := splitFraction (body.dropWhile Char.isDigit)
  if whole.isEmpty && fraction.isEmpty then special? negative body
  else
    (exponent? rest).map fun e =>
      .finite negative (ofDigits (whole ++ fraction)) (e - fraction.length)

end Numeral

end Patchbay.Decimal

namespace Patchbay.Binary

/--
The magnitude nearest to `digits · 10^exponent`. No format here reaches beyond `10^±400`, so
further out the answer is known without the power of ten.
-/
def Format.ofDecimal (f : Format) (digits : Nat) (exponent : Int) : Nat :=
  let top := (Decimal.digitCount digits : Int) + exponent
  if digits = 0 || top < -400 then 0
  else if top > 400 then f.infinity
  else if 0 ≤ exponent then f.round (digits * Nat.pow 10 exponent.toNat) 1
  else f.round digits (Nat.pow 10 (-exponent).toNat)

end Patchbay.Binary

namespace Patchbay.Decimal.Numeral

/-- The magnitude of a numeral in a format. -/
def magnitude (f : Binary.Format) : Numeral → Nat
  | .nan _ => f.nan
  | .infinity _ => f.infinity
  | .finite _ d e => f.ofDecimal d e

/-- Whether a numeral has a minus. -/
def isNegative : Numeral → Bool
  | .nan negative | .infinity negative | .finite negative _ _ => negative

/-- The nearest number of eight bytes. -/
def toDouble (n : Numeral) : Double := .ofParts n.isNegative (n.magnitude .double)

/-- The nearest number of four bytes. -/
def toSingle (n : Numeral) : Single := .ofParts n.isNegative (n.magnitude .single)

end Patchbay.Decimal.Numeral

namespace Patchbay

instance : OfScientific Double where
  ofScientific digits negative exponent :=
    .ofParts false (Binary.Format.double.ofDecimal digits
      (if negative then -(exponent : Int) else exponent))

end Patchbay
