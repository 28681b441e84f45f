import Patchbay.Decimal.Numeral

/-!
# Shortest decimals

The text of a binary number is the decimal with the fewest digits that reads back as it, and the
nearest of those if there are several. Powers of ten are tried from the coarsest down: on the grid
of multiples of `10^x` only the two neighbours of the number can read back if any point does.
`Format.shortest` gives the digits and the power of ten, and `positional` writes them out without
an exponent.
-/

namespace Patchbay.Decimal

open Binary

/--
The multiple of `10^x` next to `num / den` that reads back as `magnitude`; of two the nearer one,
and the upper one at equal distance.
-/
def neighbour? (f : Format) (magnitude num den : Nat) (x : Int) : Option Nat :=
  let (n, d) :=
    if 0 ≤ x then (num, den * Nat.pow 10 x.toNat) else (num * Nat.pow 10 (-x).toNat, den)
  let below := n / d
  let above := below + 1
  match f.ofDecimal below x == magnitude, f.ofDecimal above x == magnitude with
  | true, true => if 2 * (n % d) < d then some below else some above
  | true, false => some below
  | false, true => some above
  | false, false => none

/-- The first hit on the grids `10^x`, `10^(x-1)`, … , the exact decimal if there is none. -/
def coarsest (f : Format) (magnitude num den : Nat) : Nat → Int → Nat × Int
  | 0, x => (num * Nat.pow 10 (-x).toNat / den, x)
  | steps + 1, x =>
    match neighbour? f magnitude num den x with
    | some d => (d, x)
    | none => coarsest f magnitude num den steps (x - 1)

/--
The digits and the power of ten of the shortest decimal that reads back as `magnitude`. The first
grid is coarser than the number, so its only candidate is one; hence no hit ends in a zero, which
would have been a hit one grid earlier.
-/
def shortest (f : Format) (magnitude : Nat) : Nat × Int :=
  let (num, den) := f.ratio magnitude
  let top : Int := (Nat.toDigits 10 num).length - (Nat.toDigits 10 den).length + 1
  let bottom : Int := min (f.parts magnitude).2 0
  coarsest f magnitude num den (top - bottom).toNat top

/-- The decimal `digits · 10^exponent` written out, with at least one digit before the point. -/
def positional (digits : Nat) (exponent : Int) : List Char :=
  if 0 ≤ exponent then
    Nat.toDigits 10 (digits * Nat.pow 10 exponent.toNat)
  else
    let places := (-exponent).toNat
    let fraction := Nat.toDigits 10 (digits % Nat.pow 10 places)
    Nat.toDigits 10 (digits / Nat.pow 10 places) ++
      '.' :: List.replicate (places - fraction.length) '0' ++ fraction

/-- The shortest text of a finite magnitude. -/
def text (f : Format) (magnitude : Nat) : List Char :=
  if magnitude = 0 then ['0']
  else
    let (d, x) := shortest f magnitude
    positional d x

end Patchbay.Decimal
