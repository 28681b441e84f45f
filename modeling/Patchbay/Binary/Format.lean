/-!
# Binary floating-point formats

A finite number of a binary format is a sign and a *magnitude*: the stored exponent and fraction
bits read as one natural number. Magnitudes count the non-negative numbers of the format in
increasing order, so rounding a positive ratio means finding a magnitude, and a carry out of the
significand moves to the next exponent by itself. `Format.round` rounds an exact ratio to the
nearest magnitude, a tie going to the even one; `Format.parts` and `Format.ratio` are the exact
value of a magnitude.
-/

namespace Patchbay.Binary

/-- A format with an implicit leading significand bit. -/
structure Format where
  fractionBits : Nat
  exponentBits : Nat
deriving DecidableEq, Repr

namespace Format

/-- Eight bytes: 52 stored significand bits and 11 exponent bits. -/
def double : Format := ⟨52, 11⟩

/-- Four bytes: 23 stored significand bits and 8 exponent bits. -/
def single : Format := ⟨23, 8⟩

/-- The exponent of the last place of the smallest numbers. -/
def minExponent (f : Format) : Int :=
  2 - (Nat.pow 2 (f.exponentBits - 1) : Nat) - f.fractionBits

/-- The magnitude that stands for infinity; every larger one is no number. -/
def infinity (f : Format) : Nat :=
  (Nat.pow 2 f.exponentBits - 1) * Nat.pow 2 f.fractionBits

/-- A magnitude beyond infinity, which stands for no number. -/
def nan (f : Format) : Nat :=
  f.infinity + Nat.pow 2 (f.fractionBits - 1)

/-- A finite magnitude as `(m, q)`, which stands for `m · 2^q`. -/
def parts (f : Format) (magnitude : Nat) : Nat × Int :=
  let unit := Nat.pow 2 f.fractionBits
  if magnitude < unit then
    (magnitude, f.minExponent)
  else
    (unit + magnitude % unit, f.minExponent + (magnitude / unit - 1 : Nat))

/-- The terms of the exact value of a finite magnitude. -/
def ratio (f : Format) (magnitude : Nat) : Nat × Nat :=
  let (m, q) := f.parts magnitude
  if 0 ≤ q then (m * Nat.pow 2 q.toNat, 1) else (m, Nat.pow 2 (-q).toNat)

end Format

/-- The quotient rounded to the nearest natural number, a half going to the even neighbour. -/
def divNearest (num den : Nat) : Nat :=
  let q := num / den
  match compare (2 * (num % den)) den with
  | .lt => q
  | .eq => q + q % 2
  | .gt => q + 1

/-- The two terms of `num / den / 2^e`. -/
def scaleRatio (num den : Nat) (e : Int) : Nat × Nat :=
  if 0 ≤ e then (num, den * Nat.pow 2 e.toNat) else (num * Nat.pow 2 (-e).toNat, den)

namespace Format

/--
The exponent of the last place for `num / den`: the one that leaves exactly one bit more than the
stored significand, unless the number is too small for that.
-/
def lastPlace (f : Format) (num den : Nat) : Int :=
  let guess : Int := num.log2 - den.log2 - 1 - f.fractionBits
  let (n, d) := scaleRatio num den guess
  let fine := if n / d < Nat.pow 2 (f.fractionBits + 1) then guess else guess + 1
  max fine f.minExponent

/-- The magnitude nearest to `num / den`, a tie going to the even one; infinity if out of range. -/
def round (f : Format) (num den : Nat) : Nat :=
  if num = 0 then 0
  else
    let e := f.lastPlace num den
    let (n, d) := scaleRatio num den e
    min ((e - f.minExponent).toNat * Nat.pow 2 f.fractionBits + divNearest n d) f.infinity

/-- The nearest magnitude of another format; what is no number stays so. -/
def convert (f g : Format) (magnitude : Nat) : Nat :=
  if f.infinity < magnitude then g.nan
  else if magnitude = f.infinity then g.infinity
  else
    let (num, den) := f.ratio magnitude
    g.round num den

end Format

end Patchbay.Binary
