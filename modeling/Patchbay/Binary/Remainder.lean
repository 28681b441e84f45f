import Patchbay.Binary.Number

/-!
# Remainder

The remainder of a division of two numbers whose quotient is cut off at the point. It has the sign
of the dividend and is exact: both numbers are multiples of the smaller of their last places, so
the remainder is one of two natural numbers.
-/

namespace Patchbay

/-- The remainder of two finite magnitudes, the second not zero. -/
def Binary.Format.remainder (f : Format) (a b : Nat) : Nat :=
  let (m, q) := f.parts a
  let (n, r) := f.parts b
  let e := min q r
  let rest := (m * Nat.pow 2 (q - e).toNat) % (n * Nat.pow 2 (r - e).toNat)
  if 0 ≤ e then f.round (rest * Nat.pow 2 e.toNat) 1 else f.round rest (Nat.pow 2 (-e).toNat)

namespace Double

/--
The remainder of `x / y` with the sign of `x`. There is none by zero or of an infinity, and an
infinite `y` leaves `x` as it is.
-/
def remainder (x y : Double) : Double :=
  if x.isNaN || y.isNaN || x.isInfinite || y.isZero then nan
  else if y.isInfinite then x
  else .ofParts x.isNegative (Binary.Format.double.remainder x.magnitude y.magnitude)

instance : Mod Double := ⟨remainder⟩

end Double

end Patchbay
