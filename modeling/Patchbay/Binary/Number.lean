import Patchbay.Binary.Format

/-!
# Floating-point numbers

Numbers of eight and of four bytes, given by their bits: a sign and a magnitude. The bits tell
apart what arithmetic does not, the two zeros and the signs that go with no number. Comparison is
by `Double.rank`, the magnitude with its sign, in which the two zeros are one; what is no number has
no place in the order and differs even from itself. Sums, products and quotients are those of the
machine.
-/

namespace Patchbay

open Binary

/-- A number of eight bytes. -/
structure Double where
  /-- The bits: the sign above the magnitude. -/
  bits : UInt64
deriving DecidableEq, Inhabited, Repr

namespace Double

/-- The sign bit, which is also the number of magnitudes. -/
def signBit : Nat := 0x8000000000000000

/-- The number of a sign and a magnitude. -/
def ofParts (negative : Bool) (magnitude : Nat) : Double :=
  ⟨UInt64.ofNat ((if negative then signBit else 0) + magnitude)⟩

/-- Whether the sign bit is set. -/
def isNegative (x : Double) : Bool := signBit ≤ x.bits.toNat

/-- The bits without the sign. -/
def magnitude (x : Double) : Nat := x.bits.toNat % signBit

/-- Whether it is no number. -/
def isNaN (x : Double) : Bool := Format.double.infinity < x.magnitude

/-- Whether it is an infinity. -/
def isInfinite (x : Double) : Bool := x.magnitude = Format.double.infinity

/-- No number. -/
def nan : Double := ofParts false Format.double.nan

/-- The nearest number to a natural number. -/
def ofNat (n : Nat) : Double := ofParts false (Format.double.round n 1)

/-! ## Comparison -/

/-- The place of a number in the order. -/
def rank (x : Double) : Int :=
  if x.isNegative then -(x.magnitude : Int) else x.magnitude

/-- Equality of numbers. -/
def equal (x y : Double) : Bool :=
  !x.isNaN && !y.isNaN && x.rank == y.rank

/-- How two numbers compare; nothing compares with what is no number. -/
def order? (x y : Double) : Option Ordering :=
  if x.isNaN || y.isNaN then none else some (compare x.rank y.rank)

/-- Whether it is one of the two zeros. -/
def isZero (x : Double) : Bool := x.rank == 0

/-! ## Arithmetic -/

/-- The number as the machine takes it. -/
def toFloat (x : Double) : Float := Float.ofBits x.bits

/-- The number that the machine gives. -/
def ofFloat (x : Float) : Double := ⟨x.toBits⟩

/-- A power. -/
def pow (x y : Double) : Double := .ofFloat (Float.pow x.toFloat y.toFloat)

instance : Add Double := ⟨fun x y => .ofFloat (x.toFloat + y.toFloat)⟩
instance : Sub Double := ⟨fun x y => .ofFloat (x.toFloat - y.toFloat)⟩
instance : Mul Double := ⟨fun x y => .ofFloat (x.toFloat * y.toFloat)⟩
instance : Div Double := ⟨fun x y => .ofFloat (x.toFloat / y.toFloat)⟩
instance (n : Nat) : OfNat Double n := ⟨.ofNat n⟩

end Double

/-- A number of four bytes. -/
structure Single where
  /-- The bits: the sign above the magnitude. -/
  bits : UInt32
deriving DecidableEq, Inhabited, Repr

namespace Single

/-- The sign bit, which is also the number of magnitudes. -/
def signBit : Nat := 0x80000000

/-- The number of a sign and a magnitude. -/
def ofParts (negative : Bool) (magnitude : Nat) : Single :=
  ⟨UInt32.ofNat ((if negative then signBit else 0) + magnitude)⟩

/-- Whether the sign bit is set. -/
def isNegative (x : Single) : Bool := signBit ≤ x.bits.toNat

/-- The bits without the sign. -/
def magnitude (x : Single) : Nat := x.bits.toNat % signBit

/-- Whether it is no number. -/
def isNaN (x : Single) : Bool := Format.single.infinity < x.magnitude

/-- The nearest number to a natural number. -/
def ofNat (n : Nat) : Single := ofParts false (Format.single.round n 1)

/-- The number as the machine takes it. -/
def toFloat32 (x : Single) : Float32 := Float32.ofBits x.bits

instance (n : Nat) : OfNat Single n := ⟨.ofNat n⟩

end Single

/-- The nearest number of four bytes, of the same sign. -/
def Double.toSingle (x : Double) : Single :=
  .ofParts x.isNegative (Format.double.convert .single x.magnitude)

end Patchbay
