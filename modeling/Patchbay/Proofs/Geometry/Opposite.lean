import Patchbay.Geometry
import Patchbay.Proofs.Binary.Packing

/-!
# Opposite coordinates

A coordinate and its opposite differ in their sign alone, whatever they are: both are zero or
neither is (`Offset.isZero_neg`), and to take one away is to add the other
(`Coordinate.sub_eq_add_neg`). Of two coordinates, each is below the other in at most one order
(`Coordinate.not_lt_of_lt`).
-/

open Float.Model (Format UnpackedFloat)
open Float.Model.UnpackedFloat

namespace Patchbay

namespace Coordinate

/-! ## Opposites -/

theorem neg_unpack (b : BitVec Format.binary32.numBits) :
    (unpack .binary32 b).neg = unpack .binary32 (packComponents .binary32
      (-Sign.ofBitVec (unpackSign b)) (unpackExponent b) (unpackMantissa b)) := by
  simp only [unpack, unpackSign_packComponents, unpackExponent_packComponents,
    unpackMantissa_packComponents, Sign.ofBitVec_toBitVec]
  split
  · split <;> rfl
  · split
    · split <;> rfl
    · rfl

theorem unpack_neg (x : Float32) : (-x).toModel.unpack = x.toModel.unpack.neg := by
  have hneg := neg_unpack x.toModel.toBits.toBitVec
  change unpack .binary32 (pack .binary32 (unpack .binary32 _).neg) = (unpack .binary32 _).neg
  rw [hneg, Binary.Machine.unpack_pack_unpack _ (by decide)]

theorem neg_beq_zero (x : Float32) : (-x == 0) = (x == 0) := by
  change ((-x).toModel.unpack.compare (.zero .positive) == some .eq) =
    (x.toModel.unpack.compare (.zero .positive) == some .eq)
  rw [unpack_neg]
  cases x.toModel.unpack with
  | notANumber | zero s => rfl
  | infinity s | finite s m e hm => cases s <;> rfl

theorem sub_eq_add_neg (x y : Float32) : x - y = x + -y := by
  change Float32.ofModel (.pack (UnpackedFloat.sub .binary32 _ _)) =
    .ofModel (.pack (UnpackedFloat.add .binary32 _ _))
  rw [Binary.Machine.sub_eq_add, unpack_neg]

/-! ## Order -/

theorem compare_swap (a b : UnpackedFloat) :
    b.compare a = (a.compare b).map Ordering.swap := by
  cases a with
  | notANumber => cases b <;> rfl
  | infinity s =>
    cases b with
    | notANumber | zero t => cases s <;> rfl
    | infinity t | finite t k f hk => cases s <;> cases t <;> rfl
  | zero s =>
    cases b with
    | notANumber | zero t => rfl
    | infinity t | finite t k f hk => cases t <;> rfl
  | finite s m e hm =>
    cases b with
    | notANumber | zero t => cases s <;> rfl
    | infinity t => cases s <;> cases t <;> rfl
    | finite t k f hk =>
      have hexponent : compare f e = (compare e f).swap := Std.OrientedCmp.eq_swap
      have hmantissa : compare k m = (compare m k).swap := Std.OrientedCmp.eq_swap
      cases s <;> cases t <;>
        simp only [UnpackedFloat.compare, hexponent, hmantissa, Ordering.swap_then,
          Option.map_some, Ordering.swap_swap] <;> rfl

theorem lt_iff (x y : Float32) :
    x < y ↔ x.toModel.unpack.compare y.toModel.unpack = some .lt := by
  change (decide _ = true) ↔ _
  rw [decide_eq_true_iff]
  change (_ == _) = true ↔ _
  rw [beq_iff_eq]

theorem not_lt_of_lt {x y : Float32} (h : x < y) : ¬ y < x := by
  rw [lt_iff] at h
  rw [lt_iff, compare_swap, h]
  exact fun hlt => nomatch hlt

end Coordinate

namespace Offset

theorem add_neg_eq (a b : Offset) : a + -b = ⟨a.x - b.x, a.y - b.y⟩ := by
  change Offset.mk (a.x + -b.x) (a.y + -b.y) = _
  rw [← Coordinate.sub_eq_add_neg, ← Coordinate.sub_eq_add_neg]

@[simp] theorem isZero_neg (a : Offset) : (-a).isZero = a.isZero := by
  change (-a.x == 0 && -a.y == 0) = (a.x == 0 && a.y == 0)
  rw [Coordinate.neg_beq_zero, Coordinate.neg_beq_zero]

end Offset

end Patchbay
