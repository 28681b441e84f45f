import Patchbay.Proofs.Binary.Rank
import Patchbay.Proofs.Geometry.Opposite

/-!
# Coordinates as values

A finite coordinate has a rational value, and what is below a sum of two is settled by the sum of
their values and is below all larger sums (`Coordinate.lt_add_mono`). A difference is exact if it is not rounded
(`Coordinate.ExactSub`). Sums of whole numbers are not rounded until they grow too large
(`Coordinate.value?_add_of_whole`). What is not finite stays so in a sum (`Coordinate.beyond_add`).
-/

open Float.Model (Format UnpackedFloat)
open Float.Model.UnpackedFloat

namespace Patchbay

open Binary

namespace Coordinate

/-- The value of a finite coordinate. -/
def value? (x : Float32) : Option ℚ := Machine.toRat? x.toModel.unpack

/-- The difference of two coordinates is not rounded, if both are finite. -/
def ExactSub (x y : Float32) : Prop :=
  ∀ a b, value? x = some a → value? y = some b → value? (x - y) = some (a - b)

/-! ## Sums -/

theorem unpack_add (x y : Float32) :
    (x + y).toModel.unpack = unpack .binary32
      (UnpackedFloat.pack .binary32
        (UnpackedFloat.add .binary32 x.toModel.unpack y.toModel.unpack)) := rfl

theorem inForm (x : Float32) : Machine.InForm .binary32 x.toModel.unpack :=
  @Machine.inForm_unpack .binary32 x.toModel.toBits.toBitVec

theorem eq_notANumber_or_isNumber (x : Float32) :
    x.toModel.unpack = .notANumber ∨ Machine.IsNumber .binary32 x.toModel.unpack :=
  or_iff_not_imp_left.mpr (@Machine.isNumber_unpack .binary32 (by decide) _)

variable {x y x' y' : Float32} {a b a' b' : ℚ}

theorem value?_neg (h : value? x = some a) : value? (-x) = some (-a) := by
  rw [value?, unpack_neg, Machine.toRat?_neg]
  exact congrArg (Option.map (- ·)) h

/-- Either zero is as good as the other in a comparison. -/
theorem compare_zero (u : UnpackedFloat) (s t : Sign) :
    u.compare (.zero s) = u.compare (.zero t) := by
  cases u with
  | notANumber | zero r => rfl
  | infinity r | finite r m e hm => cases r <;> rfl

/-- A sum compares as what the machine makes of the sum of the values. -/
theorem compare_add (hx : value? x = some a) (hy : value? y = some b) (u : UnpackedFloat) :
    u.compare (x + y).toModel.unpack =
      u.compare (unpack .binary32 (UnpackedFloat.pack .binary32
        (Machine.ofRat .binary32 (a + b)))) := by
  rw [unpack_add]
  rcases Machine.add_eq_ofRat (inForm x) (inForm y) hx hy with hsum | ⟨hzero, s, hsum⟩
  · rw [hsum]
  · rw [hsum, hzero, Machine.ofRat_zero]
    change u.compare (unpack .binary32 (packedZero .binary32 s)) =
      u.compare (unpack .binary32 (packedZero .binary32 .positive))
    rw [unpack_packedZero, unpack_packedZero]
    exact compare_zero u s .positive

/-- What is below a sum is below all sums of larger values. -/
theorem lt_add_mono (hx : value? x = some a) (hy : value? y = some b) (hx' : value? x' = some a')
    (hy' : value? y' = some b') (h : a + b ≤ a' + b') {z : Float32} (hz : z < x + y) :
    z < x' + y' := by
  rw [lt_iff, compare_add hx hy] at hz
  rw [lt_iff, compare_add hx' hy']
  exact Machine.compare_ofRat_mono (by decide) h (eq_notANumber_or_isNumber z) hz

/-! ## Whole numbers -/

/-- A sum of whole numbers is not rounded if it has no more than the bits of a mantissa. -/
theorem value?_add_of_whole {i j : Int} (hx : value? x = some (i : ℚ))
    (hy : value? y = some (j : ℚ)) (hsum : (i + j).natAbs < 2 ^ 24) :
    value? (x + y) = some ((i + j : Int) : ℚ) := by
  have hkept : Machine.toRat? (unpack .binary32 (UnpackedFloat.pack .binary32
      (Machine.ofRat .binary32 ((i + j : Int) * 2 ^ (0 : Int))))) =
        some ((i + j : Int) * 2 ^ (0 : Int) : ℚ) :=
    Machine.toRat?_unpack_pack_ofRat hsum (by decide) (by decide)
  rw [zpow_zero, mul_one, Int.cast_add] at hkept
  rw [value?, unpack_add, Int.cast_add]
  rcases Machine.add_eq_ofRat (inForm x) (inForm y) hx hy with hround | ⟨hzero, s, hround⟩
  · rw [hround, hkept]
  · rw [hround, hzero]
    exact congrArg Machine.toRat? unpack_packedZero

/-- A difference of whole numbers is exact if it has no more than the bits of a mantissa. -/
theorem exactSub_of_whole {i j : Int} (hx : value? x = some (i : ℚ)) (hy : value? y = some (j : ℚ))
    (hdiff : (i - j).natAbs < 2 ^ 24) : ExactSub x y := by
  intro a b ha hb
  obtain rfl := Option.some.inj (hx.symm.trans ha)
  obtain rfl := Option.some.inj (hy.symm.trans hb)
  have hneg : value? (-y) = some ((-j : Int) : ℚ) := by
    rw [Int.cast_neg]
    exact value?_neg hy
  rw [sub_eq_add_neg, value?_add_of_whole hx hneg hdiff, Int.cast_add, Int.cast_neg,
    Rat.sub_eq_add_neg]

/-! ## What is not finite -/

/-- No number, or the infinity of a sign. -/
def Beyond (s : Sign) (x : Float32) : Prop :=
  x.toModel.unpack = .infinity s ∨ x.toModel.unpack = .notANumber

theorem exists_value? (h : ∀ s, ¬Beyond s x) : ∃ a, value? x = some a := by
  unfold value?
  cases hx : x.toModel.unpack with
  | notANumber => exact absurd (.inr hx) (h .positive)
  | infinity s => exact absurd (.inl hx) (h s)
  | zero s | finite s m e hm => exact ⟨_, rfl⟩

theorem not_beyond_of_value? (h : value? x = some a) (s : Sign) : ¬Beyond s x := by
  unfold value? at h
  rintro (hx | hx) <;> rw [hx] at h <;> cases h

theorem Beyond.neg {s : Sign} (h : Beyond s x) : Beyond (-s) (-x) := by
  rw [Beyond, unpack_neg]
  rcases h with h | h
  · exact .inl (by rw [h]; rfl)
  · exact .inr (by rw [h]; rfl)

/-- What is not finite stays so in a sum. -/
theorem beyond_add {s : Sign} (h : Beyond s x ∨ Beyond s y) : Beyond s (x + y) := by
  have hsum : UnpackedFloat.add .binary32 x.toModel.unpack y.toModel.unpack = .infinity s ∨
      UnpackedFloat.add .binary32 x.toModel.unpack y.toModel.unpack = .notANumber := by
    rcases h with (h | h) | (h | h) <;> rw [h]
    · exact Machine.infinity_add s _
    · exact .inr rfl
    · exact Machine.add_infinity _ s
    · exact .inr (Machine.add_notANumber _)
  rw [Beyond, unpack_add]
  rcases hsum with hsum | hsum <;> rw [hsum]
  · exact .inl (Machine.unpack_pack_infinity s)
  · exact .inr unpack_packedNaN

theorem not_beyond_positive (h : x < y) : ¬Beyond .positive x := by
  rw [lt_iff] at h
  rintro (hx | hx) <;> rw [hx] at h
  · exact Machine.infinity_compare _ h
  · cases h

theorem not_beyond_negative (h : x < y) : ¬Beyond .negative y := by
  rw [lt_iff] at h
  rintro (hy | hy) <;> rw [hy] at h
  · exact Machine.compare_infinity _ h
  · exact Machine.compare_notANumber _ h

end Coordinate

end Patchbay
