import Patchbay.Proofs.Binary.Accuracy

/-!
# Magnitudes of unpacked numbers

An unpacked number of eight bytes has the magnitude that its bits will have. What the machine makes
of a mantissa and an exponent has the magnitude that `Format.rounded` gives (`nearest_normalize`).
-/

open Float.Model (UnpackedFloat)
open Float.Model.UnpackedFloat

namespace Patchbay.Binary.Machine

/-! ## Rounding an unpacked number -/

/-- The form in which the machine keeps a finite number of eight bytes. -/
def Canonical : UnpackedFloat → Prop
  | .finite _ m e _ => m < 2 ^ 53 ∧ Format.double.minExponent ≤ e ∧
      (2 ^ 52 ≤ m ∨ e = Format.double.minExponent)
  | _ => True

/-- The magnitude of an unpacked number. -/
def magnitude : UnpackedFloat → Nat
  | .notANumber => Format.double.nan
  | .infinity _ => Format.double.infinity
  | .zero _ => 0
  | .finite _ m e _ =>
    min ((e - Format.double.minExponent).toNat * 2 ^ 52 + m) Format.double.infinity

theorem magnitude_finite (s : Sign) (m : Nat) (e : Int) (hm : 0 < m) :
    magnitude (.finite s m e hm) =
      min ((e - Format.double.minExponent).toNat * 2 ^ 52 + m) Format.double.infinity := rfl

theorem canonical_of_inForm {u : UnpackedFloat} (h : InForm .binary64 u) : Canonical u := by
  cases u with
  | notANumber | infinity s | zero s => trivial
  | finite s m e hm => exact inForm_finite_iff.mp h

theorem magnitude_eq_min {u : UnpackedFloat} (h : u ≠ .notANumber) :
    magnitude u = min (distance .binary64 u) Format.double.infinity := by
  cases u with
  | notANumber => exact absurd rfl h
  | infinity s => exact (min_self _).symm
  | zero s => exact (Nat.zero_min _).symm
  | finite s m e hm => rfl

/-- What the machine rounds is in its form, has the sign given, and is the nearest magnitude. -/
theorem round_spec (s : Sign) {m : Nat} (hm : 0 < m) (e : Int) :
    let u := UnpackedFloat.round .binary64 s m e
    Canonical u ∧ isNegative u = (s == .negative) ∧
      magnitude u = Format.double.rounded (m * 2 ^ e) := by
  intro u
  have hr : (0 : ℚ) < m * 2 ^ e := by positivity
  have hu : u = roundedTo .binary64 s (m * 2 ^ e) := round_eq_roundedTo s hm e
  obtain ⟨n, hn, h⟩ := @exists_settles_roundedTo .binary64 s _ hr
  rw [hu, magnitude_eq_min h.ne_notANumber, h.distance_eq]
  exact ⟨canonical_of_inForm h.inForm, h.isNegative_eq, hn⟩

/-! ## Signed numbers -/

/-- The place in the order of the number nearest to a rational number. -/
def nearestRank (q : ℚ) : Int :=
  if q < 0 then -(Format.double.rounded (-q) : Int) else Format.double.rounded q

/-- The place of an unpacked number in the order. -/
def rank (u : UnpackedFloat) : Int := if isNegative u then -(magnitude u : Int) else magnitude u

theorem nearestRank_value {m : Nat} (h : m < Format.double.infinity) :
    nearestRank (Format.double.value m) = m := by
  rw [nearestRank, if_neg (Format.double.value_nonneg m).not_gt, Format.double.rounded_value h]

theorem nearestRank_mono {q q' : ℚ} (h : q ≤ q') : nearestRank q ≤ nearestRank q' :=
  Format.double.nearestRank_mono h

/-- A number rounded to nearest, with its sign. -/
structure Nearest (u : UnpackedFloat) (q : ℚ) : Prop where
  canonical : Canonical u
  /-- It is a number, finite or not. -/
  magnitude_le : magnitude u ≤ Format.double.infinity
  rank_eq : rank u = nearestRank q

theorem nearest_round (s : Sign) {m : Nat} (hm : 0 < m) (e : Int) :
    Nearest (UnpackedFloat.round .binary64 s m e) ((s.apply m : Int) * 2 ^ e) := by
  have hr : (0 : ℚ) < m * 2 ^ e := by positivity
  obtain ⟨hform, hsign, hmagnitude⟩ := round_spec s hm e
  refine ⟨hform, hmagnitude ▸ Format.double.rounded_le_infinity _, ?_⟩
  rw [rank, hsign, hmagnitude, nearestRank]
  cases s with
  | positive =>
    rw [Sign.apply, Int.cast_natCast, if_neg hr.not_gt]
    rfl
  | negative =>
    rw [Sign.apply, Int.cast_neg, Int.cast_natCast, neg_mul, if_pos (neg_lt_zero.mpr hr), neg_neg]
    rfl

theorem nearest_normalize (k e : Int) (s : Sign) :
    Nearest (UnpackedFloat.normalize .binary64 k e s) (k * 2 ^ e) := by
  unfold UnpackedFloat.normalize
  rcases lt_trichotomy k 0 with hneg | rfl | hpos
  · rw [Int.compare_eq_lt.mpr hneg]
    have hk : Sign.negative.apply ((-k).toNat : Int) = k := by
      rw [Sign.apply]
      omega
    have hround := nearest_round .negative (show 0 < (-k).toNat by omega) e
    rwa [hk] at hround
  · refine ⟨trivial, Nat.zero_le _, ?_⟩
    rw [Int.cast_zero, zero_mul]
    cases s <;> rfl
  · rw [Int.compare_eq_gt.mpr hpos]
    have hk : Sign.positive.apply (k.toNat : Int) = k := by
      rw [Sign.apply]
      omega
    have hround := nearest_round .positive (show 0 < k.toNat by omega) e
    rwa [hk] at hround

end Patchbay.Binary.Machine
