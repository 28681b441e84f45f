import Patchbay.Binary.Remainder
import Patchbay.Proofs.Binary.Nearest

/-!
# The remainder is exact

The remainder of two numbers that a format holds is a multiple of the smaller of their places, with
no more bits than a significand has, so that the format holds it. Hence it is below the divisor
(`Format.remainder_lt`), which rounding alone would not give.
-/

namespace Patchbay

namespace Binary.Format

variable (f : Format)

/-- The smaller of the last places of two magnitudes. -/
def commonPlace (a b : Nat) : Int := min (f.parts a).2 (f.parts b).2

/-- How many of a place a magnitude is, if the place is not above its own. -/
def multiple (a : Nat) (e : Int) : Nat := (f.parts a).1 * 2 ^ ((f.parts a).2 - e).toNat

theorem value_eq_multiple {a : Nat} {e : Int} (he : e ≤ (f.parts a).2) :
    f.value a = f.multiple a e * 2 ^ e := by
  rw [value, multiple, Nat.cast_mul, Nat.cast_pow, Nat.cast_ofNat, ← zpow_natCast,
    Int.toNat_of_nonneg (by omega), mul_assoc, ← zpow_add₀ (by norm_num), sub_add_cancel]

/-- What is left of the dividend, in units of the common place. -/
def rest (a b : Nat) : Nat :=
  f.multiple a (f.commonPlace a b) % f.multiple b (f.commonPlace a b)

theorem remainder_eq_rounded (a b : Nat) :
    f.remainder a b = f.rounded (f.rest a b * 2 ^ f.commonPlace a b) := by
  have hfold : f.remainder a b = if 0 ≤ f.commonPlace a b then
        f.round (f.rest a b * Nat.pow 2 (f.commonPlace a b).toNat) 1
      else f.round (f.rest a b) (Nat.pow 2 (-f.commonPlace a b).toNat) := rfl
  rw [hfold]
  generalize f.commonPlace a b = e
  by_cases he : 0 ≤ e
  · obtain ⟨n, rfl⟩ := Int.eq_ofNat_of_zero_le he
    rw [if_pos he, f.round_eq_rounded _ one_ne_zero]
    push_cast [Nat.pow_eq, Int.toNat_natCast]
    rw [div_one, zpow_natCast]
  · obtain ⟨n, rfl⟩ := Int.exists_eq_neg_ofNat (show e ≤ 0 by omega)
    rw [if_neg he, Nat.pow_eq, f.round_eq_rounded _ (Nat.two_pow_pos _).ne']
    push_cast [neg_neg, Int.toNat_natCast]
    rw [zpow_neg, zpow_natCast, div_eq_mul_inv]

theorem rest_le (a b : Nat) : (f.rest a b : ℚ) * 2 ^ f.commonPlace a b ≤ f.value a := by
  have hle : (f.rest a b : ℚ) ≤ f.multiple a (f.commonPlace a b) := by
    exact_mod_cast Nat.mod_le _ _
  rw [f.value_eq_multiple (min_le_left _ _ : f.commonPlace a b ≤ _)]
  exact mul_le_mul_of_nonneg_right hle (two_zpow_pos _).le

theorem rest_lt {b : Nat} (hb : b ≠ 0) (a : Nat) :
    (f.rest a b : ℚ) * 2 ^ f.commonPlace a b < f.value b := by
  have hvalue := f.value_eq_multiple (min_le_right _ _ : f.commonPlace a b ≤ (f.parts b).2)
  have hpos := f.value_pos hb
  rw [hvalue] at hpos ⊢
  have hdivisor : 0 < f.multiple b (f.commonPlace a b) := by
    exact_mod_cast pos_of_mul_pos_left hpos (two_zpow_pos _).le
  have hlt : (f.rest a b : ℚ) < f.multiple b (f.commonPlace a b) := by
    exact_mod_cast Nat.mod_lt _ hdivisor
  exact mul_lt_mul_of_pos_right hlt (two_zpow_pos _)

theorem multiple_self (a : Nat) : f.multiple a (f.parts a).2 = (f.parts a).1 := by
  simp [multiple]

/-- The common place is the place of one of the two, which bounds what is left. -/
theorem rest_lt_unit {b : Nat} (hb : b ≠ 0) (a : Nat) :
    f.rest a b < 2 ^ (f.fractionBits + 1) := by
  unfold rest
  rcases min_choice (f.parts a).2 (f.parts b).2 with hplace | hplace
  · rw [commonPlace, hplace, multiple_self]
    exact (Nat.mod_le _ _).trans_lt (f.significand_lt a)
  · rw [commonPlace, hplace, f.multiple_self b]
    exact (Nat.mod_lt _ (f.significand_pos hb)).trans (f.significand_lt b)

theorem remainder_lt {a b : Nat} (hb : b < f.infinity) (hpos : b ≠ 0) : f.remainder a b < b := by
  have hlt := f.rest_lt hpos a
  have hrest : (0 : ℚ) ≤ f.rest a b * 2 ^ f.commonPlace a b := by positivity
  have hle := f.rounded_mono hrest hlt.le
  rw [f.rounded_value hb] at hle
  have hplace : f.minExponent ≤ f.commonPlace a b :=
    le_min (f.minExponent_le_parts a) (f.minExponent_le_parts b)
  -- what is left is held exactly, and so it is not the divisor
  have hexact := f.value_rounded (f.rest_lt_unit hpos a) hplace (hle.trans_lt hb)
  rw [remainder_eq_rounded]
  refine hle.lt_of_ne fun heq => ?_
  rw [heq] at hexact
  exact hlt.ne' hexact

theorem remainder_le {a : Nat} (ha : a < f.infinity) (b : Nat) : f.remainder a b ≤ a := by
  have hrest : (0 : ℚ) ≤ f.rest a b * 2 ^ f.commonPlace a b := by positivity
  have hle := f.rounded_mono hrest (f.rest_le a b)
  rwa [f.rounded_value ha, ← remainder_eq_rounded] at hle

end Binary.Format

end Patchbay
