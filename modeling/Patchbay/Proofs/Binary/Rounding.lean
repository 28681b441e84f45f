import Mathlib.Algebra.Order.Field.Power
import Mathlib.Algebra.Order.Floor.Semifield
import Mathlib.Data.Int.Log
import Mathlib.Data.Rat.Floor
import Mathlib.Tactic.FieldSimp
import Mathlib.Tactic.Linarith
import Mathlib.Tactic.Positivity
import Mathlib.Tactic.Ring
import Patchbay.Binary.Format

/-!
# Rounding to a binary format

Rounding is done on the two terms of a ratio, but its answer depends on the quotient alone:
`Format.round_eq` gives it by the binary logarithm of the quotient and its nearest natural number at
the last place. Hence equal ratios are rounded alike, and what a format can hold is rounded to
itself (`Format.round_of_value`).
-/

namespace Patchbay.Binary

/-! ## The nearest natural number -/

/-- The nearest natural number to a ratio, a half going to the even neighbour. -/
def nearest (r : ℚ) : Nat :=
  if r - ⌊r⌋₊ < 1 / 2 then ⌊r⌋₊
  else if r - ⌊r⌋₊ = 1 / 2 then ⌊r⌋₊ + ⌊r⌋₊ % 2
  else ⌊r⌋₊ + 1

theorem nearest_natCast (n : Nat) : nearest n = n := by
  simp [nearest]

theorem divNearest_eq (num : Nat) {den : Nat} (hden : 0 < den) :
    divNearest num den = nearest ((num : ℚ) / den) := by
  have hd : (0 : ℚ) < den := by exact_mod_cast hden
  have hfloor : ⌊(num : ℚ) / den⌋₊ = num / den := Nat.floor_div_eq_div num den
  have hrest : (num : ℚ) / den - (num / den : Nat) = (num % den : Nat) / den := by
    have hsplit : (num : ℚ) = den * (num / den : Nat) + (num % den : Nat) := by
      exact_mod_cast (Nat.div_add_mod num den).symm
    rw [eq_div_iff hd.ne', sub_mul, div_mul_cancel₀ _ hd.ne']
    linarith
  have hlt : ((num % den : Nat) : ℚ) / den < 1 / 2 ↔ 2 * (num % den) < den := by
    rw [div_lt_div_iff₀ hd (by norm_num), one_mul, mul_comm]
    exact_mod_cast Iff.rfl
  have heq : ((num % den : Nat) : ℚ) / den = 1 / 2 ↔ 2 * (num % den) = den := by
    rw [div_eq_div_iff hd.ne' (by norm_num), one_mul, mul_comm]
    exact_mod_cast Iff.rfl
  unfold divNearest nearest
  rw [hfloor, hrest]
  simp only [hlt, heq]
  rcases Nat.lt_trichotomy (2 * (num % den)) den with h | h | h
  · rw [Nat.compare_eq_lt.mpr h, if_pos h]
  · rw [Nat.compare_eq_eq.mpr h, if_neg (by omega), if_pos h]
  · rw [Nat.compare_eq_gt.mpr h, if_neg (by omega), if_neg (by omega)]

/-! ## Scaling and the last place -/

theorem two_zpow_pos (e : Int) : (0 : ℚ) < 2 ^ e := by positivity

/-- A power of the base adds its exponent to the logarithm. -/
theorem log_mul_zpow {b : Nat} (hb : 1 < b) {r : ℚ} (hr : 0 < r) (e : Int) :
    Int.log b (r * b ^ e) = Int.log b r + e := by
  have hbase : (0 : ℚ) < b := by exact_mod_cast Nat.zero_lt_of_lt hb
  have hpos : 0 < r * (b : ℚ) ^ e := by positivity
  apply le_antisymm
  · rw [← Int.lt_add_one_iff]
    apply (Int.lt_zpow_iff_log_lt hb hpos).mp
    rw [show Int.log b r + e + 1 = Int.log b r + 1 + e by ring, zpow_add₀ hbase.ne']
    exact mul_lt_mul_of_pos_right (Int.lt_zpow_succ_log_self hb r) (zpow_pos hbase e)
  · apply (Int.zpow_le_iff_le_log hb hpos).mp
    rw [zpow_add₀ hbase.ne']
    exact mul_le_mul_of_nonneg_right (Int.zpow_log_le_self hb hr) (zpow_pos hbase e).le

theorem scaleRatio_spec (num : Nat) {den : Nat} (hden : 0 < den) (e : Int) :
    0 < (scaleRatio num den e).2 ∧
      ((scaleRatio num den e).1 : ℚ) / (scaleRatio num den e).2 = num / den / 2 ^ e := by
  unfold scaleRatio
  by_cases he : 0 ≤ e
  · obtain ⟨n, rfl⟩ := Int.eq_ofNat_of_zero_le he
    rw [if_pos he]
    refine ⟨Nat.mul_pos hden (Nat.pow_pos (by decide)), ?_⟩
    push_cast [Nat.pow_eq, Int.toNat_natCast]
    rw [zpow_natCast, div_div]
  · obtain ⟨n, rfl⟩ := Int.exists_eq_neg_ofNat (show e ≤ 0 by omega)
    rw [if_neg he]
    refine ⟨hden, ?_⟩
    push_cast [Nat.pow_eq, neg_neg, Int.toNat_natCast]
    rw [zpow_neg, zpow_natCast, div_inv_eq_mul, div_mul_eq_mul_div]

/-- The logarithm of a ratio is the difference of those of its terms, or one less. -/
theorem log_ratio {num den : Nat} (hnum : num ≠ 0) (hden : den ≠ 0) :
    (num.log2 : Int) - den.log2 - 1 ≤ Int.log 2 ((num : ℚ) / den) ∧
      Int.log 2 ((num : ℚ) / den) ≤ num.log2 - den.log2 := by
  have hn : (0 : ℚ) < num := by exact_mod_cast Nat.pos_of_ne_zero hnum
  have hd : (0 : ℚ) < den := by exact_mod_cast Nat.pos_of_ne_zero hden
  have hn1 : (2 : ℚ) ^ num.log2 ≤ num := by exact_mod_cast Nat.log2_self_le hnum
  have hn2 : (num : ℚ) < 2 ^ (num.log2 + 1) := by exact_mod_cast Nat.lt_log2_self
  have hd1 : (2 : ℚ) ^ den.log2 ≤ den := by exact_mod_cast Nat.log2_self_le hden
  have hd2 : (den : ℚ) < 2 ^ (den.log2 + 1) := by exact_mod_cast Nat.lt_log2_self
  constructor
  · apply (Int.zpow_le_iff_le_log (b := 2) (by decide) (div_pos hn hd)).mp
    have hpow : (2 : ℚ) ^ ((num.log2 : Int) - den.log2 - 1) * 2 ^ (den.log2 + 1) =
        2 ^ num.log2 := by
      rw [← zpow_natCast, ← zpow_natCast, ← zpow_add₀ (by norm_num)]
      congr 1
      push_cast
      ring
    rw [Nat.cast_ofNat, le_div_iff₀ hd]
    calc (2 : ℚ) ^ ((num.log2 : Int) - den.log2 - 1) * den
        ≤ 2 ^ ((num.log2 : Int) - den.log2 - 1) * 2 ^ (den.log2 + 1) := by gcongr
      _ = 2 ^ num.log2 := hpow
      _ ≤ num := hn1
  · have hlt : Int.log 2 ((num : ℚ) / den) < num.log2 - den.log2 + 1 := by
      apply (Int.lt_zpow_iff_log_lt (b := 2) (by decide) (div_pos hn hd)).mp
      have hpow : (2 : ℚ) ^ ((num.log2 : Int) - den.log2 + 1) * 2 ^ den.log2 =
          2 ^ (num.log2 + 1) := by
        rw [← zpow_natCast, ← zpow_natCast, ← zpow_add₀ (by norm_num)]
        congr 1
        push_cast
        ring
      rw [Nat.cast_ofNat, div_lt_iff₀ hd]
      calc (num : ℚ) < 2 ^ (num.log2 + 1) := hn2
        _ = 2 ^ ((num.log2 : Int) - den.log2 + 1) * 2 ^ den.log2 := hpow.symm
        _ ≤ 2 ^ ((num.log2 : Int) - den.log2 + 1) * den := by gcongr
    omega

namespace Format

variable (f : Format)

theorem lastPlace_eq {num den : Nat} (hnum : num ≠ 0) (hden : den ≠ 0) :
    f.lastPlace num den = max (Int.log 2 ((num : ℚ) / den) - f.fractionBits) f.minExponent := by
  have hr : (0 : ℚ) < (num : ℚ) / den := by positivity
  obtain ⟨hlow, hhigh⟩ := log_ratio hnum hden
  let guess : Int := num.log2 - den.log2 - 1 - f.fractionBits
  obtain ⟨hd, hscaled⟩ := scaleRatio_spec num (Nat.pos_of_ne_zero hden) guess
  -- the guess is right if the ratio has no more than the bits of a significand there
  have hfits : (scaleRatio num den guess).1 / (scaleRatio num den guess).2 <
        Nat.pow 2 (f.fractionBits + 1) ↔ Int.log 2 ((num : ℚ) / den) < num.log2 - den.log2 := by
    rw [← Nat.floor_div_eq_div (K := ℚ), hscaled,
      Nat.floor_lt (div_nonneg hr.le (two_zpow_pos _).le), div_lt_iff₀ (two_zpow_pos _),
      Nat.pow_eq, Nat.cast_pow, Nat.cast_ofNat, ← zpow_natCast, ← zpow_add₀ (by norm_num),
      show ((f.fractionBits + 1 : Nat) : Int) + guess = num.log2 - den.log2 by
        simp only [guess]; omega]
    exact Int.lt_zpow_iff_log_lt (b := 2) (by decide) hr
  have hfine : (if (scaleRatio num den guess).1 / (scaleRatio num den guess).2 <
        Nat.pow 2 (f.fractionBits + 1) then guess else guess + 1) =
      Int.log 2 ((num : ℚ) / den) - f.fractionBits := by
    by_cases h : Int.log 2 ((num : ℚ) / den) < num.log2 - den.log2
    · rw [if_pos (hfits.mpr h)]
      omega
    · rw [if_neg (fun hlt => h (hfits.mp hlt))]
      omega
  exact congrArg (max · f.minExponent) hfine

/-! ## Rounding -/

/-- The exponent of the last place for a positive ratio. -/
def place (r : ℚ) : Int := max (Int.log 2 r - f.fractionBits) f.minExponent

/-- Rounding looks at nothing but the quotient. -/
theorem round_eq {num den : Nat} (hnum : num ≠ 0) (hden : den ≠ 0) :
    f.round num den =
      min ((f.place ((num : ℚ) / den) - f.minExponent).toNat * 2 ^ f.fractionBits +
        nearest ((num : ℚ) / den / 2 ^ f.place ((num : ℚ) / den))) f.infinity := by
  obtain ⟨hd, hscaled⟩ :=
    scaleRatio_spec num (Nat.pos_of_ne_zero hden) (f.place ((num : ℚ) / den))
  unfold round
  rw [if_neg hnum, f.lastPlace_eq hnum hden]
  change min (_ * _ + divNearest (scaleRatio num den (f.place _)).1
    (scaleRatio num den (f.place _)).2) _ = _
  rw [divNearest_eq _ hd, hscaled]
  rfl

theorem round_congr {num den num' den' : Nat} (hden : den ≠ 0) (hden' : den' ≠ 0)
    (h : (num : ℚ) / den = num' / den') : f.round num den = f.round num' den' := by
  have hd : (den : ℚ) ≠ 0 := by exact_mod_cast hden
  have hd' : (den' : ℚ) ≠ 0 := by exact_mod_cast hden'
  by_cases hnum : num = 0
  · have hnum' : num' = 0 := by
      rw [hnum, Nat.cast_zero, zero_div, eq_comm, div_eq_zero_iff] at h
      exact_mod_cast h.resolve_right hd'
    rw [hnum, hnum']
    rfl
  · have hnum' : num' ≠ 0 := by
      rintro rfl
      rw [Nat.cast_zero, zero_div, div_eq_zero_iff] at h
      exact hnum (by exact_mod_cast h.resolve_right hd)
    rw [f.round_eq hnum hden, f.round_eq hnum' hden', h]

/-! ## What a format can hold -/

/-- The exact value of a finite magnitude. -/
def value (m : Nat) : ℚ := (f.parts m).1 * 2 ^ (f.parts m).2

theorem ratio_spec (m : Nat) :
    (f.ratio m).2 ≠ 0 ∧ ((f.ratio m).1 : ℚ) / (f.ratio m).2 = f.value m := by
  unfold ratio value
  by_cases hq : 0 ≤ (f.parts m).2
  · obtain ⟨n, hn⟩ := Int.eq_ofNat_of_zero_le hq
    simp only [if_pos hq]
    refine ⟨by decide, ?_⟩
    rw [hn]
    push_cast [Nat.pow_eq, Int.toNat_natCast]
    rw [zpow_natCast, div_one]
  · obtain ⟨n, hn⟩ := Int.exists_eq_neg_ofNat (show (f.parts m).2 ≤ 0 by omega)
    simp only [if_neg hq]
    rw [hn]
    refine ⟨(Nat.pow_pos (by decide)).ne', ?_⟩
    push_cast [Nat.pow_eq, neg_neg, Int.toNat_natCast]
    rw [zpow_neg, zpow_natCast, div_eq_mul_inv]

/-- A significand below the limit and its place: small numbers, then the others. -/
theorem parts_spec (m : Nat) :
    m < 2 ^ f.fractionBits ∧ f.parts m = (m, f.minExponent) ∨
      2 ^ f.fractionBits ≤ m ∧
        f.parts m = (2 ^ f.fractionBits + m % 2 ^ f.fractionBits,
          f.minExponent + (m / 2 ^ f.fractionBits - 1 : Nat)) := by
  by_cases h : m < 2 ^ f.fractionBits
  · exact .inl ⟨h, if_pos h⟩
  · exact .inr ⟨by omega, if_neg h⟩

/-- No number has a place below the smallest one. -/
theorem minExponent_le_parts (m : Nat) : f.minExponent ≤ (f.parts m).2 := by
  rcases f.parts_spec m with ⟨-, h⟩ | ⟨-, h⟩
  · rw [h]
  · rw [h]
    exact Int.le_add_of_nonneg_right (Int.natCast_nonneg _)

theorem significand_pos {m : Nat} (hm : m ≠ 0) : 0 < (f.parts m).1 := by
  rcases f.parts_spec m with ⟨-, h⟩ | ⟨-, h⟩
  · rw [h]
    exact Nat.pos_of_ne_zero hm
  · rw [h]
    exact Nat.add_pos_left (Nat.two_pow_pos _) _

theorem value_pos {m : Nat} (hm : m ≠ 0) : 0 < f.value m := by
  have hsignificand : (0 : ℚ) < (f.parts m).1 := by exact_mod_cast f.significand_pos hm
  unfold value
  positivity

/-- The significand at its place is the magnitude again. -/
theorem magnitude_of_parts (m : Nat) :
    ((f.parts m).2 - f.minExponent).toNat * 2 ^ f.fractionBits + (f.parts m).1 = m := by
  rcases f.parts_spec m with ⟨-, hparts⟩ | ⟨hle, hparts⟩
  · rw [hparts]
    simp
  · have hunit := Nat.two_pow_pos f.fractionBits
    have hsplit := Nat.div_add_mod m (2 ^ f.fractionBits)
    have hcarry := Nat.le_mul_of_pos_right (2 ^ f.fractionBits)
      ((Nat.one_le_div_iff hunit).mpr hle)
    rw [hparts]
    simp only [add_sub_cancel_left, Int.toNat_natCast]
    rw [Nat.sub_mul, Nat.mul_comm (m / _)]
    omega

/-- No significand has more than one bit above those that are stored. -/
theorem significand_lt (m : Nat) : (f.parts m).1 < 2 ^ (f.fractionBits + 1) := by
  have hunit := Nat.two_pow_pos f.fractionBits
  rw [Nat.pow_succ]
  rcases f.parts_spec m with ⟨hlt, hparts⟩ | ⟨-, hparts⟩
  · rw [hparts]
    omega
  · have hmod := Nat.mod_lt m hunit
    rw [hparts]
    omega

theorem value_lt (m : Nat) : f.value m < 2 ^ ((f.fractionBits + 1 : Nat) + (f.parts m).2) := by
  have hlt : ((f.parts m).1 : ℚ) < 2 ^ (f.fractionBits + 1) := by
    exact_mod_cast f.significand_lt m
  rw [value, zpow_add₀ (by norm_num), zpow_natCast]
  gcongr

theorem place_value {m : Nat} (hm : m ≠ 0) : f.place (f.value m) = (f.parts m).2 := by
  have hpos := f.value_pos hm
  unfold place
  rcases f.parts_spec m with ⟨hlt, hparts⟩ | ⟨hle, hparts⟩
  · -- a small number lies below the first place that the logarithm alone would give
    have hlog : Int.log 2 (f.value m) < f.fractionBits + f.minExponent := by
      apply (Int.lt_zpow_iff_log_lt (b := 2) (by decide) hpos).mp
      have hlt' : (m : ℚ) < 2 ^ f.fractionBits := by exact_mod_cast hlt
      rw [value, hparts, Nat.cast_ofNat, zpow_add₀ (by norm_num), zpow_natCast]
      gcongr
    rw [hparts]
    omega
  · have hhigh : Int.log 2 (f.value m) < (f.fractionBits + 1 : Nat) + (f.parts m).2 :=
      (Int.lt_zpow_iff_log_lt (b := 2) (by decide) hpos).mp (by exact_mod_cast f.value_lt m)
    have hlow : (f.fractionBits : Int) + (f.parts m).2 ≤ Int.log 2 (f.value m) := by
      apply (Int.zpow_le_iff_le_log (b := 2) (by decide) hpos).mp
      have hle' : (2 : ℚ) ^ f.fractionBits ≤ (f.parts m).1 := by
        rw [hparts]
        exact_mod_cast Nat.le_add_right _ _
      rw [value, Nat.cast_ofNat, zpow_add₀ (by norm_num), zpow_natCast]
      gcongr
    rw [hparts] at hhigh hlow ⊢
    omega

/-- What a format can hold is rounded to itself. -/
theorem round_of_value {num den m : Nat} (hden : den ≠ 0) (hm : m ≠ 0) (hfinite : m < f.infinity)
    (h : (num : ℚ) / den = f.value m) : f.round num den = m := by
  have hnum : num ≠ 0 := by
    rintro rfl
    rw [Nat.cast_zero, zero_div] at h
    exact (f.value_pos hm).ne h
  have hscaled : f.value m / 2 ^ (f.parts m).2 = (f.parts m).1 :=
    mul_div_cancel_right₀ _ (two_zpow_pos _).ne'
  rw [f.round_eq hnum hden, h, f.place_value hm, hscaled, nearest_natCast, f.magnitude_of_parts,
    Nat.min_eq_left hfinite.le]

end Format

end Patchbay.Binary
