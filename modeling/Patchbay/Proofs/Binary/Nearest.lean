import Patchbay.Proofs.Binary.Rounding

/-!
# Rounding and order

Rounding keeps the order of what is rounded (`Format.rounded_mono`), and leaves alone what the
format holds (`Format.rounded_value`), so that a number that a format holds is passed by no other
in rounding. Which numbers it holds is told by their places: all multiples of a place with no more
than the bits of a significand (`Format.value_rounded`).
-/

namespace Patchbay.Binary

/-! ## The nearest natural number -/

theorem floor_le_nearest (r : ℚ) : ⌊r⌋₊ ≤ nearest r := by
  unfold nearest
  split
  · exact le_rfl
  · split <;> omega

theorem nearest_le_floor (r : ℚ) : nearest r ≤ ⌊r⌋₊ + 1 := by
  unfold nearest
  split
  · exact Nat.le_succ _
  · split <;> omega

theorem nearest_mono {r r' : ℚ} (h : r ≤ r') : nearest r ≤ nearest r' := by
  rcases (Nat.floor_mono h).lt_or_eq with hlt | heq
  · exact (nearest_le_floor r).trans (le_trans hlt (floor_le_nearest r'))
  · -- between the same two natural numbers it is the part above the lower one that counts
    have hrest : r - ⌊r⌋₊ ≤ r' - ⌊r'⌋₊ := by
      rw [heq]
      linarith
    rcases lt_trichotomy (r - ⌊r⌋₊) (1 / 2) with hlow | hhalf | hhigh
    · rw [nearest, if_pos hlow, heq]
      exact floor_le_nearest r'
    · rw [nearest, if_neg hhalf.not_lt, if_pos hhalf, heq, nearest, if_neg (by linarith)]
      split <;> omega
    · rw [nearest, if_neg hhigh.not_gt, if_neg hhigh.ne', heq, nearest, if_neg (by linarith),
        if_neg (by linarith)]

theorem nearest_le_of_le {r : ℚ} {n : Nat} (h : r ≤ n) : nearest r ≤ n :=
  (nearest_mono h).trans_eq (nearest_natCast n)

theorem le_nearest_of_le {r : ℚ} {n : Nat} (h : (n : ℚ) ≤ r) : n ≤ nearest r :=
  (nearest_natCast n).symm.trans_le (nearest_mono h)

namespace Format

variable (f : Format)

/-! ## Rounding a number -/

/-- The magnitude nearest to a number that is not negative; infinity if out of range. -/
def rounded (r : ℚ) : Nat :=
  if r = 0 then 0
  else min ((f.place r - f.minExponent).toNat * 2 ^ f.fractionBits + nearest (r / 2 ^ f.place r))
    f.infinity

theorem rounded_of_pos {r : ℚ} (hr : 0 < r) :
    f.rounded r = min ((f.place r - f.minExponent).toNat * 2 ^ f.fractionBits +
      nearest (r / 2 ^ f.place r)) f.infinity := if_neg hr.ne'

theorem round_eq_rounded (num : Nat) {den : Nat} (hden : den ≠ 0) :
    f.round num den = f.rounded ((num : ℚ) / den) := by
  by_cases hnum : num = 0
  · rw [hnum, Nat.cast_zero, zero_div]
    rfl
  · have hr : ((num : ℚ) / den) ≠ 0 := by positivity
    rw [f.round_eq hnum hden, rounded, if_neg hr]

theorem value_zero : f.value 0 = 0 := by
  have hparts : f.parts 0 = (0, f.minExponent) := if_pos (Nat.two_pow_pos _)
  rw [value, hparts, Nat.cast_zero, zero_mul]

theorem value_nonneg (m : Nat) : 0 ≤ f.value m := by
  unfold value
  positivity

theorem rounded_value {m : Nat} (hm : m < f.infinity) : f.rounded (f.value m) = m := by
  by_cases hzero : m = 0
  · rw [hzero, value_zero]
    rfl
  · obtain ⟨hden, hratio⟩ := f.ratio_spec m
    rw [← hratio, ← f.round_eq_rounded _ hden]
    exact f.round_of_value hden hzero hm hratio

theorem rounded_le_infinity (r : ℚ) : f.rounded r ≤ f.infinity := by
  unfold rounded
  split
  · exact Nat.zero_le _
  · exact Nat.min_le_right ..

/-! ## Order -/

theorem minExponent_le_place (r : ℚ) : f.minExponent ≤ f.place r := le_max_right ..

theorem place_mono {r r' : ℚ} (hr : 0 < r) (h : r ≤ r') : f.place r ≤ f.place r' := by
  have hlog := Int.log_mono_right (b := 2) hr h
  unfold place
  omega

/-- At its place a number has no more than the bits of a significand. -/
theorem div_place_lt {r : ℚ} (hr : 0 < r) : r / 2 ^ f.place r < 2 ^ (f.fractionBits + 1) := by
  have hlog : Int.log 2 r < (f.fractionBits + 1 : Nat) + f.place r := by
    unfold place
    omega
  rw [div_lt_iff₀ (two_zpow_pos _), ← zpow_natCast, ← zpow_add₀ (by norm_num)]
  exact_mod_cast (Int.lt_zpow_iff_log_lt (b := 2) (by decide) hr).mpr hlog

/-- Above the smallest place a number has all the bits of a significand. -/
theorem le_div_place {r : ℚ} (hr : 0 < r) (hplace : f.minExponent < f.place r) :
    2 ^ f.fractionBits ≤ r / 2 ^ f.place r := by
  have hlog : (f.fractionBits : Int) + f.place r ≤ Int.log 2 r := by
    unfold place at hplace ⊢
    omega
  rw [le_div_iff₀ (two_zpow_pos _), ← zpow_natCast, ← zpow_add₀ (by norm_num)]
  exact_mod_cast (Int.zpow_le_iff_le_log (b := 2) (by decide) hr).mpr hlog

theorem nearest_div_place_le {r : ℚ} (hr : 0 < r) :
    nearest (r / 2 ^ f.place r) ≤ 2 ^ (f.fractionBits + 1) :=
  nearest_le_of_le (by exact_mod_cast (f.div_place_lt hr).le)

theorem le_nearest_div_place {r : ℚ} (hr : 0 < r) (hplace : f.minExponent < f.place r) :
    2 ^ f.fractionBits ≤ nearest (r / 2 ^ f.place r) :=
  le_nearest_of_le (by exact_mod_cast f.le_div_place hr hplace)

theorem rounded_mono {r r' : ℚ} (hr : 0 ≤ r) (h : r ≤ r') : f.rounded r ≤ f.rounded r' := by
  rcases hr.eq_or_lt with rfl | hr
  · exact Nat.zero_le _
  have hr' := hr.trans_le h
  rw [f.rounded_of_pos hr, f.rounded_of_pos hr']
  refine min_le_min_right _ ?_
  have hmin := f.minExponent_le_place r
  rcases (f.place_mono hr h).lt_or_eq with hlt | heq
  · -- a significand at a lower place is at most one unit of the next place
    have hlow := f.nearest_div_place_le hr
    have hhigh := f.le_nearest_div_place hr' (hmin.trans_lt hlt)
    have hplaces : (f.place r - f.minExponent).toNat + 1 ≤ (f.place r' - f.minExponent).toNat := by
      omega
    have hscaled := Nat.mul_le_mul_right (2 ^ f.fractionBits) hplaces
    rw [Nat.add_mul, Nat.one_mul] at hscaled
    rw [Nat.pow_succ] at hlow
    omega
  · rw [← heq]
    refine Nat.add_le_add_left (nearest_mono ?_) _
    exact div_le_div_of_nonneg_right h (two_zpow_pos _).le

/-- The place in the order of the number nearest to a rational number. -/
def nearestRank (q : ℚ) : Int := if q < 0 then -(f.rounded (-q) : Int) else f.rounded q

theorem nearestRank_mono {q q' : ℚ} (h : q ≤ q') : f.nearestRank q ≤ f.nearestRank q' := by
  unfold nearestRank
  by_cases hneg : q < 0
  · rw [if_pos hneg]
    by_cases hneg' : q' < 0
    · have hmono := f.rounded_mono (neg_pos.mpr hneg').le (neg_le_neg h)
      rw [if_pos hneg']
      omega
    · rw [if_neg hneg']
      omega
  · have hmono := f.rounded_mono (not_lt.mp hneg) h
    rw [if_neg hneg, if_neg (by linarith)]
    exact_mod_cast hmono

/-- Finite magnitudes are ordered as their values. -/
theorem value_lt_value {m m' : Nat} (hm' : m' < f.infinity) (h : m < m') :
    f.value m < f.value m' := by
  by_contra hle
  have hm : m < f.infinity := h.trans hm'
  have hpos : 0 ≤ f.value m' := (f.value_pos (Nat.ne_zero_of_lt h)).le
  have hrounded := f.rounded_mono hpos (not_lt.mp hle)
  rw [f.rounded_value hm, f.rounded_value hm'] at hrounded
  omega

/-! ## What the places hold -/

theorem parts_add {p k : Nat} (hk : k < 2 ^ (f.fractionBits + 1))
    (hfull : 2 ^ f.fractionBits ≤ k ∨ p = 0) :
    f.parts (p * 2 ^ f.fractionBits + k) = (k, f.minExponent + p) := by
  have hunit := Nat.two_pow_pos f.fractionBits
  rw [Nat.pow_succ] at hk
  by_cases hsmall : k < 2 ^ f.fractionBits
  · obtain rfl := hfull.resolve_left (by omega)
    rw [Nat.zero_mul, Nat.zero_add]
    exact (if_pos hsmall).trans (by simp)
  · -- the bit above the stored ones is a unit of the place
    obtain ⟨rest, rfl⟩ := Nat.exists_eq_add_of_le (Nat.le_of_not_lt hsmall)
    have hrest : rest < 2 ^ f.fractionBits := by omega
    have hsum : p * 2 ^ f.fractionBits + (2 ^ f.fractionBits + rest) =
        rest + (p + 1) * 2 ^ f.fractionBits := by ring
    have hlarge : ¬rest + (p + 1) * 2 ^ f.fractionBits < 2 ^ f.fractionBits := by
      rw [Nat.add_mul]
      omega
    rw [hsum, parts]
    simp only [Nat.pow_eq]
    rw [if_neg hlarge, Nat.add_mul_mod_self_right, Nat.mod_eq_of_lt hrest,
      Nat.add_mul_div_right _ _ hunit, Nat.div_eq_of_lt hrest]
    simp

/-- A multiple of a place with no more than the bits of a significand is rounded to itself. -/
theorem value_rounded {k : Nat} {e : Int} (hk : k < 2 ^ (f.fractionBits + 1))
    (he : f.minExponent ≤ e) (hfinite : f.rounded (k * 2 ^ e) < f.infinity) :
    f.value (f.rounded (k * 2 ^ e)) = k * 2 ^ e := by
  by_cases hzero : k = 0
  · rw [hzero, Nat.cast_zero, zero_mul, rounded, if_pos rfl, value_zero]
  have hr : (0 : ℚ) < k * 2 ^ e := by positivity
  obtain ⟨p, hplace⟩ : ∃ p, f.place (k * 2 ^ e : ℚ) = p := ⟨_, rfl⟩
  have hmin : f.minExponent ≤ p := hplace ▸ f.minExponent_le_place _
  have hpe : p ≤ e := by
    have hlog : Int.log 2 ((k : ℚ) * 2 ^ e) < (f.fractionBits + 1 : Nat) + e := by
      apply (Int.lt_zpow_iff_log_lt (b := 2) (by decide) hr).mp
      have hk' : (k : ℚ) < 2 ^ (f.fractionBits + 1) := by exact_mod_cast hk
      rw [Nat.cast_ofNat, zpow_add₀ (by norm_num), zpow_natCast]
      gcongr
    rw [← hplace, place]
    omega
  -- the place may be lower than the one given, and the significand has more bits there
  let n := k * 2 ^ (e - p).toNat
  have hn : (k * 2 ^ e : ℚ) / 2 ^ p = n := by
    rw [div_eq_iff (two_zpow_pos _).ne', Nat.cast_mul, Nat.cast_pow, Nat.cast_ofNat,
      ← zpow_natCast, Int.toNat_of_nonneg (by omega), mul_assoc, ← zpow_add₀ (by norm_num),
      sub_add_cancel]
  have hbits : n < 2 ^ (f.fractionBits + 1) := by
    have hlt := f.div_place_lt hr
    rw [hplace, hn] at hlt
    exact_mod_cast hlt
  have hfull : 2 ^ f.fractionBits ≤ n ∨ (p - f.minExponent).toNat = 0 := by
    rcases hmin.eq_or_lt with heq | hlt
    · exact .inr (by omega)
    · have hle := f.le_div_place hr (hplace ▸ hlt)
      rw [hplace, hn] at hle
      exact .inl (by exact_mod_cast hle)
  have hrounded : f.rounded (k * 2 ^ e) = (p - f.minExponent).toNat * 2 ^ f.fractionBits + n := by
    rw [f.rounded_of_pos hr, hplace, hn, nearest_natCast] at hfinite ⊢
    omega
  rw [hrounded, value, f.parts_add hbits hfull, ← hn, Int.toNat_of_nonneg (by omega),
    add_sub_cancel, div_mul_cancel₀ _ (two_zpow_pos _).ne']

end Format

end Patchbay.Binary
