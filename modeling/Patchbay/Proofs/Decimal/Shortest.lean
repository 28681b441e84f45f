import Mathlib.Data.Nat.Cast.Field
import Patchbay.Decimal.Shortest
import Patchbay.Proofs.Binary.Rounding

/-!
# Shortest decimals read back

What a decimal reads as depends on its value alone, not on how many zeros its digits end in
(`Format.ofDecimal_congr`). The shortest decimal of a magnitude reads back as it: a hit on one of
the grids does so because it was tried, and the decimal that is taken when no grid has a hit is
exact (`Decimal.ofDecimal_shortest`).
-/

namespace Patchbay

open Binary

namespace Decimal

/-! ## Digits -/

theorem ofDigits_append (cs ds : List Char) :
    ofDigits (cs ++ ds) = 10 ^ ds.length * ofDigits cs + ofDigits ds := by
  have happend : ofDigits (cs ++ ds) = Nat.ofDigitChars 10 ds (ofDigits cs) :=
    Nat.ofDigitChars_append 0
  rw [happend, Nat.ofDigitChars_eq_ofDigitChars_zero]
  rfl

theorem ofDigits_toDigits (n : Nat) : ofDigits (Nat.toDigits 10 n) = n :=
  Nat.ofDigitChars_ten_toDigits

theorem ofDigits_zeros (n : Nat) : ofDigits (List.replicate n '0') = 0 :=
  Nat.ofDigitChars_replicate_zero.trans (Nat.mul_zero _)

theorem isDigit_of_mem_toDigits {n : Nat} {c : Char} (h : c ∈ Nat.toDigits 10 n) :
    c.isDigit = true :=
  Nat.isDigit_of_mem_toDigits (by decide) (by decide) h

theorem digitCount_spec {n : Nat} (hn : n ≠ 0) :
    0 < digitCount n ∧ 10 ^ (digitCount n - 1) ≤ n ∧ n < 10 ^ digitCount n := by
  have hcount : digitCount n = (Nat.toDigits 10 n).length := if_neg hn
  have hpos : 0 < (Nat.toDigits 10 n).length := Nat.length_toDigits_pos
  have hle := fun {k : Nat} (hk : 0 < k) => Nat.length_toDigits_le_iff (b := 10) (n := n) (k := k)
    (by decide) hk
  rw [hcount]
  refine ⟨hpos, ?_, (hle hpos).mp (Nat.le_refl _)⟩
  by_cases hone : (Nat.toDigits 10 n).length = 1
  · rw [hone]
    exact Nat.pos_of_ne_zero hn
  · have hnot := mt (hle (k := (Nat.toDigits 10 n).length - 1) (by omega)).mpr (by omega)
    omega

/-- The power of ten above a decimal. -/
theorem log_decimal {d : Nat} (hd : d ≠ 0) (e : Int) :
    Int.log 10 ((d : ℚ) * 10 ^ e) + 1 = digitCount d + e := by
  obtain ⟨hpos, hlow, hhigh⟩ := digitCount_spec hd
  have hdigits : Nat.log 10 d = digitCount d - 1 :=
    Nat.log_eq_of_pow_le_of_lt_pow hlow (by rwa [Nat.sub_add_cancel hpos])
  have hlog : Int.log 10 ((d : ℚ) * 10 ^ e) = Nat.log 10 d + e := by
    have hd' : (0 : ℚ) < d := by exact_mod_cast Nat.pos_of_ne_zero hd
    rw [← Int.log_natCast (R := ℚ)]
    exact_mod_cast log_mul_zpow (by decide : 1 < 10) hd' e
  omega

end Decimal

namespace Binary.Format

variable (f : Format)

/-! ## Reading a decimal -/

theorem ofDecimal_zero (e : Int) : f.ofDecimal 0 e = 0 := rfl

/-- A decimal is read by its value: out of reach, or as a ratio of that value is rounded. -/
theorem ofDecimal_eq {d : Nat} (hd : d ≠ 0) (e : Int) :
    ∃ num den : Nat, den ≠ 0 ∧ (num : ℚ) / den = d * 10 ^ e ∧
      f.ofDecimal d e =
        if Int.log 10 ((d : ℚ) * 10 ^ e) + 1 < -400 then 0
        else if 400 < Int.log 10 ((d : ℚ) * 10 ^ e) + 1 then f.infinity
        else f.round num den := by
  rw [Decimal.log_decimal hd]
  have hread : f.ofDecimal d e =
      if (Decimal.digitCount d : Int) + e < -400 then 0
      else if 400 < (Decimal.digitCount d : Int) + e then f.infinity
      else if 0 ≤ e then f.round (d * Nat.pow 10 e.toNat) 1
      else f.round d (Nat.pow 10 (-e).toNat) := by
    simp [ofDecimal, hd]
  rw [hread]
  by_cases he : 0 ≤ e
  · obtain ⟨n, rfl⟩ := Int.eq_ofNat_of_zero_le he
    refine ⟨d * 10 ^ n, 1, by decide, ?_, by rw [if_pos he]; rfl⟩
    push_cast
    rw [zpow_natCast, div_one]
  · obtain ⟨n, rfl⟩ := Int.exists_eq_neg_ofNat (show e ≤ 0 by omega)
    refine ⟨d, 10 ^ n, (Nat.pow_pos (by decide)).ne', ?_, ?_⟩
    · push_cast
      rw [zpow_neg, zpow_natCast, div_eq_mul_inv]
    · rw [if_neg he, neg_neg, Int.toNat_natCast]
      rfl

/-- Decimals of one value are read alike. -/
theorem ofDecimal_congr {d d' : Nat} {e e' : Int} (h : (d : ℚ) * 10 ^ e = d' * 10 ^ e') :
    f.ofDecimal d e = f.ofDecimal d' e' := by
  have hzero : d = 0 ↔ d' = 0 := by
    have hpow : (10 : ℚ) ^ e ≠ 0 := by positivity
    have hpow' : (10 : ℚ) ^ e' ≠ 0 := by positivity
    constructor
    · rintro rfl
      rw [Nat.cast_zero, zero_mul, eq_comm, mul_eq_zero] at h
      exact_mod_cast h.resolve_right hpow'
    · rintro rfl
      rw [Nat.cast_zero, zero_mul, mul_eq_zero] at h
      exact_mod_cast h.resolve_right hpow
  by_cases hd : d = 0
  · rw [hd, hzero.mp hd, ofDecimal_zero, ofDecimal_zero]
  · obtain ⟨num, den, hden, hvalue, hread⟩ := f.ofDecimal_eq hd e
    obtain ⟨num', den', hden', hvalue', hread'⟩ := f.ofDecimal_eq (mt hzero.mpr hd) e'
    rw [hread, hread', ← h, f.round_congr hden hden' (by rw [hvalue, hvalue', h])]

/-! ## The reach of a format -/

/-- Whether no number of a format but zero and infinity is beyond `10^±400`. -/
def Moderate : Prop :=
  ∀ {m : Nat}, m ≠ 0 → m < f.infinity → (10 : ℚ) ^ (-400 : Int) ≤ f.value m ∧ f.value m < 10 ^ 400

/-- The places of finite numbers end below the largest exponent. -/
theorem place_le {m : Nat} (hbits : 2 ≤ f.exponentBits) (hfinite : m < f.infinity) :
    (f.fractionBits + 1 : Nat) + (f.parts m).2 ≤ (2 ^ (f.exponentBits - 1) : Nat) := by
  have hunit := Nat.two_pow_pos f.fractionBits
  have htwice : 2 ^ f.exponentBits = 2 * 2 ^ (f.exponentBits - 1) := by
    rw [← Nat.pow_succ', Nat.succ_eq_add_one, Nat.sub_add_cancel (by omega)]
  have htwo : 2 ≤ 2 ^ (f.exponentBits - 1) := Nat.le_self_pow (by omega) 2
  have hquotient : m / 2 ^ f.fractionBits < 2 * 2 ^ (f.exponentBits - 1) - 1 := by
    rw [← htwice]
    exact (Nat.div_lt_iff_lt_mul hunit).mpr hfinite
  have hmin : f.minExponent = 2 - (2 ^ (f.exponentBits - 1) : Nat) - f.fractionBits := rfl
  rcases f.parts_spec m with ⟨-, h⟩ | ⟨-, h⟩ <;> rw [h] <;> simp only [hmin] <;> omega

theorem moderate_of_bounds (hbits : 2 ≤ f.exponentBits)
    (hlow : 2 ^ (-f.minExponent).toNat ≤ 10 ^ 400)
    (hhigh : 2 ^ (2 ^ (f.exponentBits - 1)) ≤ 10 ^ 400) : f.Moderate := by
  intro m hm hfinite
  constructor
  · have hlow' : (2 : ℚ) ^ (-f.minExponent).toNat ≤ 10 ^ 400 := by exact_mod_cast hlow
    have hone : (1 : ℚ) ≤ (f.parts m).1 := by exact_mod_cast f.significand_pos hm
    calc (10 : ℚ) ^ (-400 : Int) = ((10 : ℚ) ^ 400)⁻¹ := by rw [zpow_neg]; rfl
      _ ≤ ((2 : ℚ) ^ (-f.minExponent).toNat)⁻¹ := inv_anti₀ (by positivity) hlow'
      _ = 2 ^ (-((-f.minExponent).toNat : Int)) := by rw [zpow_neg, zpow_natCast]
      _ ≤ 2 ^ (f.parts m).2 := by
        have hplace := f.minExponent_le_parts m
        exact zpow_le_zpow_right₀ (by norm_num) (by omega)
      _ ≤ f.value m := le_mul_of_one_le_left (two_zpow_pos _).le hone
  · have hhigh' : (2 : ℚ) ^ (2 ^ (f.exponentBits - 1)) ≤ 10 ^ 400 := by exact_mod_cast hhigh
    calc f.value m < 2 ^ ((f.fractionBits + 1 : Nat) + (f.parts m).2) := f.value_lt m
      _ ≤ 2 ^ ((2 ^ (f.exponentBits - 1) : Nat) : Int) :=
        zpow_le_zpow_right₀ (by norm_num) (f.place_le hbits hfinite)
      _ ≤ 10 ^ 400 := by rwa [zpow_natCast]

theorem moderate_double : double.Moderate :=
  moderate_of_bounds _ (by decide) (by decide +kernel) (by decide +kernel)

theorem moderate_single : single.Moderate :=
  moderate_of_bounds _ (by decide) (by decide +kernel) (by decide +kernel)

/-- A decimal that is the value of a magnitude is read as it. -/
theorem ofDecimal_of_value (hf : f.Moderate) {d m : Nat} {e : Int} (hm : m ≠ 0)
    (hfinite : m < f.infinity) (h : (d : ℚ) * 10 ^ e = f.value m) : f.ofDecimal d e = m := by
  have hpos := f.value_pos hm
  have hd : d ≠ 0 := by
    rintro rfl
    rw [Nat.cast_zero, zero_mul] at h
    exact hpos.ne h
  obtain ⟨hlow, hhigh⟩ := hf hm hfinite
  have hlog : -400 ≤ Int.log 10 (f.value m) :=
    (Int.zpow_le_iff_le_log (b := 10) (by decide) hpos).mp (by exact_mod_cast hlow)
  have hlog' : Int.log 10 (f.value m) < 400 :=
    (Int.lt_zpow_iff_log_lt (b := 10) (by decide) hpos).mp (by exact_mod_cast hhigh)
  obtain ⟨num, den, hden, hvalue, hread⟩ := f.ofDecimal_eq hd e
  rw [hread, h, if_neg (by omega), if_neg (by omega)]
  exact f.round_of_value hden hm hfinite (hvalue.trans h)

end Binary.Format

namespace Decimal

variable {f : Format} {m : Nat}

/-! ## The shortest decimal -/

theorem ofDecimal_neighbour {num den d : Nat} {x : Int} (h : neighbour? f m num den x = some d) :
    f.ofDecimal d x = m := by
  -- whichever neighbour is taken has been tried
  unfold neighbour? at h
  generalize (if 0 ≤ x then (num, den * Nat.pow 10 x.toNat)
    else (num * Nat.pow 10 (-x).toNat, den)) = terms at h
  dsimp only at h
  split at h
  · rename_i hbelow habove
    split at h
    · rw [← Option.some.inj h]
      exact beq_iff_eq.mp hbelow
    · rw [← Option.some.inj h]
      exact beq_iff_eq.mp habove
  · rename_i hbelow habove
    rw [← Option.some.inj h]
    exact beq_iff_eq.mp hbelow
  · rename_i hbelow habove
    rw [← Option.some.inj h]
    exact beq_iff_eq.mp habove
  · cases h

/-- On a grid that is fine enough the value of a magnitude is a point. -/
theorem exact_on_grid (f : Format) (m : Nat) {x : Int} (hx : x ≤ min (f.parts m).2 0) :
    (((f.ratio m).1 * Nat.pow 10 (-x).toNat / (f.ratio m).2 : Nat) : ℚ) * 10 ^ x = f.value m := by
  obtain ⟨hden, hvalue⟩ := f.ratio_spec m
  have hd : ((f.ratio m).2 : ℚ) ≠ 0 := by exact_mod_cast hden
  obtain ⟨n, rfl⟩ := Int.exists_eq_neg_ofNat (show x ≤ 0 by omega)
  have hdvd : (f.ratio m).2 ∣ 10 ^ n := by
    have hterm : (f.ratio m).2 = if 0 ≤ (f.parts m).2 then 1 else 2 ^ (-(f.parts m).2).toNat := by
      unfold Format.ratio
      dsimp only
      split <;> rfl
    rw [hterm]
    by_cases hq : 0 ≤ (f.parts m).2
    · rw [if_pos hq]
      exact Nat.one_dvd _
    · rw [if_neg hq]
      have hplaces : (-(f.parts m).2).toNat ≤ n := by omega
      exact (Nat.pow_dvd_pow 2 hplaces).trans (pow_dvd_pow_of_dvd (by decide : 2 ∣ 10) n)
  rw [neg_neg, Int.toNat_natCast, Nat.pow_eq, Nat.cast_div (hdvd.mul_left _) hd, ← hvalue]
  push_cast
  rw [zpow_neg, zpow_natCast, mul_div_right_comm, mul_assoc, mul_inv_cancel₀ (by positivity),
    mul_one]

theorem ofDecimal_coarsest (hf : f.Moderate) (hm : m ≠ 0) (hfinite : m < f.infinity)
    (steps : Nat) (x : Int) (hx : x - steps ≤ min (f.parts m).2 0) :
    f.ofDecimal (coarsest f m (f.ratio m).1 (f.ratio m).2 steps x).1
      (coarsest f m (f.ratio m).1 (f.ratio m).2 steps x).2 = m := by
  induction steps generalizing x with
  | zero => exact f.ofDecimal_of_value hf hm hfinite (exact_on_grid f m (by omega))
  | succ steps ih =>
    unfold coarsest
    cases hhit : neighbour? f m (f.ratio m).1 (f.ratio m).2 x with
    | some d => exact ofDecimal_neighbour hhit
    | none => exact ih (x - 1) (by omega)

theorem ofDecimal_shortest (hf : f.Moderate) (hm : m ≠ 0) (hfinite : m < f.infinity) :
    f.ofDecimal (shortest f m).1 (shortest f m).2 = m := by
  unfold shortest
  exact ofDecimal_coarsest hf hm hfinite _ _ (by omega)

end Decimal

end Patchbay
