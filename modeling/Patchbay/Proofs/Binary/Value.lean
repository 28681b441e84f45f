import Patchbay.Proofs.Binary.Arithmetic

/-!
# Sums by their values

In every format of the machine, what comes out of a sum of finite numbers is settled by the sum of
their values, whatever the numbers are (`add_eq_ofRat`); only of a zero the sign may differ. A value
that fits the format comes out as it is (`toRat?_unpack_pack_ofRat`).
-/

open Float.Model (UnpackedFloat totalExponent)
open Float.Model.UnpackedFloat

namespace Patchbay.Binary.Machine

variable {spec : Float.Model.Format}

/-! ## What is made of a value -/

/-- What the machine makes of a value. -/
def ofRat (spec : Float.Model.Format) (q : ℚ) : UnpackedFloat :=
  if q < 0 then roundedTo spec .negative (-q)
  else if q = 0 then .zero .positive else roundedTo spec .positive q

theorem ofRat_zero : ofRat spec 0 = .zero .positive := (if_neg (lt_irrefl 0)).trans (if_pos rfl)

theorem normalize_eq_ofRat (k e : Int) :
    UnpackedFloat.normalize spec k e .positive = ofRat spec (k * 2 ^ e) := by
  have hunit := two_zpow_pos e
  unfold UnpackedFloat.normalize ofRat
  rcases lt_trichotomy k 0 with hneg | rfl | hpos
  · have hk : ((-k).toNat : ℚ) = -k := by exact_mod_cast Int.toNat_of_nonneg (by omega)
    have hk' : (k : ℚ) < 0 := by exact_mod_cast hneg
    rw [Int.compare_eq_lt.mpr hneg, if_pos (mul_neg_of_neg_of_pos hk' hunit), ← neg_mul, ← hk]
    exact round_eq_roundedTo _ (by omega) e
  · rw [Int.cast_zero, zero_mul, if_neg (lt_irrefl 0), if_pos rfl]
    rfl
  · have hk : (k.toNat : ℚ) = k := by exact_mod_cast Int.toNat_of_nonneg hpos.le
    have hk' : (0 : ℚ) < k := by exact_mod_cast hpos
    have hr : (0 : ℚ) < k * 2 ^ e := mul_pos hk' hunit
    rw [Int.compare_eq_gt.mpr hpos, if_neg hr.not_gt, if_neg hr.ne', ← hk]
    exact round_eq_roundedTo _ (by omega) e

/-! ## The form of a format -/

theorem minExponent_add_bias (spec : Float.Model.Format) :
    spec.minExponent + (spec.exponentBias + spec.mantissaBitsWithoutImplicit) = 1 := by
  have hbias : (spec.exponentBias : Int) = 2 ^ (spec.exponentBits - 1) - 1 := by
    rw [Float.Model.Format.exponentBias, Nat.cast_sub Nat.one_le_two_pow]
    push_cast
    rfl
  rw [Float.Model.Format.minExponent, Float.Model.Format.mantissaBits, hbias]
  push_cast
  ring

theorem toNat_append_one {k : Nat} (b : BitVec k) : (1#1 ++ b).toNat = 2 ^ k + b.toNat := by
  rw [BitVec.toNat_append, ← Nat.shiftLeft_add_eq_or_of_lt b.isLt, Nat.shiftLeft_eq]
  exact congrArg (· + b.toNat) (Nat.one_mul _)

theorem inForm_unpack (b : BitVec spec.numBits) : InForm spec (unpack spec b) := by
  have hmin := minExponent_add_bias spec
  have hmantissa := (unpackMantissa b).isLt
  unfold unpack
  dsimp only
  split
  · split <;> trivial
  · split
    · split
      · trivial
      · -- a small number has no more than the stored bits, at the smallest exponent
        rename_i hexponent hzero
        have hlog : (unpackMantissa b).toNat.log2 < spec.mantissaBitsWithoutImplicit :=
          (Nat.log2_lt fun h => hzero (BitVec.eq_of_toNat_eq h)).mpr hmantissa
        rw [InForm, hexponent, totalExponent, Float.Model.Format.targetExponent,
          Float.Model.Format.mantissaBits, BitVec.toNat_ofNat, Nat.zero_mod]
        omega
    · -- any other has one bit more
      rename_i hexponent
      have hlog : (1#1 ++ unpackMantissa b).toNat.log2 = spec.mantissaBitsWithoutImplicit := by
        rw [toNat_append_one, Nat.log2_eq_iff (by positivity), Nat.pow_succ]
        omega
      have hpos : (unpackExponent b).toNat ≠ 0 := fun h => hexponent (BitVec.eq_of_toNat_eq h)
      rw [InForm, totalExponent, Float.Model.Format.targetExponent,
        Float.Model.Format.mantissaBits, hlog]
      omega

theorem roundedTo_of_lastPlace (s : Sign) {m : Nat} (hm : 0 < m) {e : Int}
    (h : lastPlace spec (m * 2 ^ e) = e) :
    roundedTo spec s (m * 2 ^ e) = .finite s m e hm := by
  rw [roundedTo, h, mul_div_cancel_right₀ _ (two_zpow_pos e).ne', nearest_natCast]
  exact settleIn_of_lastPlace s hm h

theorem ofRat_apply (s : Sign) {q : ℚ} (hq : 0 < q) :
    ofRat spec (if s == .negative then -q else q) = roundedTo spec s q := by
  cases s with
  | positive => exact (if_neg hq.not_gt).trans (if_neg hq.ne')
  | negative =>
    refine (if_pos (neg_lt_zero.mpr hq)).trans ?_
    exact congrArg (roundedTo spec .negative) (neg_neg q)

/-- A number in the form of a format is what the machine makes of its value. -/
theorem eq_ofRat_of_inForm {u : UnpackedFloat} (hu : InForm spec u) {q : ℚ}
    (hq : toRat? u = some q) (hne : q ≠ 0) : u = ofRat spec q := by
  cases u with
  | notANumber | infinity s => cases hq
  | zero s => exact absurd (Option.some.inj hq).symm hne
  | finite s m e hm =>
    have hr : (0 : ℚ) < m * 2 ^ e := by positivity
    have hvalue : q = if s == .negative then -(m * 2 ^ e : ℚ) else m * 2 ^ e := by
      rw [← Option.some.inj hq]
      cases s <;> simp [Sign.apply]
    rw [hvalue, ofRat_apply s hr]
    rw [InForm, targetExponent_totalExponent hm] at hu
    exact (roundedTo_of_lastPlace s hm hu).symm

/-! ## Sums -/

theorem toRat?_neg (u : UnpackedFloat) :
    toRat? u.neg = (toRat? u).map (- ·) := by
  cases u with
  | notANumber | infinity s => rfl
  | zero s => exact congrArg some neg_zero.symm
  | finite s m e hm => cases s <;> simp [UnpackedFloat.neg, toRat?, Sign.apply]

theorem ne_zero_of_finite {s : Sign} {m : Nat} {e : Int} {hm : 0 < m} {q : ℚ}
    (h : toRat? (.finite s m e hm) = some q) : q ≠ 0 := by
  rw [← Option.some.inj h]
  have hsigned : ((s.apply m : Int) : ℚ) ≠ 0 := by
    cases s <;> simp [Sign.apply, hm.ne']
  exact mul_ne_zero hsigned (two_zpow_pos e).ne'

/-- A sum is what the machine makes of the sum of the values, or a zero of either sign. -/
theorem add_eq_ofRat {u v : UnpackedFloat} (hu : InForm spec u) (hv : InForm spec v) {q r : ℚ}
    (hq : toRat? u = some q) (hr : toRat? v = some r) :
    UnpackedFloat.add spec u v = ofRat spec (q + r) ∨
      q + r = 0 ∧ ∃ s, UnpackedFloat.add spec u v = .zero s := by
  cases u with
  | notANumber | infinity s => cases hq
  | zero s =>
    obtain rfl := Option.some.inj hq
    cases v with
    | notANumber | infinity t => cases hr
    | zero t =>
      obtain rfl := Option.some.inj hr
      right
      cases s <;> cases t <;> exact ⟨add_zero _, _, rfl⟩
    | finite t n k hn =>
      rw [zero_add]
      exact .inl (eq_ofRat_of_inForm hv hr (ne_zero_of_finite hr))
  | finite s m e hm =>
    cases v with
    | notANumber | infinity t => cases hr
    | zero t =>
      have hne := ne_zero_of_finite hq
      obtain rfl := Option.some.inj hr
      rw [add_zero]
      exact .inl (eq_ofRat_of_inForm hu hq hne)
    | finite t n k hn =>
      obtain rfl := Option.some.inj hq
      obtain rfl := Option.some.inj hr
      left
      rw [← apply_add_apply s t m n e k]
      exact normalize_eq_ofRat _ _

/-! ## What is not finite -/

theorem infinity_add (s : Sign) (u : UnpackedFloat) :
    UnpackedFloat.add spec (.infinity s) u = .infinity s ∨
      UnpackedFloat.add spec (.infinity s) u = .notANumber := by
  cases u with
  | notANumber => exact .inr rfl
  | infinity t => exact ite_eq_or_eq _ _ _
  | zero t | finite t m e hm => exact .inl rfl

theorem add_infinity (u : UnpackedFloat) (s : Sign) :
    UnpackedFloat.add spec u (.infinity s) = .infinity s ∨
      UnpackedFloat.add spec u (.infinity s) = .notANumber := by
  cases u with
  | notANumber => exact .inr rfl
  | infinity t =>
    rcases eq_or_ne t s with rfl | hne
    · exact ite_eq_or_eq _ _ _
    · exact .inr (if_neg (mt beq_iff_eq.mp hne))
  | zero t | finite t m e hm => exact .inl rfl

theorem add_notANumber (u : UnpackedFloat) :
    UnpackedFloat.add spec u .notANumber = .notANumber := by
  cases u <;> rfl

theorem compare_notANumber (u : UnpackedFloat) : u.compare .notANumber ≠ some .lt := by
  cases u <;> exact fun h => nomatch h

theorem infinity_compare (u : UnpackedFloat) :
    UnpackedFloat.compare (.infinity .positive) u ≠ some .lt := by
  cases u with
  | notANumber | zero s | finite s m e hm => exact fun h => nomatch h
  | infinity s => cases s <;> exact fun h => nomatch h

theorem compare_infinity (u : UnpackedFloat) :
    u.compare (.infinity .negative) ≠ some .lt := by
  cases u with
  | notANumber | zero s | finite s m e hm => exact fun h => nomatch h
  | infinity s => cases s <;> exact fun h => nomatch h

/-! ## Values that fit -/

/-- A positive multiple of a place, with no more than the bits of a mantissa, is kept. -/
theorem roundedTo_of_fits (s : Sign) {k : Nat} (hk : 0 < k) (hbits : k < 2 ^ spec.mantissaBits)
    {e : Int} (he : spec.minExponent ≤ e) :
    ∃ (m : Nat) (p : Int) (hm : 0 < m), (m * 2 ^ p : ℚ) = k * 2 ^ e ∧ p ≤ e ∧
      InForm spec (.finite s m p hm) ∧ roundedTo spec s (k * 2 ^ e) = .finite s m p hm := by
  obtain ⟨p, hplace⟩ : ∃ p, lastPlace spec (k * 2 ^ e : ℚ) = p := ⟨_, rfl⟩
  have hpe : p ≤ e := by
    have hlog : k.log2 < spec.mantissaBits := (Nat.log2_lt hk.ne').mpr hbits
    rw [← hplace, ← targetExponent_totalExponent hk, Float.Model.Format.targetExponent,
      totalExponent]
    omega
  -- the place may be lower than the one given, and the mantissa has more bits there
  have hvalue : ((k * 2 ^ (e - p).toNat : Nat) * 2 ^ p : ℚ) = k * 2 ^ e := by
    rw [Nat.cast_mul, Nat.cast_pow, Nat.cast_ofNat, ← zpow_natCast,
      Int.toNat_of_nonneg (by omega), mul_assoc, ← zpow_add₀ (by norm_num), sub_add_cancel]
  have hm : 0 < k * 2 ^ (e - p).toNat := Nat.mul_pos hk (Nat.two_pow_pos _)
  rw [← hvalue] at hplace ⊢
  refine ⟨_, p, hm, rfl, hpe, ?_, roundedTo_of_lastPlace s hm hplace⟩
  rwa [InForm, targetExponent_totalExponent hm]

theorem unpack_packComponents (s : Sign) (x : BitVec spec.exponentBits)
    (m : BitVec spec.mantissaBitsWithoutImplicit) :
    unpack spec (packComponents spec s x m) =
      if x = -1#_ then if m = 0#_ then .infinity s else .notANumber
      else if x = 0#_ then
        if h : m = 0#_ then .zero s
        else .finite s m.toNat
          (x.toNat - (spec.exponentBias + spec.mantissaBitsWithoutImplicit) + 1 : Int)
          (Nat.pos_of_ne_zero fun hzero => h (BitVec.eq_of_toNat_eq hzero))
      else .finite s (1#1 ++ m).toNat
        (x.toNat - (spec.exponentBias + spec.mantissaBitsWithoutImplicit) : Int)
        (toNat_append_one m ▸ Nat.add_pos_left (Nat.two_pow_pos _) _) := by
  simp only [unpack, unpackSign_packComponents, unpackExponent_packComponents,
    unpackMantissa_packComponents, Sign.ofBitVec_toBitVec]

theorem unpack_pack_infinity (s : Sign) :
    unpack spec (UnpackedFloat.pack spec (.infinity s)) = .infinity s :=
  (unpack_packComponents s _ _).trans ((if_pos rfl).trans (if_pos rfl))

theorem toNat_neg_one {k : Nat} (hk : 0 < k) : (-1#k).toNat = 2 ^ k - 1 := by
  rw [BitVec.toNat_neg, BitVec.toNat_ofNat, Nat.mod_eq_of_lt (Nat.one_lt_two_pow hk.ne'),
    Nat.mod_eq_of_lt (Nat.sub_lt (Nat.two_pow_pos _) Nat.one_pos)]

/-- A mantissa with all its bits comes back without the first one, which is put in front again. -/
theorem unpack_packComponents_full (s : Sign) {m : Nat} (hm : 0 < m)
    (hlow : 2 ^ spec.mantissaBitsWithoutImplicit ≤ m)
    (hhigh : m < 2 ^ (spec.mantissaBitsWithoutImplicit + 1)) {x : Nat} (hx : 0 < x)
    (hlarge : x + 1 < 2 ^ spec.exponentBits) :
    unpack spec (packComponents spec s (.ofNat _ x) (.ofNat _ m)) =
      .finite s m (x - (spec.exponentBias + spec.mantissaBitsWithoutImplicit) : Int) hm := by
  have hexponent : (BitVec.ofNat spec.exponentBits x).toNat = x := by
    rw [BitVec.toNat_ofNat, Nat.mod_eq_of_lt (by omega)]
  have hmantissa : (1#1 ++ BitVec.ofNat spec.mantissaBitsWithoutImplicit m).toNat = m := by
    rw [Nat.pow_succ] at hhigh
    rw [toNat_append_one, BitVec.toNat_ofNat, Nat.mod_eq_sub_mod hlow,
      Nat.mod_eq_of_lt (by omega)]
    omega
  rw [unpack_packComponents,
    if_neg (ne_of_apply_ne BitVec.toNat (by rw [hexponent, toNat_neg_one spec.he]; omega)),
    if_neg (ne_of_apply_ne BitVec.toNat (by rw [hexponent, BitVec.toNat_zero]; omega))]
  simp only [hmantissa, hexponent]

/-- A mantissa without the first bit comes back at the smallest exponent. -/
theorem unpack_packComponents_small (s : Sign) {m : Nat} (hm : 0 < m)
    (hhigh : m < 2 ^ spec.mantissaBitsWithoutImplicit) (hbits : 1 < 2 ^ spec.exponentBits) :
    unpack spec (packComponents spec s 0#_ (.ofNat _ m)) = .finite s m spec.minExponent hm := by
  have hmin := minExponent_add_bias spec
  have hmantissa : (BitVec.ofNat spec.mantissaBitsWithoutImplicit m).toNat = m := by
    rw [BitVec.toNat_ofNat, Nat.mod_eq_of_lt hhigh]
  rw [unpack_packComponents,
    if_neg (ne_of_apply_ne BitVec.toNat (by rw [toNat_neg_one spec.he, BitVec.toNat_zero]; omega)),
    if_pos rfl,
    dif_neg (ne_of_apply_ne BitVec.toNat (by rw [hmantissa, BitVec.toNat_zero]; omega))]
  simp only [hmantissa, BitVec.toNat_zero, UnpackedFloat.finite.injEq, true_and]
  omega

/-- A number in the form of a format is unpacked as it was packed, if it is not too large. -/
theorem unpack_pack_of_inForm {s : Sign} {m : Nat} {e : Int} {hm : 0 < m}
    (h : InForm spec (.finite s m e hm))
    (hlarge : e + (spec.exponentBias + spec.mantissaBitsWithoutImplicit) + 1 <
      2 ^ spec.exponentBits) :
    unpack spec (UnpackedFloat.pack spec (.finite s m e hm)) = .finite s m e hm := by
  have hmin := minExponent_add_bias spec
  have hlow := Nat.log2_self_le hm.ne'
  have hhigh := Nat.lt_log2_self (n := m)
  rw [InForm, totalExponent, Float.Model.Format.targetExponent, Float.Model.Format.mantissaBits]
    at h
  obtain ⟨x, hx⟩ : ∃ x : Nat,
      e + (spec.exponentBias + spec.mantissaBitsWithoutImplicit) = x :=
    ⟨_, (Int.toNat_of_nonneg (by omega)).symm⟩
  have hbiased : (e + spec.exponentBias + spec.mantissaBitsWithoutImplicit).toNat = x := by omega
  have hlarge' : x + 1 < 2 ^ spec.exponentBits := by
    rw [hx] at hlarge
    exact_mod_cast hlarge
  unfold UnpackedFloat.pack
  dsimp only
  rw [hbiased, if_neg (by omega), Float.Model.Format.mantissaBits]
  split
  · rename_i hfull
    rw [show m.log2 = spec.mantissaBitsWithoutImplicit by omega] at hlow hhigh
    rw [unpack_packComponents_full s hm hlow hhigh (by omega) hlarge',
      UnpackedFloat.finite.injEq]
    exact ⟨rfl, rfl, by omega⟩
  · rename_i hsmall
    rw [unpack_packComponents_small s hm ((Nat.log2_lt hm.ne').mp (by omega)) (by omega),
      UnpackedFloat.finite.injEq]
    exact ⟨rfl, rfl, by omega⟩

/-- A multiple of a place that is not too large comes out of the machine as it is. -/
theorem toRat?_unpack_pack_ofRat {k : Int} (hk : k.natAbs < 2 ^ spec.mantissaBits) {e : Int}
    (he : spec.minExponent ≤ e)
    (hlarge : e + (spec.exponentBias + spec.mantissaBitsWithoutImplicit) + 1 <
      2 ^ spec.exponentBits) :
    toRat? (unpack spec (UnpackedFloat.pack spec (ofRat spec (k * 2 ^ e)))) =
      some (k * 2 ^ e : ℚ) := by
  by_cases hzero : k = 0
  · rw [hzero, Int.cast_zero, zero_mul, ofRat_zero]
    exact congrArg toRat? unpack_packedZero
  · obtain ⟨s, hs⟩ : ∃ s : Sign, k = s.apply k.natAbs := by
      rcases Int.natAbs_eq k with h | h
      · exact ⟨.positive, h⟩
      · exact ⟨.negative, h⟩
    have hpos : 0 < k.natAbs := Int.natAbs_pos.mpr hzero
    obtain ⟨m, p, hm, hvalue, hp, hform, hround⟩ := @roundedTo_of_fits spec s _ hpos hk _ he
    have hsigned : (k * 2 ^ e : ℚ) =
        if s == .negative then -(k.natAbs * 2 ^ e : ℚ) else k.natAbs * 2 ^ e := by
      nth_rewrite 1 [hs]
      cases s <;> simp [Sign.apply]
    have hr : (0 : ℚ) < k.natAbs * 2 ^ e := by positivity
    rw [hsigned, ofRat_apply s hr, hround, unpack_pack_of_inForm hform (by omega), toRat?,
      ← hvalue]
    cases s <;> simp [Sign.apply]

end Patchbay.Binary.Machine
