import Patchbay.Proofs.Binary.Value

/-!
# The order of the numbers of a format

The numbers of a format, infinities included, are ordered by their ranks (`compare_eq_lt_iff`).
What the machine makes of a value has the rank of the number nearest to it (`ofRat_spec`), so that a
larger value never comes out lower (`compare_ofRat_mono`).
-/

open Float.Model (UnpackedFloat totalExponent)
open Float.Model.UnpackedFloat

namespace Patchbay.Binary.Machine

variable {spec : Float.Model.Format}

theorem infinity_formatOf (spec : Float.Model.Format) :
    (formatOf spec).infinity =
      (2 ^ spec.exponentBits - 1) * 2 ^ spec.mantissaBitsWithoutImplicit := rfl

/-! ## Ranks -/

/-- The place of a number in the order. -/
def rankOf (spec : Float.Model.Format) (u : UnpackedFloat) : Int :=
  if isNegative u then -(distance spec u : Int) else distance spec u

/-- A number of the format, finite or not. -/
def IsNumber (spec : Float.Model.Format) : UnpackedFloat → Prop
  | .notANumber => False
  | .infinity _ | .zero _ => True
  | .finite s m e hm =>
    InForm spec (.finite s m e hm) ∧ position spec m e < (formatOf spec).infinity

/-- A number at a lower exponent is at a lower position. -/
theorem position_lt {s t : Sign} {m n : Nat} {e k : Int} {hm : 0 < m} {hn : 0 < n}
    (hu : InForm spec (.finite s m e hm)) (hv : InForm spec (.finite t n k hn)) (h : e < k) :
    position spec m e < position spec n k := by
  obtain ⟨hbits, hmin, -⟩ := inForm_finite_iff.mp hu
  obtain ⟨-, -, hfull⟩ := inForm_finite_iff.mp hv
  have hunit := hfull.resolve_right (by omega)
  have hplaces : (e - spec.minExponent).toNat + 1 ≤ (k - spec.minExponent).toNat := by omega
  have hscaled := Nat.mul_le_mul_right (2 ^ spec.mantissaBitsWithoutImplicit) hplaces
  rw [Nat.add_mul, Nat.one_mul] at hscaled
  rw [Nat.pow_succ] at hbits
  unfold position
  omega

theorem compare_position {s t : Sign} {m n : Nat} {e k : Int} {hm : 0 < m} {hn : 0 < n}
    (hu : InForm spec (.finite s m e hm)) (hv : InForm spec (.finite t n k hn)) :
    (compare e k).then (compare m n) = compare (position spec m e) (position spec n k) := by
  rcases lt_trichotomy e k with hlt | rfl | hgt
  · rw [Int.compare_eq_lt.mpr hlt, Nat.compare_eq_lt.mpr (position_lt hu hv hlt)]
    rfl
  · rw [Int.compare_eq_eq.mpr rfl, Ordering.then]
    unfold position
    rcases Nat.lt_trichotomy m n with h | rfl | h
    · rw [Nat.compare_eq_lt.mpr h, Nat.compare_eq_lt.mpr (by omega)]
    · rw [Nat.compare_eq_eq.mpr rfl, Nat.compare_eq_eq.mpr rfl]
    · rw [Nat.compare_eq_gt.mpr h, Nat.compare_eq_gt.mpr (by omega)]
  · rw [Int.compare_eq_gt.mpr hgt, Nat.compare_eq_gt.mpr (position_lt hv hu hgt)]
    rfl

theorem position_pos (spec : Float.Model.Format) {m : Nat} (hm : 0 < m) (e : Int) :
    0 < position spec m e := by
  unfold position
  omega

theorem infinity_pos (spec : Float.Model.Format) : 0 < (formatOf spec).infinity :=
  Nat.mul_pos (Nat.sub_pos_of_lt (Nat.one_lt_two_pow spec.he.ne')) (Nat.two_pow_pos _)

theorem rankOf_zero (s : Sign) : rankOf spec (.zero s) = 0 := by cases s <;> rfl

theorem rankOf_infinity (s : Sign) :
    rankOf spec (.infinity s) = s.apply ((formatOf spec).infinity : Nat) := by
  cases s <;> rfl

theorem rankOf_finite (s : Sign) (m : Nat) (e : Int) (hm : 0 < m) :
    rankOf spec (.finite s m e hm) = s.apply (position spec m e : Nat) := by
  cases s <;> rfl

/-- Of two numbers the one of lower rank is below the other. -/
theorem compare_eq_lt_iff {u v : UnpackedFloat} (hu : IsNumber spec u) (hv : IsNumber spec v) :
    u.compare v = some .lt ↔ rankOf spec u < rankOf spec v := by
  have hinfinity := infinity_pos spec
  cases u with
  | notANumber => cases hu
  | infinity s =>
    rw [rankOf_infinity]
    cases v with
    | notANumber => cases hv
    | infinity t =>
      rw [rankOf_infinity]
      have hbelow : compare Sign.negative Sign.positive = .lt := rfl
      have habove : compare Sign.positive Sign.negative = .gt := rfl
      cases s <;> cases t <;>
        simp [UnpackedFloat.compare, hbelow, habove, Sign.apply, hinfinity]
    | zero t =>
      rw [rankOf_zero]
      cases s <;> simp [UnpackedFloat.compare, Sign.apply, hinfinity]
    | finite t n k hn =>
      rw [rankOf_finite]
      have hfits := hv.2
      cases s <;> cases t <;> simp [UnpackedFloat.compare, Sign.apply] <;> omega
  | zero s =>
    rw [rankOf_zero]
    cases v with
    | notANumber => cases hv
    | infinity t =>
      rw [rankOf_infinity]
      cases t <;> simp [UnpackedFloat.compare, Sign.apply, hinfinity]
    | zero t => simp [UnpackedFloat.compare, rankOf_zero]
    | finite t n k hn =>
      rw [rankOf_finite]
      have hn' := position_pos spec hn k
      cases t <;> simp [UnpackedFloat.compare, Sign.apply, hn']
  | finite s m e hm =>
    rw [rankOf_finite]
    have hm' := position_pos spec hm e
    cases v with
    | notANumber => cases hv
    | infinity t =>
      rw [rankOf_infinity]
      have hfits := hu.2
      cases s <;> cases t <;> simp [UnpackedFloat.compare, Sign.apply] <;> omega
    | zero t =>
      rw [rankOf_zero]
      cases s <;> simp [UnpackedFloat.compare, Sign.apply, hm']
    | finite t n k hn =>
      rw [rankOf_finite]
      have hcompare := compare_position hu.1 hv.1
      have hn' := position_pos spec hn k
      cases s <;> cases t <;>
        simp [UnpackedFloat.compare, hcompare, Sign.apply, compare_lt_iff_lt, compare_gt_iff_gt]
      omega

/-! ## Ranks of values -/

/-- The numbers that are not too large are those whose exponents fit their bits. -/
theorem position_lt_infinity_iff (hspec : 2 ≤ spec.exponentBits) {s : Sign} {m : Nat} {e : Int}
    {hm : 0 < m} (hu : InForm spec (.finite s m e hm)) :
    position spec m e < (formatOf spec).infinity ↔
      e + (spec.exponentBias + spec.mantissaBitsWithoutImplicit) + 1 < 2 ^ spec.exponentBits := by
  obtain ⟨hbits, hmin, hfull⟩ := inForm_finite_iff.mp hu
  have hplace := minExponent_add_bias spec
  have hexponents : 2 ^ 2 ≤ 2 ^ spec.exponentBits := Nat.pow_le_pow_right (by decide) hspec
  obtain ⟨x, hx⟩ : ∃ x : Nat, e - spec.minExponent = x :=
    ⟨_, (Int.toNat_of_nonneg (by omega)).symm⟩
  have hfits : e + (spec.exponentBias + spec.mantissaBitsWithoutImplicit) + 1 <
      2 ^ spec.exponentBits ↔ x + 2 < 2 ^ spec.exponentBits := by
    rw [show e + (spec.exponentBias + spec.mantissaBitsWithoutImplicit) + 1 = (x + 2 : Nat) by
      push_cast
      omega]
    exact_mod_cast Iff.rfl
  rw [hfits, position, hx, Int.toNat_natCast, infinity_formatOf]
  rw [Nat.pow_succ] at hbits
  constructor
  · intro hlt
    by_contra hlarge
    have hunit := hfull.resolve_right (by omega)
    have hscaled := Nat.mul_le_mul_right (2 ^ spec.mantissaBitsWithoutImplicit)
      (show 2 ^ spec.exponentBits - 1 ≤ x + 1 by omega)
    rw [Nat.add_mul, Nat.one_mul] at hscaled
    omega
  · intro hlt
    have hscaled := Nat.mul_le_mul_right (2 ^ spec.mantissaBitsWithoutImplicit)
      (show x + 2 ≤ 2 ^ spec.exponentBits - 1 by omega)
    rw [Nat.add_mul] at hscaled
    omega

/-- To pack a number and to unpack it again makes an infinity of what is too large. -/
theorem unpack_pack_spec (hspec : 2 ≤ spec.exponentBits) {u : UnpackedFloat} (hu : InForm spec u)
    (hnum : u ≠ .notANumber) :
    let v := unpack spec (UnpackedFloat.pack spec u)
    IsNumber spec v ∧ isNegative v = isNegative u ∧
      distance spec v = min (distance spec u) (formatOf spec).infinity := by
  intro v
  cases u with
  | notANumber => exact absurd rfl hnum
  | infinity s =>
    have hv : v = .infinity s := unpack_pack_infinity s
    rw [hv]
    exact ⟨trivial, rfl, (min_self _).symm⟩
  | zero s =>
    have hv : v = .zero s := unpack_packedZero
    rw [hv]
    exact ⟨trivial, rfl, (Nat.zero_min _).symm⟩
  | finite s m e hm =>
    have hfits := position_lt_infinity_iff hspec hu
    rw [distance]
    by_cases hlt : position spec m e < (formatOf spec).infinity
    · have hv : v = .finite s m e hm := unpack_pack_of_inForm hu (hfits.mp hlt)
      rw [hv]
      exact ⟨⟨hu, hlt⟩, rfl, (min_eq_left hlt.le).symm⟩
    · have hlarge : 2 ^ spec.exponentBits ≤
          (e + spec.exponentBias + spec.mantissaBitsWithoutImplicit).toNat + 1 := by
        have hnot := not_lt.mp (mt hfits.mpr hlt)
        have hcast : ((2 ^ spec.exponentBits : Nat) : Int) = 2 ^ spec.exponentBits := by
          push_cast
          rfl
        omega
      have hpack : UnpackedFloat.pack spec (.finite s m e hm) =
          UnpackedFloat.pack spec (.infinity s) := if_pos hlarge
      have hv : v = .infinity s := (congrArg (unpack spec) hpack).trans (unpack_pack_infinity s)
      rw [hv]
      exact ⟨trivial, rfl, (min_eq_right (not_lt.mp hlt)).symm⟩

theorem isNumber_unpack (hspec : 2 ≤ spec.exponentBits) {b : BitVec spec.numBits}
    (h : unpack spec b ≠ .notANumber) : IsNumber spec (unpack spec b) := by
  rw [← unpack_pack_unpack b hspec]
  exact (unpack_pack_spec hspec (inForm_unpack b) h).1

theorem roundedTo_spec (hspec : 2 ≤ spec.exponentBits) (s : Sign) {q : ℚ} (hq : 0 < q) :
    let v := unpack spec (UnpackedFloat.pack spec (roundedTo spec s q))
    IsNumber spec v ∧ rankOf spec v = s.apply ((formatOf spec).rounded q : Nat) := by
  intro v
  obtain ⟨n, hn, h⟩ := @exists_settles_roundedTo spec s q hq
  obtain ⟨hnumber, hsign, hdistance⟩ := unpack_pack_spec hspec h.inForm h.ne_notANumber
  refine ⟨hnumber, ?_⟩
  rw [rankOf, hsign, hdistance, h.isNegative_eq, h.distance_eq, hn]
  cases s <;> rfl

/-- What the machine makes of a value is the number nearest to it. -/
theorem ofRat_spec (hspec : 2 ≤ spec.exponentBits) (q : ℚ) :
    let v := unpack spec (UnpackedFloat.pack spec (ofRat spec q))
    IsNumber spec v ∧ rankOf spec v = (formatOf spec).nearestRank q := by
  rcases lt_trichotomy q 0 with hneg | rfl | hpos
  · rw [ofRat, if_pos hneg, Format.nearestRank, if_pos hneg]
    exact roundedTo_spec hspec .negative (neg_pos.mpr hneg)
  · have hzero : unpack spec (UnpackedFloat.pack spec (.zero .positive)) = .zero .positive :=
      unpack_packedZero
    rw [ofRat_zero, hzero, Format.nearestRank, if_neg (lt_irrefl 0)]
    exact ⟨trivial, rfl⟩
  · rw [ofRat, if_neg hpos.not_gt, if_neg hpos.ne', Format.nearestRank, if_neg hpos.not_gt]
    exact roundedTo_spec hspec .positive hpos

/-- What is below a value that came out is below all that came out of larger values. -/
theorem compare_ofRat_mono (hspec : 2 ≤ spec.exponentBits) {q q' : ℚ} (h : q ≤ q')
    {u : UnpackedFloat} (hu : u = .notANumber ∨ IsNumber spec u)
    (hlt : u.compare (unpack spec (UnpackedFloat.pack spec (ofRat spec q))) = some .lt) :
    u.compare (unpack spec (UnpackedFloat.pack spec (ofRat spec q'))) = some .lt := by
  rcases hu with rfl | hu
  · cases hlt
  · obtain ⟨hv, hrank⟩ := ofRat_spec hspec q
    obtain ⟨hv', hrank'⟩ := ofRat_spec hspec q'
    rw [compare_eq_lt_iff hu hv, hrank] at hlt
    rw [compare_eq_lt_iff hu hv', hrank']
    exact hlt.trans_le ((formatOf spec).nearestRank_mono h)

end Patchbay.Binary.Machine
