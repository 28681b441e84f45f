import Mathlib
import Patchbay.Proofs.Binary.Nearest

/-!
# Rounding by the machine

The machine works on unpacked numbers: a sign, a mantissa and an exponent. Of the digits that it
shifts out of a mantissa it keeps one bit and whether there was anything below it, which is enough
to round to nearest (`Stands.roundedMantissa`). So what it makes of a mantissa and an exponent is
settled by their value (`round_eq_roundedTo`), and is as far from zero as `Format.rounded` says
(`exists_settles_roundedTo`). All this holds in every format.
-/

open Float.Model (UnpackedFloat totalExponent)
open Float.Model.UnpackedFloat

namespace Patchbay.Binary.Machine

/-! ## Digits that are shifted out -/

/-- The number that a mantissa with its two bits stands for, as far as they tell. -/
def Stands (m : ExtendedMantissa) (r : ℚ) : Prop :=
  let rest := r - m.mantissa - if m.roundBit then 1 / 2 else 0
  if m.stickyBit then 0 < rest ∧ rest < 1 / 2 else rest = 0

theorem stands_exact (n : Nat) : Stands (.ofMantissaAndAccuracy n .exact) n := by
  simp [Stands, ExtendedMantissa.ofMantissaAndAccuracy]

theorem Stands.shiftRightOne {m : ExtendedMantissa} {r : ℚ} (h : Stands m r) :
    Stands m.shiftRightOne (r / 2) := by
  obtain ⟨n, high, low⟩ := m
  have hsplit : (n : ℚ) = 2 * (n / 2 : Nat) + (n % 2 : Nat) := by
    exact_mod_cast (Nat.div_add_mod n 2).symm
  have hbit : (if n % 2 != 0 then 1 / 2 else 0 : ℚ) = (n % 2 : Nat) / 2 := by
    rcases Nat.mod_two_eq_zero_or_one n with h | h <;> simp [h]
  unfold Stands ExtendedMantissa.shiftRightOne at *
  dsimp only at h ⊢
  rw [hbit]
  cases high <;> cases low <;> simp at h ⊢ <;> (try constructor) <;> linarith

theorem Stands.shiftRight {m : ExtendedMantissa} {r : ℚ} (h : Stands m r) (k : Nat) :
    Stands (m >>> k) (r / 2 ^ k) := by
  change Stands (k.repeat ExtendedMantissa.shiftRightOne m) _
  induction k with
  | zero => simpa [Nat.repeat] using h
  | succ k ih =>
    rw [Nat.repeat, pow_succ, ← div_div]
    exact ih.shiftRightOne

theorem Stands.floor {m : ExtendedMantissa} {r : ℚ} (h : Stands m r) : ⌊r⌋₊ = m.mantissa := by
  obtain ⟨n, high, low⟩ := m
  have hbounds : (n : ℚ) ≤ r ∧ r < n + 1 := by
    unfold Stands at h
    cases high <;> cases low <;> simp at h <;> constructor <;> linarith
  exact (Nat.floor_eq_iff ((Nat.cast_nonneg n).trans hbounds.1)).mpr hbounds

/-- The two bits decide which natural number is nearest. -/
theorem Stands.roundedMantissa {m : ExtendedMantissa} {r : ℚ} (h : Stands m r) :
    m.roundedMantissa = nearest r := by
  have hfloor := h.floor
  obtain ⟨n, high, low⟩ := m
  unfold Stands at h
  rw [nearest, hfloor]
  dsimp only at h ⊢
  cases high with
  | false =>
    have hlow : r - n < 1 / 2 := by cases low <;> simp at h <;> linarith
    rw [if_pos hlow]
    cases low <;> rfl
  | true =>
    cases low with
    | false =>
      have hhalf : r - n = 1 / 2 := by
        simp at h
        linarith
      rw [if_neg hhalf.not_lt, if_pos hhalf]
      rfl
    | true =>
      have hhigh : 1 / 2 < r - n := by
        simp at h
        linarith
      rw [if_neg hhigh.not_gt, if_neg hhigh.ne']
      rfl

/-! ## Shifts -/

variable {spec : Float.Model.Format}

/-- A shift to a place, and its two bits, round to nearest there. -/
theorem roundedMantissa_shift (m : Nat) {e p : Int} (hp : e ≤ p) :
    (shiftToExponent m e .exact p).1.roundedMantissa = nearest (m * 2 ^ e / 2 ^ p) := by
  have hscaled : (m * 2 ^ e / 2 ^ p : ℚ) = m / 2 ^ (p - e).toNat := by
    rw [← zpow_natCast, Int.toNat_of_nonneg (by omega), zpow_sub₀ (by norm_num)]
    field_simp
  rw [hscaled]
  exact ((stands_exact m).shiftRight (p - e).toNat).roundedMantissa

theorem decreaseExponent_spec (m : Nat) (e p : Int) :
    ((decreaseExponent m e p).1 : ℚ) * 2 ^ (decreaseExponent m e p).2 = m * 2 ^ e ∧
      (decreaseExponent m e p).2 = min e p := by
  have hexponent : (decreaseExponent m e p).2 = min e p := by
    change e - ((e - p).toNat : Int) = _
    omega
  refine ⟨?_, hexponent⟩
  rw [hexponent]
  change ((m <<< (e - p).toNat : Nat) : ℚ) * 2 ^ min e p = _
  rw [Nat.shiftLeft_eq, Nat.cast_mul, Nat.cast_pow, Nat.cast_ofNat, ← zpow_natCast, mul_assoc,
    ← zpow_add₀ (by norm_num)]
  congr 2
  omega

theorem decreaseExponent_pos {m : Nat} (hm : 0 < m) (e p : Int) :
    0 < (decreaseExponent m e p).1 := by
  change 0 < m <<< (e - p).toNat
  rw [Nat.shiftLeft_eq]
  exact Nat.mul_pos hm (Nat.two_pow_pos _)

/-- Nothing is shifted out of a mantissa that is no longer than its format keeps. -/
theorem shiftToTargetExponent_of_le {m : Nat} {e : Int}
    (h : spec.targetExponent (totalExponent m e) ≤ e) :
    shiftToTargetExponent spec m e .exact = (⟨m, false, false⟩, e) := by
  have hshift : (spec.targetExponent (totalExponent m e) - e).toNat = 0 := by omega
  rw [shiftToTargetExponent, shiftToExponent, hshift, Nat.cast_zero, add_zero]
  rfl

theorem shiftToTargetExponent_carry {e : Int} (he : spec.minExponent ≤ e) :
    shiftToTargetExponent spec (2 ^ (spec.mantissaBitsWithoutImplicit + 1)) e .exact =
      (⟨2 ^ spec.mantissaBitsWithoutImplicit, false, false⟩, e + 1) := by
  have hshift : (spec.targetExponent
      (totalExponent (2 ^ (spec.mantissaBitsWithoutImplicit + 1)) e) - e).toNat = 1 := by
    rw [totalExponent, Float.Model.Format.targetExponent, Float.Model.Format.mantissaBits,
      Nat.log2_two_pow]
    omega
  rw [shiftToTargetExponent, shiftToExponent, hshift, Nat.pow_succ]
  change ((ExtendedMantissa.mk (_ * 2) false false).shiftRightOne, _) = _
  simp [ExtendedMantissa.shiftRightOne]

/-! ## The last place of a value -/

/-- The bits of a format. -/
def formatOf (spec : Float.Model.Format) : Format :=
  ⟨spec.mantissaBitsWithoutImplicit, spec.exponentBits⟩

theorem minExponent_formatOf (spec : Float.Model.Format) :
    (formatOf spec).minExponent = spec.minExponent := by
  rw [Format.minExponent, Float.Model.Format.minExponent, Float.Model.Format.mantissaBits]
  push_cast [Nat.pow_eq, formatOf]
  ring

/-- The exponent of the last place that a format keeps of a positive value. -/
def lastPlace (spec : Float.Model.Format) (q : ℚ) : Int :=
  spec.targetExponent (Int.log 2 q + 1)

theorem totalExponent_eq {m : Nat} (hm : 0 < m) (e : Int) :
    totalExponent m e = Int.log 2 ((m : ℚ) * 2 ^ e) + 1 := by
  have hm' : (0 : ℚ) < m := by exact_mod_cast hm
  have hlog : Int.log 2 ((m : ℚ) * 2 ^ e) = m.log2 + e := by
    rw [Nat.log2_eq_log_two, ← Int.log_natCast (R := ℚ)]
    exact_mod_cast log_mul_zpow (by decide : 1 < 2) hm' e
  rw [hlog, totalExponent]
  ring

theorem targetExponent_totalExponent {m : Nat} (hm : 0 < m) (e : Int) :
    spec.targetExponent (totalExponent m e) = lastPlace spec (m * 2 ^ e) :=
  congrArg spec.targetExponent (totalExponent_eq hm e)

theorem lastPlace_eq_place (spec : Float.Model.Format) (q : ℚ) :
    lastPlace spec q = (formatOf spec).place q := by
  rw [lastPlace, Float.Model.Format.targetExponent, Format.place, minExponent_formatOf,
    Float.Model.Format.mantissaBits]
  change max _ _ = max (Int.log 2 q - spec.mantissaBitsWithoutImplicit) _
  push_cast
  congr 1
  ring

/-! ## Rounding looks at the value -/

/-- A rounded mantissa moved to its place, or zero. -/
def settleIn (spec : Float.Model.Format) (s : Sign) (m : Nat) (e : Int) : UnpackedFloat :=
  let (m, e) := shiftToTargetExponent spec m e .exact
  if h : m.mantissa = 0 then .zero s else .finite s m.mantissa e (Nat.pos_of_ne_zero h)

/-- What the machine makes of a positive value. -/
def roundedTo (spec : Float.Model.Format) (s : Sign) (q : ℚ) : UnpackedFloat :=
  settleIn spec s (nearest (q / 2 ^ lastPlace spec q)) (lastPlace spec q)

theorem round_eq_roundedTo (s : Sign) {m : Nat} (hm : 0 < m) (e : Int) :
    UnpackedFloat.round spec s m e = roundedTo spec s (m * 2 ^ e) := by
  obtain ⟨p, hplace⟩ : ∃ p, lastPlace spec (m * 2 ^ e : ℚ) = p := ⟨_, rfl⟩
  obtain ⟨hvalue, hexponent⟩ := decreaseExponent_spec m e p
  have hpos := decreaseExponent_pos hm e p
  have hround : UnpackedFloat.round spec s m e = roundWithAccuracy spec s
      (decreaseExponent m e p).1 (decreaseExponent m e p).2 .exact := by
    rw [← hplace, ← targetExponent_totalExponent hm e]
    rfl
  rw [hround, roundedTo, hplace, ← hvalue]
  rw [← hvalue] at hplace
  generalize decreaseExponent m e p = x at hexponent hpos hplace ⊢
  have hp : x.2 ≤ p := hexponent.trans_le (min_le_right _ _)
  -- the first shift goes to the last place, and the bits round it there
  have hfirst : shiftToTargetExponent spec x.1 x.2 .exact = shiftToExponent x.1 x.2 .exact p :=
    congrArg (shiftToExponent x.1 x.2 .exact)
      ((targetExponent_totalExponent hpos x.2).trans hplace)
  have hshift : (shiftToExponent x.1 x.2 .exact p).2 = p := by
    change x.2 + ((p - x.2).toNat : Int) = p
    omega
  calc roundWithAccuracy spec s x.1 x.2 .exact
      = settleIn spec s (shiftToTargetExponent spec x.1 x.2 .exact).1.roundedMantissa
          (shiftToTargetExponent spec x.1 x.2 .exact).2 := rfl
    _ = settleIn spec s (nearest (x.1 * 2 ^ x.2 / 2 ^ p)) p := by
      rw [hfirst, hshift, roundedMantissa_shift x.1 hp]

/-! ## The form of a format -/

/-- The form in which a format keeps finite numbers: the exponent is that of the last place. -/
def InForm (spec : Float.Model.Format) : UnpackedFloat → Prop
  | .finite _ m e _ => spec.targetExponent (totalExponent m e) = e
  | _ => True

theorem inForm_finite_iff {s : Sign} {m : Nat} {e : Int} {hm : 0 < m} :
    InForm spec (.finite s m e hm) ↔
      m < 2 ^ (spec.mantissaBitsWithoutImplicit + 1) ∧ spec.minExponent ≤ e ∧
        (2 ^ spec.mantissaBitsWithoutImplicit ≤ m ∨ e = spec.minExponent) := by
  rw [← Nat.log2_lt hm.ne', ← Nat.le_log2 hm.ne', InForm, totalExponent,
    Float.Model.Format.targetExponent, Float.Model.Format.mantissaBits]
  omega

/-- What stands at its last place is settled there. -/
theorem settleIn_of_lastPlace (s : Sign) {m : Nat} (hm : 0 < m) {e : Int}
    (h : lastPlace spec (m * 2 ^ e) = e) : settleIn spec s m e = .finite s m e hm := by
  have hlow : spec.targetExponent (totalExponent m e) ≤ e :=
    ((targetExponent_totalExponent hm e).trans h).le
  rw [settleIn, shiftToTargetExponent_of_le hlow]
  exact dif_neg hm.ne'

/-! ## Distance from zero -/

/-- Whether an unpacked number has the negative sign; what is no number has none. -/
def isNegative : UnpackedFloat → Bool
  | .notANumber => false
  | .infinity s | .zero s | .finite s _ _ _ => s == .negative

/-- How many numbers of a format lie from zero up to a mantissa at an exponent. -/
def position (spec : Float.Model.Format) (m : Nat) (e : Int) : Nat :=
  (e - spec.minExponent).toNat * 2 ^ spec.mantissaBitsWithoutImplicit + m

/-- How far a number is from zero, in numbers of the format. -/
def distance (spec : Float.Model.Format) : UnpackedFloat → Nat
  | .finite _ m e _ => position spec m e
  | .infinity _ => (formatOf spec).infinity
  | .zero _ | .notANumber => 0

/-- A number in the form of a format, with its sign and its distance from zero. -/
structure Settles (spec : Float.Model.Format) (s : Sign) (n : Nat) (u : UnpackedFloat) : Prop where
  inForm : InForm spec u
  ne_notANumber : u ≠ .notANumber
  isNegative_eq : isNegative u = (s == .negative)
  distance_eq : distance spec u = n

/-- A carry moves up by a place, which is the next position. -/
theorem settles_settleIn (s : Sign) {m : Nat}
    (hm : m ≤ 2 ^ (spec.mantissaBitsWithoutImplicit + 1)) {e : Int} (he : spec.minExponent ≤ e)
    (hfull : 2 ^ spec.mantissaBitsWithoutImplicit ≤ m ∨ e = spec.minExponent) :
    Settles spec s (position spec m e) (settleIn spec s m e) := by
  have hunit := Nat.two_pow_pos spec.mantissaBitsWithoutImplicit
  rcases hm.lt_or_eq with hlt | rfl
  · rcases Nat.eq_zero_or_pos m with rfl | hpos
    · obtain rfl := hfull.resolve_left (by omega)
      have hlow : spec.targetExponent (totalExponent 0 spec.minExponent) ≤ spec.minExponent := by
        rw [totalExponent, Float.Model.Format.targetExponent, Float.Model.Format.mantissaBits,
          Nat.log2_zero]
        omega
      have hzero : settleIn spec s 0 spec.minExponent = .zero s := by
        rw [settleIn, shiftToTargetExponent_of_le hlow]
        rfl
      have hposition : position spec 0 spec.minExponent = 0 := by simp [position]
      rw [hzero, hposition]
      exact ⟨trivial, nofun, rfl, rfl⟩
    · have hform : InForm spec (.finite s m e hpos) := inForm_finite_iff.mpr ⟨hlt, he, hfull⟩
      rw [settleIn_of_lastPlace s hpos ((targetExponent_totalExponent hpos e).symm.trans hform)]
      exact ⟨hform, nofun, rfl, rfl⟩
  · have hcarry : settleIn spec s (2 ^ (spec.mantissaBitsWithoutImplicit + 1)) e =
        .finite s (2 ^ spec.mantissaBitsWithoutImplicit) (e + 1) hunit := by
      rw [settleIn, shiftToTargetExponent_carry he]
      exact dif_neg hunit.ne'
    have hplaces : (e + 1 - spec.minExponent).toNat = (e - spec.minExponent).toNat + 1 := by
      omega
    have hbits : 2 ^ spec.mantissaBitsWithoutImplicit <
        2 ^ (spec.mantissaBitsWithoutImplicit + 1) := by
      rw [Nat.pow_succ]
      omega
    rw [hcarry]
    refine ⟨inForm_finite_iff.mpr ⟨hbits, by omega, .inl le_rfl⟩, nofun, rfl, ?_⟩
    rw [distance, position, hplaces, position]
    ring

theorem exists_settles_roundedTo (s : Sign) {q : ℚ} (hq : 0 < q) :
    ∃ n, min n (formatOf spec).infinity = (formatOf spec).rounded q ∧
      Settles spec s n (roundedTo spec s q) := by
  have hlow := (formatOf spec).nearest_div_place_le hq
  have hhigh := (formatOf spec).le_nearest_div_place hq
  have hmin := (formatOf spec).minExponent_le_place q
  rw [roundedTo, (formatOf spec).rounded_of_pos hq]
  rw [minExponent_formatOf, ← lastPlace_eq_place] at *
  refine ⟨_, rfl, settles_settleIn s hlow hmin ?_⟩
  rcases hmin.eq_or_lt with heq | hlt
  · exact .inr heq.symm
  · exact .inl (hhigh hlt)

end Patchbay.Binary.Machine
