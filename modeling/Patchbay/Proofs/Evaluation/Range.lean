import Patchbay.Evaluation
import Patchbay.Proofs.Binary.Arithmetic
import Patchbay.Proofs.Value.Order

/-!
# The range of a cycler

The remainder that a number cycler adds to the lower end of its range is nearer to zero than the
length of the range, rounded as it is. No number lies between the exact length and the rounded one,
so that the remainder is within the exact length too, and what is rounded after that stays between
the ends (`Double.wrap_in_range`). But a remainder has the sign of the dividend: at a rate below
zero the cycler runs through the range below the lower end instead
(`NodeKind.numberCycler_in_range`).
-/

namespace Patchbay

open Binary Binary.Machine

namespace Double

/-- Whether a number is at most another. -/
def atMost (x y : Double) : Bool := (x.order? y).any (·.isLE)

variable {x y low high along : Double}

theorem atMost_iff (hx : x.isNaN = false) (hy : y.isNaN = false) :
    x.atMost y = true ↔ x.rank ≤ y.rank := by
  rw [atMost, order?, hx, hy, Bool.or_self, if_neg Bool.false_ne_true, Option.any_some,
    Ordering.isLE_iff_ne_gt]
  exact compare_gt_iff_gt.not.trans not_lt

theorem toRat_lt_toRat (hx : x.isFinite = true) (hy : y.isFinite = true) (h : x.rank < y.rank) :
    x.toRat < y.toRat := by
  by_contra hle
  have hmono := nearestRank_mono (not_lt.mp hle)
  rw [nearestRank_toRat hx, nearestRank_toRat hy] at hmono
  omega

/-- Every value is a multiple of the smallest one. -/
theorem exists_toRat_eq (x : Double) :
    ∃ k : Int, x.toRat = k * 2 ^ Format.double.minExponent := by
  rw [toRat, Format.double.value_eq_multiple (Format.double.minExponent_le_parts x.magnitude)]
  cases x.isNegative with
  | false => exact ⟨_, by rw [if_neg Bool.false_ne_true, ← Int.cast_natCast]⟩
  | true => exact ⟨_, by rw [if_pos rfl, ← neg_mul, ← Int.cast_natCast, ← Int.cast_neg]⟩

/-- A difference that is not zero is not lost in rounding. -/
theorem one_le_nearestRank_sub (h : x.toRat < y.toRat) : 1 ≤ nearestRank (y.toRat - x.toRat) := by
  obtain ⟨k, hk⟩ := exists_toRat_eq x
  obtain ⟨n, hn⟩ := exists_toRat_eq y
  have hunit : Format.double.value 1 = 2 ^ Format.double.minExponent := by
    rw [Format.value, show Format.double.parts 1 = (1, Format.double.minExponent) by decide,
      Nat.cast_one, one_mul]
  rw [hk, hn] at h ⊢
  have hlt : k + 1 ≤ n := by
    exact_mod_cast lt_of_mul_lt_mul_right h (two_zpow_pos _).le
  have hle : Format.double.value 1 ≤
      n * 2 ^ Format.double.minExponent - k * 2 ^ Format.double.minExponent := by
    have hstep : (1 : ℚ) ≤ n - k := by
      have hlt' : (k + 1 : ℚ) ≤ n := by exact_mod_cast hlt
      linarith
    rw [hunit, ← sub_mul]
    exact le_mul_of_one_le_left (two_zpow_pos _).le hstep
  have hmono := nearestRank_mono hle
  rwa [nearestRank_value (by decide)] at hmono

theorem magnitude_eq_of_rank_pos (h : 0 < x.rank) :
    x.isNegative = false ∧ (x.magnitude : Int) = x.rank := by
  unfold rank at h ⊢
  cases hneg : x.isNegative with
  | false => exact ⟨rfl, rfl⟩
  | true =>
    rw [hneg, if_pos rfl] at h
    omega

theorem magnitude_eq_zero_of_rank_nonpos (h : x.rank ≤ 0) (hsign : x.isNegative = false) :
    x.magnitude = 0 := by
  rw [rank, hsign, if_neg Bool.false_ne_true] at h
  omega

theorem magnitude_eq_zero_of_rank_nonneg (h : 0 ≤ x.rank) (hsign : x.isNegative = true) :
    x.magnitude = 0 := by
  rw [rank, hsign, if_pos rfl] at h
  omega

theorem rank_mul_nonneg (hx : x.isNegative = false) (hy : 0 ≤ y.rank)
    (h : (x * y).isNaN = false) : 0 ≤ (x * y).rank := by
  have hsign := isNegative_mul h
  rw [hx, Bool.false_bne] at hsign
  rw [rank, hsign]
  cases hneg : y.isNegative with
  | false => exact Int.natCast_nonneg _
  | true =>
    rw [magnitude_mul_zero (magnitude_eq_zero_of_rank_nonneg hy hneg) h]
    decide

theorem rank_mul_nonpos (hx : x.isNegative = false) (hy : y.rank < 0)
    (h : (x * y).isNaN = false) : (x * y).rank ≤ 0 := by
  have hsign := isNegative_mul h
  rw [hx, Bool.false_bne] at hsign
  have hneg : y.isNegative = true := by
    by_contra hpos
    rw [rank, if_neg hpos] at hy
    omega
  rw [rank, hsign, hneg, if_pos rfl]
  omega

theorem neg_infinity_le_rank (h : x.isNaN = false) :
    -(Format.double.infinity : Int) ≤ x.rank := by
  have hle := isNaN_eq_false_iff.mp h
  unfold rank
  split <;> omega

/-! ## The length of a range -/

/-- The rounded length of a range is a positive number, finite or not. -/
theorem length_spec (hlow : low.isFinite = true) (hhigh : high.isFinite = true)
    (hrange : low.rank < high.rank) :
    (high - low).isNaN = false ∧ (high - low).isNegative = false ∧
      (high - low).magnitude ≠ 0 ∧
      ((high - low).magnitude : Int) = nearestRank (high.toRat - low.toRat) := by
  obtain ⟨hnumber, hrank⟩ := rank_sub hhigh hlow
  have hpos := one_le_nearestRank_sub (toRat_lt_toRat hlow hhigh hrange)
  rw [← hrank] at hpos
  obtain ⟨hsign, hmagnitude⟩ := magnitude_eq_of_rank_pos (x := high - low) (by omega)
  exact ⟨hnumber, hsign, by omega, hmagnitude.trans hrank⟩

/-- A number nearer to zero than the rounded length of a range is no longer than the exact one. -/
theorem value_le_length (hlow : low.isFinite = true) (hhigh : high.isFinite = true)
    (hrange : low.rank < high.rank) {m : Nat} (hm : m < (high - low).magnitude) :
    Format.double.value m ≤ high.toRat - low.toRat := by
  obtain ⟨hnumber, -, -, hlength⟩ := length_spec hlow hhigh hrange
  have hfinite := hm.trans_le (isNaN_eq_false_iff.mp hnumber)
  by_contra hlt
  have hmono := nearestRank_mono (not_le.mp hlt).le
  rw [nearestRank_value hfinite, ← hlength] at hmono
  omega

/-! ## Wrapping a number into a range -/

/-- A number wrapped into a range, as far as a remainder does that. -/
def wrap (low high along : Double) : Double := low + along % (high - low)

/-- What a remainder adds to the lower end, at either sign. -/
theorem wrap_spec (hlow : low.isFinite = true) (hhigh : high.isFinite = true)
    (halong : along.isFinite = true) (hrange : low.rank < high.rank) :
    ∃ m, m < (high - low).magnitude ∧ m ≤ along.magnitude ∧
      (wrap low high along).isNaN = false ∧
      (wrap low high along).rank = nearestRank (low.toRat +
        if along.isNegative then -Format.double.value m else Format.double.value m) := by
  obtain ⟨hnumber, -, hzero, -⟩ := length_spec hlow hhigh hrange
  obtain ⟨hsign, hlt, hle⟩ := remainder_spec halong hnumber hzero
  have hfinite : (along % (high - low)).isFinite = true :=
    isFinite_iff.mpr (hlt.trans_le (isNaN_eq_false_iff.mp hnumber))
  obtain ⟨hwrapped, hrank⟩ := rank_add hlow hfinite
  refine ⟨_, hlt, hle, hwrapped, ?_⟩
  rw [← hsign]
  exact hrank

/-- Forwards a number is wrapped into the range. -/
theorem wrap_between (hlow : low.isFinite = true) (hhigh : high.isFinite = true)
    (halong : along.isFinite = true) (hrange : low.rank < high.rank) (hforward : 0 ≤ along.rank) :
    low.atMost (wrap low high along) = true ∧ (wrap low high along).atMost high = true := by
  obtain ⟨m, hm, hle, hnumber, hrank⟩ := wrap_spec hlow hhigh halong hrange
  rw [atMost_iff (isNaN_of_isFinite hlow) hnumber, atMost_iff hnumber (isNaN_of_isFinite hhigh)]
  have hsigned : (if along.isNegative then -Format.double.value m else Format.double.value m) =
      Format.double.value m := by
    cases hsign : along.isNegative with
    | false => rfl
    | true =>
      rw [magnitude_eq_zero_of_rank_nonneg hforward hsign, Nat.le_zero] at hle
      rw [hle, Format.value_zero, neg_zero, ite_self]
  have hlength := value_le_length hlow hhigh hrange hm
  have hpos := Format.double.value_nonneg m
  rw [hrank, hsigned, ← nearestRank_toRat hlow, ← nearestRank_toRat hhigh]
  exact ⟨nearestRank_mono (by linarith), nearestRank_mono (by linarith)⟩

/-- Backwards it is wrapped into as long a range below. -/
theorem wrap_below (hlow : low.isFinite = true) (hhigh : high.isFinite = true)
    (halong : along.isFinite = true) (hrange : low.rank < high.rank) (hback : along.rank ≤ 0) :
    (low - (high - low)).atMost (wrap low high along) = true ∧
      (wrap low high along).atMost low = true := by
  obtain ⟨m, hm, hle, hnumber, hrank⟩ := wrap_spec hlow hhigh halong hrange
  obtain ⟨hlength, hpositive, -, -⟩ := length_spec hlow hhigh hrange
  have hsigned : (if along.isNegative then -Format.double.value m else Format.double.value m) =
      -Format.double.value m := by
    cases hsign : along.isNegative with
    | false =>
      rw [magnitude_eq_zero_of_rank_nonpos hback hsign, Nat.le_zero] at hle
      rw [hle, Format.value_zero, neg_zero, ite_self]
    | true => rfl
  rw [hsigned] at hrank
  refine ⟨?_, ?_⟩
  · rcases (isNaN_eq_false_iff.mp hlength).lt_or_eq with hfinite | hinfinite
    · obtain ⟨hdifference, hlowest⟩ := rank_sub hlow (isFinite_iff.mpr hfinite)
      have hlt := Format.double.value_lt_value hfinite hm
      have hvalue : (high - low).toRat = Format.double.value (high - low).magnitude := by
        rw [toRat, hpositive, if_neg Bool.false_ne_true]
      rw [atMost_iff hdifference hnumber, hlowest, hrank, hvalue]
      exact nearestRank_mono (by linarith)
    · -- the length overflows, and nothing is below its opposite
      obtain ⟨hdifference, hlowest⟩ := rank_sub_infinite hlow hinfinite hpositive
      rw [atMost_iff hdifference hnumber, hlowest]
      exact neg_infinity_le_rank hnumber
  · have hpos := Format.double.value_nonneg m
    rw [atMost_iff hnumber (isNaN_of_isFinite hlow), hrank, ← nearestRank_toRat hlow]
    exact nearestRank_mono (by linarith)

end Double

/-! ## The cycler -/

/--
While it is on, a number cycler with finite ends, the lower below the higher, and a finite rate
gives a number whenever the way it has come is finite. At a rate that is not below zero the number
lies between the ends. At a rate below zero it lies within as long a range below the lower end,
since the remainder has the sign of the way.
-/
theorem NodeKind.numberCycler_in_range (inputs : List Value) (now : Instant) (random : Random)
    (output : Value) (state : NodeState) (hon : isOn inputs = true) :
    let low := (inputAt inputs 1).toNumber
    let high := (inputAt inputs 2).toNumber
    let rate := (inputAt inputs 3).toNumber
    let elapsed := now.secondsSince (state.cycleStarted.getD now)
    low.isFinite = true → high.isFinite = true → rate.isFinite = true →
      low.order? high = some .lt → (elapsed * rate).isFinite = true →
      ∃ x, (NodeKind.numberCycler.evaluate inputs now random output state).output = .number x ∧
        (rate.order? 0 ≠ some .lt → low.atMost x = true ∧ x.atMost high = true) ∧
        (rate.order? 0 = some .lt →
          (low - (high - low)).atMost x = true ∧ x.atMost low = true) := by
  intro low high rate elapsed hlow hhigh hrate hrange hproduct
  have houtput : (NodeKind.numberCycler.evaluate inputs now random output state).output =
      .number (low.wrap high (elapsed * rate)) := by
    change (NodeKind.cycle inputs now state).1 = _
    rw [NodeKind.cycle, if_pos hon]
    rfl
  rw [Double.order?_eq_lt_iff (Double.isNaN_of_isFinite hlow) (Double.isNaN_of_isFinite hhigh)]
    at hrange
  have hbackwards : rate.order? 0 = some .lt ↔ rate.rank < 0 :=
    Double.order?_eq_lt_iff (Double.isNaN_of_isFinite hrate) (by decide)
  have helapsed := now.isNegative_secondsSince (state.cycleStarted.getD now)
  have hnumber := Double.isNaN_of_isFinite hproduct
  refine ⟨_, houtput, fun hforward => ?_, fun hback => ?_⟩
  · have hrank : 0 ≤ rate.rank := not_lt.mp fun hlt => hforward (hbackwards.mpr hlt)
    exact Double.wrap_between hlow hhigh hproduct hrange
      (Double.rank_mul_nonneg helapsed hrank hnumber)
  · exact Double.wrap_below hlow hhigh hproduct hrange
      (Double.rank_mul_nonpos helapsed (hbackwards.mp hback) hnumber)

/-- Three seconds at a rate of one half: once through the range from zero to one, and a half. -/
theorem NodeKind.numberCycler_in_range_again :
    let inputs : List Value := [.bool true, .number 0, .number 1, .number 0.5]
    let state : NodeState := { cycleStarted := some ⟨0⟩ }
    let now : Instant := ⟨3000000000⟩
    isOn inputs = true ∧ Double.order? 0 1 = some .lt ∧
      ((now.secondsSince ⟨0⟩ : Double) * 0.5).isFinite = true ∧
      ∃ x, (NodeKind.numberCycler.evaluate inputs now (.ofSeed 1) .unset state).output =
          .number x ∧ Double.atMost 0 x = true ∧ x.atMost 1 = true := by
  intro inputs state now
  have hon : isOn inputs = true := by decide
  have hrange : Double.order? 0 1 = some .lt := by decide +kernel
  have hproduct : ((now.secondsSince ⟨0⟩ : Double) * 0.5).isFinite = true := by decide +kernel
  obtain ⟨x, houtput, hforward, -⟩ := numberCycler_in_range inputs now (.ofSeed 1) .unset state hon
    (by decide +kernel) (by decide +kernel) (by decide +kernel) hrange hproduct
  exact ⟨hon, hrange, hproduct, x, houtput, hforward (by decide +kernel)⟩

/-- One second backwards at a rate of one half: below the range from zero to one. -/
theorem NodeKind.numberCycler_below_range :
    let backwards : Double := ⟨0xBFE0000000000000⟩
    let inputs : List Value := [.bool true, .number 0, .number 1, .number backwards]
    let state : NodeState := { cycleStarted := some ⟨0⟩ }
    let now : Instant := ⟨1000000000⟩
    isOn inputs = true ∧ Double.order? 0 1 = some .lt ∧ backwards.isFinite = true ∧
      (now.secondsSince ⟨0⟩ * backwards).isFinite = true ∧
      (NodeKind.numberCycler.evaluate inputs now (.ofSeed 1) .unset state).output =
        .number backwards ∧
      backwards.order? 0 = some .lt ∧ Double.atMost 0 backwards = false := by
  decide +kernel

end Patchbay
