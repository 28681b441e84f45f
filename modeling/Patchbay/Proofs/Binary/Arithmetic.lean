import Patchbay.Binary.Remainder
import Patchbay.Instant
import Patchbay.Proofs.Binary.Packing
import Patchbay.Proofs.Binary.Remainder

/-!
# Arithmetic of numbers

A sum or a difference of finite numbers is the number nearest to the sum or difference of their
values (`Double.rank_add`, `Double.rank_sub`). Of products and quotients only the signs are told.
A remainder is nearer to zero than the divisor, and on the side of the dividend.
-/

open Float.Model (UnpackedFloat)
open Float.Model.UnpackedFloat

namespace Patchbay

namespace Binary.Machine

/-! ## Sums and differences -/

/-- The value of an unpacked number, if it is finite. -/
def toRat? : UnpackedFloat → Option ℚ
  | .zero _ => some 0
  | .finite s m e _ => some ((s.apply m : Int) * 2 ^ e)
  | _ => none

/-- A finite number in the form of the machine, with its value. -/
structure Exact (u : UnpackedFloat) (q : ℚ) : Prop extends Nearest u q where
  toRat_eq : toRat? u = some q

theorem nearestRank_zero : nearestRank 0 = 0 := by
  rw [nearestRank, if_neg (lt_irrefl 0), Format.rounded, if_pos rfl, Nat.cast_zero]

theorem nearestRank_neg (q : ℚ) : nearestRank (-q) = -nearestRank q := by
  rcases lt_trichotomy q 0 with hneg | rfl | hpos
  · rw [nearestRank, if_neg (by linarith), nearestRank, if_pos hneg, neg_neg]
  · rw [neg_zero, nearestRank_zero, neg_zero]
  · rw [nearestRank, if_pos (by linarith), neg_neg, nearestRank, if_neg hpos.not_gt]

theorem rank_zero (s : Sign) : rank (.zero s) = 0 := by cases s <;> rfl

theorem nearest_zero (s : Sign) : Nearest (.zero s) 0 :=
  ⟨trivial, Nat.zero_le _, (rank_zero s).trans nearestRank_zero.symm⟩

/-- A signed mantissa counted in units of a smaller exponent. -/
theorem apply_decreaseExponent (s : Sign) (m : Nat) {e p : Int} (hp : p ≤ e) :
    ((s.apply (decreaseExponent m e p).1 : Int) : ℚ) * 2 ^ p = (s.apply m : Int) * 2 ^ e := by
  obtain ⟨hvalue, hexponent⟩ := decreaseExponent_spec m e p
  rw [hexponent, min_eq_right hp] at hvalue
  cases s with
  | positive => simpa only [Sign.apply, Int.cast_natCast] using hvalue
  | negative =>
    simpa only [Sign.apply, Int.cast_neg, Int.cast_natCast, neg_mul, neg_inj] using hvalue

/-- Two signed mantissas are added up in units of the smaller exponent. -/
theorem apply_add_apply (s t : Sign) (m n : Nat) (e k : Int) :
    ((s.apply (decreaseExponent m e (min e k)).1 +
        t.apply (decreaseExponent n k (min e k)).1 : Int) : ℚ) * 2 ^ min e k =
      (s.apply m : Int) * 2 ^ e + (t.apply n : Int) * 2 ^ k := by
  rw [Int.cast_add, add_mul, apply_decreaseExponent s m (min_le_left e k),
    apply_decreaseExponent t n (min_le_right e k)]

theorem rank_neg (s : Sign) (m : Nat) (e : Int) (hm : 0 < m) :
    rank (.finite (-s) m e hm) = -rank (.finite s m e hm) := by
  have hsame : magnitude (.finite (-s) m e hm) = magnitude (.finite s m e hm) := rfl
  have hsign : (-s == .negative) = !(s == .negative) := by cases s <;> rfl
  rw [rank, rank, hsame, isNegative, isNegative, hsign]
  cases s == .negative
  · rw [Bool.not_false, if_pos rfl, if_neg Bool.false_ne_true]
  · rw [Bool.not_true, if_neg Bool.false_ne_true, if_pos rfl, neg_neg]

theorem Exact.neg {u : UnpackedFloat} {q : ℚ} (h : Exact u q) : Exact u.neg (-q) := by
  have hvalue := h.toRat_eq
  cases u with
  | notANumber | infinity s => cases hvalue
  | zero s =>
    obtain rfl := Option.some.inj hvalue
    rw [neg_zero]
    exact ⟨nearest_zero _, rfl⟩
  | finite s m e hm =>
    obtain rfl := Option.some.inj hvalue
    refine ⟨⟨h.canonical, h.magnitude_le, ?_⟩, ?_⟩
    · rw [nearestRank_neg, ← h.rank_eq]
      exact rank_neg s m e hm
    · rw [← neg_mul, ← Int.cast_neg, ← apply_neg]
      rfl

theorem nearest_add {u v : UnpackedFloat} {q r : ℚ} (hu : Exact u q) (hv : Exact v r) :
    Nearest (UnpackedFloat.add .binary64 u v) (q + r) := by
  have hq := hu.toRat_eq
  have hr := hv.toRat_eq
  cases u with
  | notANumber | infinity s => cases hq
  | zero s =>
    obtain rfl := Option.some.inj hq
    rw [zero_add]
    cases v with
    | notANumber | infinity t => cases hr
    | zero t =>
      obtain rfl := Option.some.inj hr
      cases s <;> cases t <;> exact nearest_zero _
    | finite t n k hn => exact hv.toNearest
  | finite s m e hm =>
    cases v with
    | notANumber | infinity t => cases hr
    | zero t =>
      obtain rfl := Option.some.inj hr
      rw [add_zero]
      exact hu.toNearest
    | finite t n k hn =>
      obtain rfl := Option.some.inj hq
      obtain rfl := Option.some.inj hr
      rw [← apply_add_apply s t m n e k]
      exact nearest_normalize _ _ _

/-! ## Signs -/

theorem isNegative_roundWithAccuracy (s : Sign) (m : Nat) (e : Int) (a : Accuracy) :
    isNegative (roundWithAccuracy .binary64 s m e a) = (s == .negative) := by
  unfold roundWithAccuracy
  dsimp only
  split <;> rfl

theorem isNegative_mul {u v : UnpackedFloat}
    (h : UnpackedFloat.mul .binary64 u v ≠ .notANumber) :
    isNegative (UnpackedFloat.mul .binary64 u v) = (isNegative u != isNegative v) := by
  have hsign (s t : Sign) : (s * t == .negative) = ((s == .negative) != (t == .negative)) := by
    cases s <;> cases t <;> rfl
  cases u with
  | notANumber => exact absurd rfl h
  | infinity s | zero s =>
    cases v with
    | notANumber => exact absurd rfl h
    | infinity t | zero t | finite t n k hn => first | exact absurd rfl h | exact hsign s t
  | finite s m e hm =>
    cases v with
    | notANumber => exact absurd rfl h
    | infinity t | zero t => exact hsign s t
    | finite t n k hn => exact (isNegative_roundWithAccuracy ..).trans (hsign s t)

theorem eq_positive {s : Sign} (h : (s == .negative) = false) : s = .positive := by
  cases s with
  | positive => rfl
  | negative => cases h

theorem isNegative_div {u v : UnpackedFloat} (hu : isNegative u = false)
    (hv : isNegative v = false) : isNegative (UnpackedFloat.div .binary64 u v) = false := by
  cases u with
  | notANumber => rfl
  | infinity s | zero s =>
    obtain rfl := eq_positive hu
    cases v with
    | notANumber => rfl
    | infinity t | zero t | finite t n k hn =>
      obtain rfl := eq_positive hv
      rfl
  | finite s m e hm =>
    obtain rfl := eq_positive hu
    cases v with
    | notANumber => rfl
    | infinity t | zero t =>
      obtain rfl := eq_positive hv
      rfl
    | finite t n k hn =>
      obtain rfl := eq_positive hv
      exact isNegative_roundWithAccuracy ..

theorem isNegative_add {u v : UnpackedFloat} (hu : isNegative u = false)
    (hv : isNegative v = false) : isNegative (UnpackedFloat.add .binary64 u v) = false := by
  cases u with
  | notANumber => rfl
  | infinity s | zero s =>
    obtain rfl := eq_positive hu
    cases v with
    | notANumber => rfl
    | infinity t | zero t | finite t n k hn =>
      obtain rfl := eq_positive hv
      rfl
  | finite s m e hm =>
    obtain rfl := eq_positive hu
    cases v with
    | notANumber => rfl
    | infinity t | zero t =>
      obtain rfl := eq_positive hv
      rfl
    | finite t n k hn =>
      obtain rfl := eq_positive hv
      have hm' := decreaseExponent_pos hm e (min e k)
      have hn' := decreaseExponent_pos hn k (min e k)
      have hsum : 0 < Sign.positive.apply ((decreaseExponent m e (min e k)).1 : Nat) +
          Sign.positive.apply ((decreaseExponent n k (min e k)).1 : Nat) := by
        simp only [Sign.apply]
        omega
      simp only [UnpackedFloat.add, UnpackedFloat.normalize, Int.compare_eq_gt.mpr hsum]
      exact isNegative_roundWithAccuracy ..

end Binary.Machine

/-! ## Numbers of eight bytes -/

namespace Double

open Binary Binary.Machine

/-- Whether it is neither an infinity nor no number. -/
def isFinite (x : Double) : Bool := x.magnitude < Format.double.infinity

/-- The value of a finite number. -/
def toRat (x : Double) : ℚ :=
  if x.isNegative then -Format.double.value x.magnitude else Format.double.value x.magnitude

variable {x y : Double}

theorem isFinite_iff : x.isFinite = true ↔ x.magnitude < Format.double.infinity :=
  decide_eq_true_iff

theorem isNaN_of_isFinite (h : x.isFinite = true) : x.isNaN = false :=
  isNaN_eq_false_iff.mpr (isFinite_iff.mp h).le

theorem nearestRank_toRat (h : x.isFinite = true) : nearestRank x.toRat = x.rank := by
  have hvalue := nearestRank_value (isFinite_iff.mp h)
  rw [toRat, rank]
  cases x.isNegative with
  | false => exact hvalue
  | true =>
    rw [if_pos rfl, nearestRank_neg, hvalue]
    rfl

theorem exact_unpacked (h : x.isFinite = true) : Exact (unpacked x) x.toRat := by
  have hfinite := isFinite_iff.mp h
  have hrank := nearestRank_toRat h
  by_cases hzero : x.magnitude = 0
  · have hvalue : x.toRat = 0 := by
      rw [toRat, hzero, Format.value_zero, neg_zero, ite_self]
    rw [unpacked_of_zero hzero, hvalue]
    exact ⟨nearest_zero _, rfl⟩
  · obtain ⟨hm, hunpacked⟩ := unpacked_of_finite hzero hfinite
    have hmagnitude : Machine.magnitude (unpacked x) = x.magnitude := by
      have hparts := Format.double.magnitude_of_parts x.magnitude
      rw [hunpacked, magnitude_finite]
      exact (congrArg (min · _) hparts).trans (min_eq_left hfinite.le)
    refine ⟨⟨?_, ?_, ?_⟩, ?_⟩
    · rw [hunpacked]
      refine ⟨Format.double.significand_lt _, Format.double.minExponent_le_parts _, ?_⟩
      rcases Format.double.parts_spec x.magnitude with ⟨-, hparts⟩ | ⟨-, hparts⟩
      · exact .inr (congrArg Prod.snd hparts)
      · rw [hparts]
        exact .inl (Nat.le_add_right _ _)
    · rw [hmagnitude]
      exact hfinite.le
    · rw [hrank, Machine.rank, hmagnitude, isNegative_unpacked (isNaN_of_isFinite h)]
      rfl
    · rw [hunpacked, Machine.toRat?, signOf, toRat, Format.value]
      cases x.isNegative with
      | false => rfl
      | true =>
        rw [if_pos rfl, if_pos rfl, Sign.apply, Int.cast_neg, neg_mul]
        rfl

theorem spec_of_nearest {u : UnpackedFloat} {q : ℚ} (h : Nearest u q) :
    (packed u).isNaN = false ∧ (packed u).rank = nearestRank q := by
  rw [isNaN_eq_false_iff, magnitude_packed h.canonical, rank, isNegative_packed,
    magnitude_packed h.canonical]
  exact ⟨h.magnitude_le, h.rank_eq⟩

theorem rank_add (hx : x.isFinite = true) (hy : y.isFinite = true) :
    (x + y).isNaN = false ∧ (x + y).rank = nearestRank (x.toRat + y.toRat) :=
  spec_of_nearest (nearest_add (exact_unpacked hx) (exact_unpacked hy))

theorem rank_sub (hx : x.isFinite = true) (hy : y.isFinite = true) :
    (x - y).isNaN = false ∧ (x - y).rank = nearestRank (x.toRat - y.toRat) := by
  have h := spec_of_nearest (nearest_add (exact_unpacked hx) (exact_unpacked hy).neg)
  rw [← Machine.sub_eq_add] at h
  rw [sub_eq_add_neg]
  exact h

/-- A finite number without an infinite one is the opposite infinity. -/
theorem rank_sub_infinite (hx : x.isFinite = true) (hy : y.magnitude = Format.double.infinity)
    (hpos : y.isNegative = false) :
    (x - y).isNaN = false ∧ (x - y).rank = -(Format.double.infinity : Int) := by
  have hdiff : UnpackedFloat.sub .binary64 (unpacked x) (.infinity .positive) =
      .infinity .negative := by
    by_cases hzero : x.magnitude = 0
    · rw [unpacked_of_zero hzero]
      rfl
    · obtain ⟨hm, hunpacked⟩ := unpacked_of_finite hzero (isFinite_iff.mp hx)
      rw [hunpacked]
      rfl
  have hsub : x - y = packed (.infinity .negative) := by
    rw [← hdiff]
    have hunpacked := unpacked_of_infinite hy
    rw [signOf, hpos, if_neg Bool.false_ne_true] at hunpacked
    rw [← hunpacked]
    rfl
  rw [hsub]
  decide +kernel

theorem ofParts_spec (negative : Bool) {m : Nat} (hm : m < signBit) :
    (ofParts negative m).isNegative = negative ∧ (ofParts negative m).magnitude = m := by
  refine parts_of_toNat_bits hm ?_
  rw [signBit] at hm ⊢
  rw [ofParts, signBit, UInt64.toNat_ofNat']
  refine Nat.mod_eq_of_lt ?_
  split <;> omega

theorem infinity_lt_signBit : Format.double.infinity < signBit := by decide

/-- A remainder has the sign of the dividend and is nearer to zero than the divisor. -/
theorem remainder_spec (hx : x.isFinite = true) (hy : y.isNaN = false) (hzero : y.magnitude ≠ 0) :
    (x % y).isNegative = x.isNegative ∧ (x % y).magnitude < y.magnitude ∧
      (x % y).magnitude ≤ x.magnitude := by
  have hfinite := isFinite_iff.mp hx
  have hle := isNaN_eq_false_iff.mp hy
  have hdefined : (x.isNaN || y.isNaN || x.isInfinite || y.isZero) = false := by
    have hplace : y.rank ≠ 0 := by
      unfold rank
      split <;> omega
    rw [isNaN_of_isFinite hx, hy, isInfinite, decide_eq_false hfinite.ne, isZero,
      beq_eq_false_iff_ne.mpr hplace]
    rfl
  change (remainder x y).isNegative = _ ∧ (remainder x y).magnitude < _ ∧
    (remainder x y).magnitude ≤ _
  rw [remainder, hdefined, if_neg Bool.false_ne_true]
  by_cases hinfinite : y.magnitude = Format.double.infinity
  · rw [if_pos (by simpa [isInfinite] using hinfinite)]
    exact ⟨rfl, hinfinite ▸ hfinite, le_rfl⟩
  · have hlt := hle.lt_of_ne hinfinite
    have hrest := Format.double.remainder_lt (a := x.magnitude) hlt hzero
    obtain ⟨hsign, hmagnitude⟩ :=
      ofParts_spec x.isNegative ((hrest.trans hlt).trans infinity_lt_signBit)
    rw [if_neg (by simpa [isInfinite] using hinfinite), hsign, hmagnitude]
    exact ⟨rfl, hrest, Format.double.remainder_le hfinite _⟩

theorem isNegative_unpacked_of_not (hx : x.isNegative = false) :
    Machine.isNegative (unpacked x) = false := by
  cases hnan : x.isNaN with
  | true =>
    rw [unpacked_of_isNaN hnan]
    rfl
  | false => rw [isNegative_unpacked hnan, hx]

theorem mul_ne_notANumber (h : (x * y).isNaN = false) :
    UnpackedFloat.mul .binary64 (unpacked x) (unpacked y) ≠ .notANumber := by
  intro hnan
  have hmul : x * y = packed (.notANumber) := by
    rw [← hnan]
    rfl
  rw [hmul] at h
  exact absurd h (by decide +kernel)

theorem isNaN_of_mul (h : (x * y).isNaN = false) : x.isNaN = false ∧ y.isNaN = false := by
  have hnumber := mul_ne_notANumber h
  constructor
  · rw [← Bool.not_eq_true]
    intro hnan
    rw [unpacked_of_isNaN hnan] at hnumber
    exact hnumber rfl
  · rw [← Bool.not_eq_true]
    intro hnan
    rw [unpacked_of_isNaN hnan] at hnumber
    cases hu : unpacked x <;> rw [hu] at hnumber <;> exact hnumber rfl

theorem isNegative_mul (h : (x * y).isNaN = false) :
    (x * y).isNegative = (x.isNegative != y.isNegative) := by
  obtain ⟨hx, hy⟩ := isNaN_of_mul h
  rw [← isNegative_unpacked hx, ← isNegative_unpacked hy,
    ← Machine.isNegative_mul (mul_ne_notANumber h)]
  exact isNegative_packed _

theorem magnitude_mul_zero (hy : y.magnitude = 0) (h : (x * y).isNaN = false) :
    (x * y).magnitude = 0 := by
  have hnumber := mul_ne_notANumber h
  rw [unpacked_of_zero hy] at hnumber
  obtain ⟨s, hmul⟩ :
      ∃ s, UnpackedFloat.mul .binary64 (unpacked x) (.zero (signOf y)) = .zero s := by
    cases hu : unpacked x with
    | notANumber | infinity s => exact absurd (by rw [hu]; rfl) hnumber
    | zero s | finite s m e hm => exact ⟨_, rfl⟩
  have hzero : x * y = packed (.zero s) := by
    rw [← hmul, ← unpacked_of_zero hy]
    rfl
  rw [hzero, magnitude_packed (u := .zero s) trivial]
  rfl

theorem isNegative_add (hx : x.isNegative = false) (hy : y.isNegative = false) :
    (x + y).isNegative = false :=
  (isNegative_packed _).trans (Machine.isNegative_add (isNegative_unpacked_of_not hx)
    (isNegative_unpacked_of_not hy))

theorem isNegative_div (hx : x.isNegative = false) (hy : y.isNegative = false) :
    (x / y).isNegative = false :=
  (isNegative_packed _).trans (Machine.isNegative_div (isNegative_unpacked_of_not hx)
    (isNegative_unpacked_of_not hy))

theorem isNegative_ofNat (n : Nat) : (ofNat n).isNegative = false := by
  refine (ofParts_spec false (lt_of_le_of_lt ?_ infinity_lt_signBit)).1
  rw [Format.double.round_eq_rounded _ one_ne_zero]
  exact Format.double.rounded_le_infinity _

end Double

/-- No time runs backwards. -/
theorem Instant.isNegative_secondsSince (now start : Instant) :
    (now.secondsSince start).isNegative = false :=
  Double.isNegative_add (Double.isNegative_ofNat _)
    (Double.isNegative_div (Double.isNegative_ofNat _) (Double.isNegative_ofNat _))

end Patchbay
