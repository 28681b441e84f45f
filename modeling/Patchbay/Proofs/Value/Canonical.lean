import Patchbay.Value.Basic

/-!
# Values that count as the same

Equality of values compares numbers as numbers, and so is not reflexive: what is no number is not
equal to itself. Where it is to be the same as itself, two values are the same when they have one
canonical form, with one zero and one way of being no number (`Value.canonical_eq_iff`).
-/

namespace Patchbay

namespace Double

theorem toNat_bits (x : Double) :
    x.bits.toNat = (if x.isNegative then signBit else 0) + x.magnitude := by
  have hlt : x.bits.toNat < 18446744073709551616 := x.bits.toNat_lt
  unfold isNegative magnitude signBit
  by_cases h : 0x8000000000000000 ≤ x.bits.toNat
  · rw [if_pos (by simpa using h)]
    omega
  · rw [if_neg (by simpa using h)]
    omega

/-- The bits tell the sign and the magnitude. -/
theorem parts_of_toNat_bits {x : Double} {negative : Bool} {m : Nat} (hm : m < signBit)
    (h : x.bits.toNat = (if negative then signBit else 0) + m) :
    x.isNegative = negative ∧ x.magnitude = m := by
  unfold isNegative magnitude
  rw [h]
  cases negative with
  | false =>
    rw [if_neg Bool.false_ne_true, Nat.zero_add]
    exact ⟨decide_eq_false (Nat.not_le.mpr hm), Nat.mod_eq_of_lt hm⟩
  | true =>
    rw [if_pos rfl, Nat.add_mod_left]
    exact ⟨decide_eq_true (Nat.le_add_right ..), Nat.mod_eq_of_lt hm⟩

theorem isNaN_eq_false_iff {x : Double} :
    x.isNaN = false ↔ x.magnitude ≤ Binary.Format.double.infinity :=
  decide_eq_false_iff_not.trans Nat.not_lt

/-- Only the two zeros share a place in the order. -/
theorem eq_of_rank_eq {x y : Double} (h : x.rank = y.rank) (h0 : x.rank ≠ 0) : x = y := by
  have hx := x.toNat_bits
  have hy := y.toNat_bits
  have hbits : x.bits.toNat = y.bits.toNat := by
    unfold rank at h h0
    -- of different signs only the zeros have one rank
    by_cases hsx : x.isNegative = true
    · rw [if_pos hsx] at h h0 hx
      by_cases hsy : y.isNegative = true
      · rw [if_pos hsy] at h hy
        omega
      · rw [if_neg hsy] at h
        omega
    · rw [if_neg hsx] at h h0 hx
      by_cases hsy : y.isNegative = true
      · rw [if_pos hsy] at h
        omega
      · rw [if_neg hsy] at h hy
        omega
  cases x
  cases y
  exact congrArg Double.mk (UInt64.toNat_inj.mp hbits)

/-- One number of each place in the order, and one that is no number. -/
def canonical (x : Double) : Double :=
  if x.isNaN then nan else if x.isZero then ofParts false 0 else x

theorem isNaN_nan : nan.isNaN = true := by decide

theorem isNaN_canonical (x : Double) : x.canonical.isNaN = x.isNaN := by
  unfold canonical
  by_cases hx : x.isNaN = true
  · rw [if_pos hx, hx, isNaN_nan]
  · rw [if_neg hx]
    by_cases h0 : x.isZero = true
    · rw [if_pos h0, Bool.eq_false_iff.mpr hx]
      decide
    · rw [if_neg h0]

theorem rank_canonical {x : Double} (h : x.isNaN = false) : x.canonical.rank = x.rank := by
  unfold canonical
  rw [if_neg (by rw [h]; decide)]
  by_cases h0 : x.isZero = true
  · rw [if_pos h0, show x.rank = 0 by simpa [isZero] using h0]
    decide
  · rw [if_neg h0]

theorem canonical_eq_iff {x y : Double} :
    x.canonical = y.canonical ↔ x.equal y = true ∨ x.isNaN = true ∧ y.isNaN = true := by
  have hnan : x.canonical = y.canonical → x.isNaN = y.isNaN := fun h => by
    rw [← isNaN_canonical x, h, isNaN_canonical]
  cases hx : x.isNaN with
  | true =>
    have hequal : x.equal y = false := by simp [equal, hx]
    cases hy : y.isNaN with
    | true => simp [canonical, hx, hy]
    | false => simpa [hequal] using fun h => absurd (hnan h) (by simp [hx, hy])
  | false =>
    cases hy : y.isNaN with
    | true =>
      have hequal : x.equal y = false := by simp [equal, hy]
      simpa [hequal] using fun h => absurd (hnan h) (by simp [hx, hy])
    | false =>
      have hequal : x.equal y = true ↔ x.rank = y.rank := by simp [equal, hx, hy]
      simp only [hequal, Bool.false_eq_true, and_self, or_false]
      constructor
      · intro h
        rw [← rank_canonical hx, h, rank_canonical hy]
      · intro h
        by_cases h0 : x.rank = 0
        · have hzx : x.isZero = true := by simpa [isZero] using h0
          have hzy : y.isZero = true := by simpa [isZero, ← h] using h0
          simp [canonical, hx, hy, hzx, hzy]
        · rw [eq_of_rank_eq h h0]

end Double

namespace Value

def isNaN : Value → Bool
  | number x => x.isNaN
  | _ => false

/-- One value of each that count as the same. -/
def canonical : Value → Value
  | number x => number x.canonical
  | v => v

theorem isNaN_canonical (v : Value) : v.canonical.isNaN = v.isNaN := by
  cases v with
  | number x => exact x.isNaN_canonical
  | unset | bool b | text s => rfl

/-- Equal values have one canonical form, and so have those that are no number. -/
theorem canonical_eq_iff {v w : Value} :
    v.canonical = w.canonical ↔ v.equal w = true ∨ v.isNaN = true ∧ w.isNaN = true := by
  cases v with
  | number x =>
    cases w with
    | number y => simp [canonical, equal, isNaN, Double.canonical_eq_iff]
    | unset | bool b | text s => simp [canonical, equal, isNaN]
  | unset | bool a | text s => cases w <;> simp [canonical, equal, isNaN]

theorem equal_eq_false_of_isNaN {v : Value} (h : v.isNaN = true) (w : Value) :
    v.equal w = false := by
  cases v with
  | number x =>
    have hx : x.isNaN = true := h
    cases w with
    | number y => simp [equal, Double.equal, hx]
    | unset | bool b | text s => rfl
  | unset | bool b | text s => cases h

/-- Values that are not equal differ in their canonical form, unless both are no number. -/
theorem equal_eq_false_iff {v w : Value} :
    v.equal w = false ↔ v.canonical ≠ w.canonical ∨ v.isNaN = true ∧ w.isNaN = true := by
  constructor
  · intro h
    by_cases hnan : v.isNaN = true ∧ w.isNaN = true
    · exact .inr hnan
    · left
      rw [ne_eq, canonical_eq_iff, h]
      simpa using hnan
  · rintro (hne | ⟨hv, -⟩)
    · rw [← Bool.not_eq_true]
      exact fun h => hne (canonical_eq_iff.mpr (.inl h))
    · exact equal_eq_false_of_isNaN hv w

theorem canonical_of_equal {v w : Value} (h : v.equal w = true) : v.canonical = w.canonical :=
  canonical_eq_iff.mpr (.inl h)

/-- Equality is that of canonical forms where there is a number. -/
theorem equal_iff {v w : Value} :
    v.equal w = true ↔ v.canonical = w.canonical ∧ v.isNaN = false := by
  rw [canonical_eq_iff]
  cases hv : v.isNaN with
  | true => simp [equal_eq_false_of_isNaN hv w]
  | false => simp

theorem equalAll_iff {vs ws : List Value} :
    equalAll vs ws = true ↔ vs.map canonical = ws.map canonical ∧ vs.any isNaN = false := by
  induction vs generalizing ws with
  | nil => cases ws <;> simp [equalAll]
  | cons v vs ih =>
    cases ws with
    | nil => simp [equalAll]
    | cons w ws =>
      rw [equalAll, Bool.and_eq_true, equal_iff, ih, List.map_cons, List.map_cons,
        List.cons.injEq, List.any_cons, Bool.or_eq_false_iff]
      exact and_and_and_comm

end Value

end Patchbay
