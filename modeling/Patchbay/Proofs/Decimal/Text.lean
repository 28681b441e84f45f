import Patchbay.Proofs.Decimal.Shortest
import Patchbay.Text.Blank

/-!
# Texts of decimals

The text of a magnitude is a row of digits, and perhaps a point with a second row
(`Decimal.exists_text`). As a numeral the two rows are one number, and the length of the second is
its power of ten (`Numeral.ofChars?_digits`), so that the text reads back as the magnitude.
-/

namespace Patchbay

/-- A row of characters of some sort ends where the first other one comes. -/
theorem Text.span_append {p : Char → Bool} {row rest : List Char} (hrow : ∀ c ∈ row, p c = true)
    (hrest : ∀ c ∈ rest.head?, p c = false) :
    (row ++ rest).takeWhile p = row ∧ (row ++ rest).dropWhile p = rest := by
  rw [List.takeWhile_append_of_pos hrow, List.dropWhile_append_of_pos hrow]
  cases rest with
  | nil => simp
  | cons c rest =>
    have hc : p c = false := hrest c rfl
    simp [hc]

/-- A text without blanks has none to cut off. -/
theorem Text.trim_eq_self {cs : List Char} (h : ∀ c ∈ cs, isBlank c = false) : trim cs = cs := by
  have hdrop : ∀ {ds : List Char}, (∀ c ∈ ds, isBlank c = false) → ds.dropWhile isBlank = ds := by
    intro ds hds
    cases ds with
    | nil => rfl
    | cons d ds => rw [List.dropWhile_cons, hds d List.mem_cons_self, if_neg Bool.false_ne_true]
  rw [trim, hdrop h, hdrop fun c hc => h c (List.mem_reverse.mp hc), List.reverse_reverse]

namespace Decimal

open Binary

variable {f : Format} {m : Nat}

/-! ## Rows of digits -/

theorem toNat_of_isDigit {c : Char} (h : c.isDigit = true) : 48 ≤ c.toNat ∧ c.toNat ≤ 57 := by
  simp only [Char.isDigit, Bool.and_eq_true, decide_eq_true_eq, ge_iff_le, UInt32.le_iff_toNat_le]
    at h
  exact h

theorem isBlank_of_isDigit {c : Char} (h : c.isDigit = true) : Text.isBlank c = false := by
  obtain ⟨hlow, hhigh⟩ := toNat_of_isDigit h
  simp only [Text.isBlank, Text.blankRanges, List.any_cons, List.any_nil, Bool.or_false,
    Bool.or_eq_false_iff, Bool.and_eq_false_iff, decide_eq_false_iff_not]
  omega

/-- Two rows of digits, before and after a point, that are read as a magnitude. -/
structure Spells (f : Format) (m : Nat) (whole fraction : List Char) : Prop where
  whole_ne_nil : whole ≠ []
  whole_digits : ∀ c ∈ whole, c.isDigit = true
  fraction_digits : ∀ c ∈ fraction, c.isDigit = true
  reads : f.ofDecimal (ofDigits (whole ++ fraction)) (-(fraction.length : Int)) = m

/-- Zeros at the end of the second row change nothing. -/
theorem Spells.append_zero {whole fraction : List Char} (h : Spells f m whole fraction) :
    Spells f m whole (fraction ++ ['0']) where
  whole_ne_nil := h.whole_ne_nil
  whole_digits := h.whole_digits
  fraction_digits := by
    intro c hc
    rcases List.mem_append.mp hc with hc | hc
    · exact h.fraction_digits c hc
    · rw [List.mem_singleton.mp hc]
      rfl
  reads := by
    rw [← h.reads]
    apply f.ofDecimal_congr
    have hzero : ofDigits ['0'] = 0 := rfl
    rw [← List.append_assoc, ofDigits_append, hzero, List.length_append, List.length_singleton]
    push_cast
    rw [neg_add, zpow_add₀ (by norm_num)]
    ring

/-- A decimal written out is two rows of digits of its value; the second may be missing. -/
theorem exists_positional (d : Nat) (x : Int) :
    ∃ whole fraction : List Char, whole ≠ [] ∧ (∀ c ∈ whole, c.isDigit = true) ∧
      (∀ c ∈ fraction, c.isDigit = true) ∧
      (ofDigits (whole ++ fraction) : ℚ) * 10 ^ (-(fraction.length : Int)) = d * 10 ^ x ∧
      positional d x = whole ++ if fraction = [] then [] else '.' :: fraction := by
  unfold positional
  by_cases hx : 0 ≤ x
  · obtain ⟨n, rfl⟩ := Int.eq_ofNat_of_zero_le hx
    refine ⟨Nat.toDigits 10 (d * 10 ^ n), [], Nat.toDigits_ne_nil,
      fun c hc => isDigit_of_mem_toDigits hc, by simp, ?_, ?_⟩
    · rw [List.append_nil, ofDigits_toDigits]
      push_cast
      rw [List.length_nil, Nat.cast_zero, neg_zero, zpow_zero, mul_one, zpow_natCast]
    · rw [if_pos hx, if_pos rfl, List.append_nil]
      rfl
  · obtain ⟨n, rfl⟩ := Int.exists_eq_neg_ofNat (show x ≤ 0 by omega)
    have hpos : 0 < n := by omega
    let rest := Nat.toDigits 10 (d % 10 ^ n)
    -- the rest has at most as many digits as there are places
    have hfits : rest.length ≤ n := (Nat.length_toDigits_le_iff (by decide) hpos).mpr
      (Nat.mod_lt _ (Nat.pow_pos (by decide)))
    have hlength : (List.replicate (n - rest.length) '0' ++ rest).length = n := by
      rw [List.length_append, List.length_replicate]
      omega
    refine ⟨Nat.toDigits 10 (d / 10 ^ n), List.replicate (n - rest.length) '0' ++ rest,
      Nat.toDigits_ne_nil, fun c hc => isDigit_of_mem_toDigits hc, ?_, ?_, ?_⟩
    · intro c hc
      rcases List.mem_append.mp hc with hc | hc
      · rw [List.eq_of_mem_replicate hc]
        rfl
      · exact isDigit_of_mem_toDigits hc
    · rw [ofDigits_append, hlength, ofDigits_append, ofDigits_zeros, ofDigits_toDigits,
        ofDigits_toDigits, Nat.mul_zero, Nat.zero_add, Nat.div_add_mod]
    · have hne : List.replicate (n - rest.length) '0' ++ rest ≠ [] := by
        rw [← List.length_pos_iff, hlength]
        exact hpos
      rw [if_neg hx, if_neg hne, neg_neg, Int.toNat_natCast]
      simp [rest]

/-- The text of a finite magnitude spells it. -/
theorem exists_text (hf : f.Moderate) (hfinite : m < f.infinity) :
    ∃ whole fraction : List Char, Spells f m whole fraction ∧
      text f m = whole ++ if fraction = [] then [] else '.' :: fraction := by
  by_cases hm : m = 0
  · refine ⟨['0'], [], ⟨by simp, by simp, by simp, ?_⟩, by simp [text, hm]⟩
    rw [hm]
    exact f.ofDecimal_zero _
  · obtain ⟨whole, fraction, hne, hwhole, hfraction, hvalue, htext⟩ :=
      exists_positional (shortest f m).1 (shortest f m).2
    refine ⟨whole, fraction, ⟨hne, hwhole, hfraction, ?_⟩, ?_⟩
    · rw [f.ofDecimal_congr hvalue]
      exact ofDecimal_shortest hf hm hfinite
    · rw [← htext]
      exact if_neg hm

/-! ## Numerals -/

namespace Numeral

theorem ne_sign_of_isDigit {c : Char} (h : c.isDigit = true) : c ≠ '+' ∧ c ≠ '-' := by
  constructor <;> rintro rfl <;> cases h

theorem splitSign_append (negative : Bool) {body : List Char} {c : Char}
    (hhead : body.head? = some c) (hc : c.isDigit = true) :
    splitSign ((if negative then ['-'] else []) ++ body) = (negative, body) := by
  obtain ⟨r, rfl⟩ := List.head?_eq_some_iff.mp hhead
  obtain ⟨hplus, hminus⟩ := ne_sign_of_isDigit hc
  cases negative with
  | true => rfl
  | false => simp [splitSign, hplus, hminus]

/-- Digits before a point and after it, with a sign, are read as one number. -/
theorem ofChars?_digits (negative : Bool) {whole fraction : List Char} (hne : whole ≠ [])
    (hwhole : ∀ c ∈ whole, c.isDigit = true) (hfraction : ∀ c ∈ fraction, c.isDigit = true) :
    ofChars? ((if negative then ['-'] else []) ++ (whole ++ '.' :: fraction)) =
      some (.finite negative (ofDigits (whole ++ fraction)) (-(fraction.length : Int))) := by
  obtain ⟨c, r, rfl⟩ := List.exists_cons_of_ne_nil hne
  have hpoint : ∀ c ∈ ('.' :: fraction).head?, c.isDigit = false := by simp
  have hend : ∀ c ∈ ([] : List Char).head?, c.isDigit = false := by simp
  have hspan := Text.span_append hwhole hpoint
  have hrow := Text.span_append hfraction hend
  rw [List.append_nil] at hrow
  unfold ofChars?
  rw [splitSign_append negative (c := c) rfl (hwhole c (List.mem_cons_self ..))]
  simp only [hspan.1, hspan.2, splitFraction, hrow.1, hrow.2]
  simp [exponent?]

/-- Digits that are not followed by a point are read as they are. -/
theorem ofChars?_whole (negative : Bool) {whole : List Char} (hne : whole ≠ [])
    (hwhole : ∀ c ∈ whole, c.isDigit = true) :
    ofChars? ((if negative then ['-'] else []) ++ whole) =
      some (.finite negative (ofDigits whole) 0) := by
  obtain ⟨c, r, rfl⟩ := List.exists_cons_of_ne_nil hne
  have hend : ∀ c ∈ ([] : List Char).head?, c.isDigit = false := by simp
  have hspan := Text.span_append hwhole hend
  rw [List.append_nil] at hspan
  unfold ofChars?
  rw [splitSign_append negative (c := c) rfl (hwhole c (List.mem_cons_self ..))]
  simp [hspan.1, hspan.2, splitFraction, exponent?]

end Numeral

end Decimal

end Patchbay
