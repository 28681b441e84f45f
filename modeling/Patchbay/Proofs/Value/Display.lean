import Patchbay.Proofs.Decimal.Text
import Patchbay.Proofs.Value.Standard
import Patchbay.Slot

/-!
# What is shown is read back

The text of a number is a numeral of that number, with no blanks around it
(`Number.ofChars?_display`), so that it is read back bit for bit, whether it is typed into a field
or taken as an operand (`Number.ofText_display`). Truth values and texts are shown as they are
typed, and so every value that is set comes back from the text shown for it
(`Value.coerce_display`).
-/

namespace Patchbay

open Binary Decimal

namespace Number

theorem toList_display {x : Double} (h : x.isNaN = false) :
    (display x).toList = (if x.isNegative then ['-'] else []) ++
      if x.isInfinite then "Infinity".toList else Decimal.text .double x.magnitude := by
  rw [display, if_neg (by rw [h]; exact Bool.false_ne_true)]
  dsimp only
  split <;> rw [String.toList_ofList]

theorem display_of_isNaN {x : Double} (h : x.isNaN = true) : display x = "NaN" := by
  rw [display, if_pos h]

theorem exists_text {x : Double} (hnan : x.isNaN = false) (hinfinite : x.isInfinite = false) :
    ∃ whole fraction : List Char, Spells .double x.magnitude whole fraction ∧
      Decimal.text .double x.magnitude =
        whole ++ if fraction = [] then [] else '.' :: fraction := by
  have hle := Double.isNaN_eq_false_iff.mp hnan
  have hne : x.magnitude ≠ Format.double.infinity := by simpa [Double.isInfinite] using hinfinite
  exact Decimal.exists_text Format.moderate_double (Nat.lt_of_le_of_ne hle hne)

/-- The text of a number is read as a numeral of it. -/
theorem ofChars?_display {x : Double} (h : x.isNaN = false) :
    ∃ n, Numeral.ofChars? (display x).toList = some n ∧ n.toDouble = x := by
  -- a numeral of the sign and the magnitude of a number is one of the number
  suffices hparts : ∃ n, Numeral.ofChars? (display x).toList = some n ∧
      n.isNegative = x.isNegative ∧ n.magnitude .double = x.magnitude by
    obtain ⟨n, hread, hnegative, hmagnitude⟩ := hparts
    refine ⟨n, hread, ?_⟩
    rw [Numeral.toDouble, hnegative, hmagnitude, x.ofParts_self]
  rw [toList_display h]
  cases hinfinite : x.isInfinite with
  | true =>
    have hmagnitude : x.magnitude = Format.double.infinity := of_decide_eq_true hinfinite
    refine ⟨.infinity x.isNegative, ?_, rfl, hmagnitude.symm⟩
    rw [if_pos rfl]
    cases x.isNegative <;> decide +kernel
  | false =>
    obtain ⟨whole, fraction, hspells, htext⟩ := exists_text h hinfinite
    refine ⟨.finite x.isNegative (ofDigits (whole ++ fraction)) (-(fraction.length : Int)), ?_,
      rfl, hspells.reads⟩
    rw [if_neg Bool.false_ne_true, htext]
    by_cases hempty : fraction = []
    · subst hempty
      rw [if_pos rfl, List.append_nil]
      exact Numeral.ofChars?_whole _ hspells.whole_ne_nil hspells.whole_digits
    · rw [if_neg hempty]
      exact Numeral.ofChars?_digits _ hspells.whole_ne_nil hspells.whole_digits
        hspells.fraction_digits

theorem isBlank_of_mem_display {x : Double} {c : Char} (h : c ∈ (display x).toList) :
    Text.isBlank c = false := by
  have hnumber : ("NaN".toList.any Text.isBlank) = false := by decide +kernel
  have hlarge : ("Infinity".toList.any Text.isBlank) = false := by decide +kernel
  cases hnan : x.isNaN with
  | true =>
    rw [display_of_isNaN hnan] at h
    exact Bool.eq_false_iff.mpr (List.any_eq_false.mp hnumber c h)
  | false =>
    rw [toList_display hnan, List.mem_append] at h
    rcases h with h | h
    · split at h
      · rw [List.mem_singleton.mp h]
        decide
      · cases h
    · cases hinfinite : x.isInfinite with
      | true =>
        rw [hinfinite] at h
        exact Bool.eq_false_iff.mpr (List.any_eq_false.mp hlarge c h)
      | false =>
        obtain ⟨whole, fraction, hspells, htext⟩ := exists_text hnan hinfinite
        rw [hinfinite, if_neg Bool.false_ne_true, htext, List.mem_append] at h
        rcases h with h | h
        · exact isBlank_of_isDigit (hspells.whole_digits c h)
        · split at h
          · cases h
          · rcases List.mem_cons.mp h with rfl | h
            · decide
            · exact isBlank_of_isDigit (hspells.fraction_digits c h)

theorem trim_display (x : Double) : Text.trim (display x).toList = (display x).toList :=
  Text.trim_eq_self fun _ hc => isBlank_of_mem_display hc

/-- The text of a number is read as that number, and that of what is no number as no number. -/
theorem ofText_display (x : Double) : ofText (display x) = if x.isNaN then .nan else x := by
  cases hnan : x.isNaN with
  | true =>
    rw [display_of_isNaN hnan, if_pos rfl]
    decide +kernel
  | false =>
    obtain ⟨n, hread, hn⟩ := ofChars?_display hnan
    rw [ofText, trim_display, hread]
    exact hn

theorem display_ne_empty (x : Double) : (display x).toList ≠ [] := by
  cases hnan : x.isNaN with
  | true =>
    rw [display_of_isNaN hnan]
    decide
  | false =>
    intro hempty
    obtain ⟨n, hread, -⟩ := ofChars?_display hnan
    rw [hempty] at hread
    revert hread
    exact nofun

end Number

/--
The text shown for a value that is set, typed into a field of its type, gives that value again, and
so does the text shown for a number when it is taken as an operand. Numbers come back bit for bit;
only of what is no number it is just the one of that kind that comes back.
-/
theorem Value.coerce_display (v : Value) :
    (∀ type, v.slotType? = some type →
        type.coerce v.display = if v.isNaN then .number .nan else v) ∧
      ∀ x, v = .number x →
        (Value.text v.display).toNumber = if v.isNaN then .nan else x := by
  constructor
  · intro type htype
    cases v with
    | unset => cases htype
    | bool b =>
      cases htype
      cases b <;> decide +kernel
    | number x =>
      cases htype
      change Value.number (Number.ofText (Number.display x)) = _
      rw [Number.ofText_display]
      exact apply_ite Value.number _ _ _
    | text s =>
      cases htype
      rfl
  · rintro x rfl
    change (if (Text.trim (Number.display x).toList).isEmpty then 0
      else Number.ofText (Number.display x)) = _
    rw [Number.trim_display, List.isEmpty_eq_false_iff.mpr (Number.display_ne_empty x),
      if_neg Bool.false_ne_true, Number.ofText_display]
    rfl

/-- The least number below zero, minus zero, an infinity and what is no number. -/
theorem Value.coerce_display_extremes :
    let least := Double.ofParts true 1
    let zero := Double.ofParts true 0
    let infinity := Double.ofParts true Format.double.infinity
    let other := Double.ofParts true (Format.double.infinity + 1)
    SlotType.number.coerce (number least).display = number least ∧
      (text (number zero).display).toNumber = zero ∧ (number zero).display = "-0" ∧
      SlotType.number.coerce (number infinity).display = number infinity ∧
      SlotType.number.coerce (number other).display = number .nan := by
  intro least zero infinity other
  refine ⟨((coerce_display (number least)).1 .number rfl).trans (if_neg ?_),
    ((coerce_display (number zero)).2 zero rfl).trans (if_neg ?_), ?_,
    ((coerce_display (number infinity)).1 .number rfl).trans (if_neg ?_),
    ((coerce_display (number other)).1 .number rfl).trans (if_pos ?_)⟩
  all_goals decide +kernel

end Patchbay
