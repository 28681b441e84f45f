import Mathlib.Data.String.Basic
import Patchbay.Proofs.Value.Canonical
import Patchbay.Slot
import Patchbay.Value.Order

/-!
# The order of values

Two values have a place in one order exactly if they are of one sort and neither is no number
(`Value.isSome_order?_iff`). Turned around it is the opposite (`Value.order?_swap`), it is
transitive (`Value.order?_trans`), and its ties are the equal values
(`Value.order?_eq_some_eq_iff`). So the three comparison operators together are a lawful order
(`Value.comparison_lawful`), though `<` and `>` ask the order and `=` asks for equality, which holds
of unset values as well.
-/

namespace Patchbay

namespace Double

theorem order?_swap (x y : Double) : y.order? x = (x.order? y).map Ordering.swap := by
  unfold order?
  rw [Bool.or_comm]
  split
  · rfl
  · rw [Option.map_some]
    exact congrArg some Std.OrientedCmp.eq_swap

theorem isSome_order?_iff {x y : Double} :
    (x.order? y).isSome ↔ x.isNaN = false ∧ y.isNaN = false := by
  rw [← Bool.or_eq_false_iff]
  unfold order?
  cases x.isNaN || y.isNaN <;> simp

theorem order?_eq_lt_iff {x y : Double} (hx : x.isNaN = false) (hy : y.isNaN = false) :
    x.order? y = some .lt ↔ x.rank < y.rank := by
  rw [order?, hx, hy, Bool.or_self, if_neg Bool.false_ne_true, Option.some_inj,
    Int.compare_eq_lt]

theorem order?_trans {x y z : Double} (hxy : x.order? y = some .lt) (hyz : y.order? z = some .lt) :
    x.order? z = some .lt := by
  obtain ⟨hx, -⟩ := isSome_order?_iff.mp (Option.isSome_of_mem hxy)
  obtain ⟨hy, hz⟩ := isSome_order?_iff.mp (Option.isSome_of_mem hyz)
  rw [order?_eq_lt_iff hx hy] at hxy
  rw [order?_eq_lt_iff hy hz] at hyz
  exact (order?_eq_lt_iff hx hz).mpr (Int.lt_trans hxy hyz)

theorem order?_eq_some_eq_iff {x y : Double} : x.order? y = some .eq ↔ x.equal y = true := by
  unfold order? equal
  cases x.isNaN <;> cases y.isNaN <;> simp

end Double

namespace Value

/-- Whether two values are of one sort, set, and neither is no number. -/
def Comparable (a b : Value) : Prop :=
  a.isUnset = false ∧ a.slotType? = b.slotType? ∧ a.isNaN = false ∧ b.isNaN = false

/-! ## Texts -/

theorem compare_texts_swap (s t : String) :
    compareOfLessAndEq t s = (compareOfLessAndEq s t).swap :=
  compareOfLessAndEq_eq_swap String.le_antisymm String.le_total String.not_le

theorem compare_texts_eq_iff {s t : String} : compareOfLessAndEq s t = .eq ↔ s = t :=
  compareOfLessAndEq_eq_eq String.le_refl String.not_le

/-- Texts come in the order of their code points from the front. -/
theorem text_lt_iff (s t : String) :
    s < t ↔ List.Lex (· < ·) (s.toList.map Char.toNat) (t.toList.map Char.toNat) := by
  rw [String.lt_iff]
  generalize s.toList = cs
  generalize t.toList = ds
  induction cs generalizing ds with
  | nil => cases ds <;> simp
  | cons c cs ih =>
    cases ds with
    | nil => simp
    | cons d ds =>
      rw [List.cons_lt_cons_iff, List.map_cons, List.map_cons, List.cons_lex_cons_iff, ih,
        Char.toNat_inj]
      exact Iff.rfl

/-! ## The order -/

theorem order?_swap (a b : Value) : order? b a = (order? a b).map Ordering.swap := by
  cases a with
  | number x =>
    cases b with
    | number y => exact x.order?_swap y
    | unset | bool _ | text _ => rfl
  | text s =>
    cases b with
    | text t => exact congrArg some (compare_texts_swap s t)
    | unset | bool _ | number _ => rfl
  | bool p =>
    cases b with
    | bool q => exact congrArg some Std.OrientedCmp.eq_swap
    | unset | number _ | text _ => rfl
  | unset => cases b <;> rfl

theorem isSome_order?_iff {a b : Value} : (order? a b).isSome ↔ a.Comparable b := by
  unfold Comparable
  cases a with
  | number x =>
    cases b with
    | number y => simp [order?, Double.isSome_order?_iff, isUnset, slotType?, isNaN]
    | unset | bool _ | text _ => simp [order?, isUnset, slotType?]
  | unset | bool _ | text _ => cases b <;> simp [order?, isUnset, slotType?, isNaN]

theorem order?_trans {a b c : Value} (hab : order? a b = some .lt) (hbc : order? b c = some .lt) :
    order? a c = some .lt := by
  cases b with
  | unset => cases a <;> cases hab
  | number y =>
    cases a with
    | number x =>
      cases c with
      | number z => exact Double.order?_trans hab hbc
      | unset | bool _ | text _ => cases hbc
    | unset | bool _ | text _ => cases hab
  | text t =>
    cases a with
    | text s =>
      cases c with
      | text u =>
        have hst : s < t := compareOfLessAndEq_eq_lt.mp (Option.some.inj hab)
        have htu : t < u := compareOfLessAndEq_eq_lt.mp (Option.some.inj hbc)
        exact congrArg some (compareOfLessAndEq_eq_lt.mpr (String.lt_trans hst htu))
      | unset | bool _ | number _ => cases hbc
    | unset | bool _ | number _ => cases hab
  | bool q =>
    cases a with
    | bool p =>
      cases c with
      | bool r =>
        exact congrArg some (Std.TransCmp.lt_trans (Option.some.inj hab) (Option.some.inj hbc))
      | unset | number _ | text _ => cases hbc
    | unset | number _ | text _ => cases hab

/-- The ties of the order are the equal values, those apart that have no place in it. -/
theorem order?_eq_some_eq_iff {a b : Value} :
    order? a b = some .eq ↔ a.isUnset = false ∧ equal a b = true := by
  cases a with
  | number x =>
    cases b with
    | number y => simp [order?, equal, isUnset, Double.order?_eq_some_eq_iff]
    | unset | bool _ | text _ => simp [order?, equal]
  | text s =>
    cases b with
    | text t => simp [order?, equal, isUnset, compare_texts_eq_iff]
    | unset | bool _ | number _ => simp [order?, equal]
  | bool p =>
    cases b with
    | bool q => simp [order?, equal, isUnset, Std.LawfulEqCmp.compare_eq_iff_eq]
    | unset | number _ | text _ => simp [order?, equal]
  | unset => cases b <;> simp [order?, isUnset]

/-! ## The operators -/

theorem comparison_less_iff {a b : Value} :
    comparison (text "<") a b = true ↔ order? a b = some .lt := by
  change (order? a b == some .lt) = true ↔ _
  rw [beq_iff_eq]

theorem comparison_greater_iff {a b : Value} :
    comparison (text ">") a b = true ↔ order? a b = some .gt := by
  change (order? a b == some .gt) = true ↔ _
  rw [beq_iff_eq]

/--
Of the three operators one holds where the two values are comparable. Elsewhere neither `<` nor `>`
does, and `=` does only if both values are unset.
-/
theorem count_comparisons (a b : Value) :
    [comparison (text "<") a b, comparison (text ">") a b, comparison (text "=") a b].count true =
      if (order? a b).isSome || a.isUnset && b.isUnset then 1 else 0 := by
  have hless := comparison_less_iff (a := a) (b := b)
  have hgreater := comparison_greater_iff (a := a) (b := b)
  have hsame : comparison (text "=") a b = true ↔
      order? a b = some .eq ∨ a.isUnset = true ∧ b.isUnset = true := by
    change equal a b = true ↔ _
    rw [order?_eq_some_eq_iff]
    cases a <;> cases b <;> simp [isUnset, equal]
  have hunset : a.isUnset = true → order? a b = none := by
    intro h
    cases a with
    | unset => cases b <;> rfl
    | bool _ | number _ | text _ => cases h
  rw [Bool.eq_iff_iff.mpr (hless.trans decide_eq_true_iff.symm),
    Bool.eq_iff_iff.mpr (hgreater.trans decide_eq_true_iff.symm),
    Bool.eq_iff_iff.mpr (hsame.trans decide_eq_true_iff.symm)]
  rcases horder : order? a b with _ | _ | _ | _
  · cases ha : a.isUnset <;> cases hb : b.isUnset <;> simp
  all_goals
    have ha : a.isUnset = false := Bool.eq_false_iff.mpr fun h => by
      rw [hunset h] at horder
      cases horder
    simp [ha]

/--
To be less is to be greater the other way round, and it is irreflexive and transitive. At most one
operator holds of two values, and exactly one where they are comparable; elsewhere neither is less.
Each value but what is no number is the same as itself. A text is less than another if its code
points come first from the front.
-/
theorem comparison_lawful :
    let less : Value → Value → Bool := comparison (text "<")
    let greater : Value → Value → Bool := comparison (text ">")
    let same : Value → Value → Bool := comparison (text "=")
    (∀ a b, less a b = greater b a) ∧
      (∀ a, less a a = false) ∧
      (∀ a b c, less a b = true → less b c = true → less a c = true) ∧
      (∀ a b, [less a b, greater a b, same a b].count true ≤ 1) ∧
      (∀ a b, a.Comparable b → [less a b, greater a b, same a b].count true = 1) ∧
      (∀ a b, ¬a.Comparable b → less a b = false ∧ greater a b = false) ∧
      (∀ a, same a a = !a.isNaN) ∧
      ∀ s t, less (text s) (text t) = true ↔
        List.Lex (· < ·) (s.toList.map Char.toNat) (t.toList.map Char.toNat) := by
  intro less greater same
  have hswap : ∀ a b, less a b = greater b a := by
    intro a b
    rw [Bool.eq_iff_iff, comparison_less_iff, comparison_greater_iff, order?_swap a b]
    cases order? a b with
    | none => simp
    | some o => cases o <;> simp
  refine ⟨hswap, fun a => ?_, fun a b c => ?_, fun a b => ?_, fun a b h => ?_, fun a b h => ?_,
    fun a => ?_, fun s t => ?_⟩
  · -- what turned around is its own opposite is a tie
    rw [Bool.eq_false_iff, ne_eq, comparison_less_iff]
    intro h
    have hopposite := order?_swap a a
    rw [h] at hopposite
    cases hopposite
  · rw [comparison_less_iff, comparison_less_iff, comparison_less_iff]
    exact order?_trans
  · rw [count_comparisons]
    split <;> decide
  · rw [count_comparisons, isSome_order?_iff.mpr h, Bool.true_or]
    rfl
  · have hnone : order? a b = none := by
      rw [← Option.not_isSome_iff_eq_none, isSome_order?_iff]
      exact h
    rw [Bool.eq_false_iff, Bool.eq_false_iff, ne_eq, ne_eq, comparison_less_iff,
      comparison_greater_iff, hnone]
    exact ⟨nofun, nofun⟩
  · change equal a a = _
    rw [Bool.eq_iff_iff, equal_iff]
    simp
  · rw [comparison_less_iff, ← text_lt_iff]
    change some (compareOfLessAndEq s t) = some .lt ↔ _
    rw [Option.some.injEq, compareOfLessAndEq_eq_lt]

/--
A text comes before its continuations, whatever follows, and after each other text that begins
with a lower code point; the two zeros tie, and what is no number is not the same as itself.
-/
theorem comparison_lawful_instances :
    let less := comparison (text "<")
    let greater := comparison (text ">")
    let same := comparison (text "=")
    let zero := number (.ofParts true 0)
    less (text "Z") (text "a") = true ∧ less (text "a") (text "a\uFFFD") = true ∧
      less (text "Z") (text "a\uFFFD") = true ∧
      [less zero (number 0), greater zero (number 0), same zero (number 0)].count true = 1 ∧
      (less (number .nan) (number 1) = false ∧ greater (number .nan) (number 1) = false) ∧
      same (number .nan) (number .nan) = false ∧ same unset unset = true := by
  intro less greater same zero
  obtain ⟨-, -, htrans, -, hone, hnone, hsame, -⟩ := comparison_lawful
  have hfirst : less (text "Z") (text "a") = true := by decide +kernel
  have hsecond : less (text "a") (text "a\uFFFD") = true := by decide +kernel
  exact ⟨hfirst, hsecond, htrans _ _ _ hfirst hsecond,
    hone zero (number 0) (by unfold Comparable; decide +kernel),
    hnone (number .nan) (number 1) (by unfold Comparable; decide +kernel), hsame _, hsame _⟩

end Value

end Patchbay
