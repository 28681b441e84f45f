import Patchbay.Proofs.Ron.Token
import Patchbay.Proofs.Text.Hex
import Patchbay.Ron.Quoted

/-!
# Quoted texts read back

Every character is taken back as it was written, whether as it stands, with a backslash or by its
code point (`quotedFrom?_writeChar`), and so is a whole text (`quoted?_writeString`).
-/

namespace Patchbay.Ron

/-- The code point of any character has at most six digits and is read back. -/
theorem codeEscape?_append (c : Char) (rest : List Char) :
    codeEscape? ('\x7b' :: (hexDigits c.toNat ++ '\x7d' :: rest)) = some (c, rest) := by
  have hdigits : ∀ n < 16, decide (n.digitChar ≠ '\x7d') = true := by decide
  have hbrace : ∀ d ∈ hexDigits c.toNat, decide (d ≠ '\x7d') = true := by
    intro d hd
    obtain ⟨n, hn, rfl⟩ := Text.exists_of_mem_toDigits hd
    exact hdigits n hn
  have hclose : ∀ d ∈ ('\x7d' :: rest).head?, decide (d ≠ '\x7d') = false := by simp
  have hspan := Text.span_append hbrace hclose
  have hne : hexDigits c.toNat ≠ [] := Nat.toDigits_ne_nil
  have hlt : c.toNat < 16 ^ 6 := by
    have hvalid := c.valid
    simp only [Char.toNat] at *
    rcases hvalid with h | ⟨-, h⟩ <;> omega
  have hlength : (hexDigits c.toNat).length ≤ 6 :=
    (Nat.length_toDigits_le_iff (by decide) (by decide)).mpr hlt
  have hread : Text.ofHex? (hexDigits c.toNat) = some c.toNat := Text.ofHex?_toDigits c.toNat
  have hvalid : c.toNat.isValidChar := c.valid
  unfold codeEscape?
  simp only [symbol?_cons, Option.bind_eq_bind, Option.bind_some, hspan.1, hspan.2]
  rw [if_neg (by simp [hne]; omega), hread]
  simp [hvalid]

/-- One character is taken, whatever the text goes on with. -/
theorem quotedFrom?_writeChar (fuel : Nat) (c : Char) (rest : List Char) :
    quotedFrom? (fuel + 1) (writeChar c ++ rest) =
      (quotedFrom? fuel rest).map fun (s, r) => (c :: s, r) := by
  have hescaped : ∀ {cs : List Char}, escape? 3 cs = some (c, rest) →
      quotedFrom? (fuel + 1) ('\\' :: cs) =
        (quotedFrom? fuel rest).map fun (s, r) => (c :: s, r) := by
    intro cs hcs
    simp only [quotedFrom?, hcs, Option.bind_eq_bind, Option.bind_some]
    cases quotedFrom? fuel rest <;> rfl
  unfold writeChar
  by_cases hnull : c.toNat = 0
  · rw [if_pos hnull]
    apply hescaped
    rw [show c = Char.ofNat 0 by rw [← hnull, Char.ofNat_toNat]]
    rfl
  rw [if_neg hnull]
  by_cases htab : c = '\t'
  · subst htab
    exact hescaped rfl
  rw [if_neg htab]
  by_cases hreturn : c = '\r'
  · subst hreturn
    exact hescaped rfl
  rw [if_neg hreturn]
  by_cases hline : c = '\n'
  · subst hline
    exact hescaped rfl
  rw [if_neg hline]
  by_cases hquote : (c = '\'' || c = '"' || c = '\\') = true
  · rw [if_pos hquote]
    apply hescaped
    simp only [Bool.or_eq_true, decide_eq_true_eq] at hquote
    rcases hquote with (rfl | rfl) | rfl <;> rfl
  rw [if_neg hquote]
  simp only [Bool.or_eq_true, decide_eq_true_eq, not_or] at hquote
  by_cases hshown : Text.isPrintable c = true
  · rw [if_pos hshown, List.singleton_append, quotedFrom?.eq_5 _ _ _ hquote.1.2 hquote.2]
    cases quotedFrom? fuel rest <;> rfl
  · rw [if_neg hshown]
    have hcode : ('\\' :: 'u' :: '\x7b' :: hexDigits c.toNat ++ ['\x7d']) ++ rest =
        '\\' :: 'u' :: '\x7b' :: (hexDigits c.toNat ++ '\x7d' :: rest) := by simp
    rw [hcode]
    apply hescaped
    simp only [escape?]
    exact codeEscape?_append c rest

theorem quotedFrom?_append (cs rest : List Char) (fuel : Nat) (hfuel : cs.length < fuel) :
    quotedFrom? fuel (cs.flatMap writeChar ++ '"' :: rest) = some (cs, rest) := by
  induction cs generalizing fuel with
  | nil =>
    obtain ⟨fuel, rfl⟩ := Nat.exists_eq_add_one_of_ne_zero (Nat.ne_zero_of_lt hfuel)
    rfl
  | cons c cs ih =>
    obtain ⟨fuel, rfl⟩ := Nat.exists_eq_add_one_of_ne_zero (Nat.ne_zero_of_lt hfuel)
    have hrest := ih fuel (by simpa using hfuel)
    rw [List.flatMap_cons, List.append_assoc, quotedFrom?_writeChar, hrest]
    rfl

theorem writeChar_ne_nil (c : Char) : writeChar c ≠ [] := by
  unfold writeChar
  repeat' split
  all_goals simp

theorem length_le_flatMap_writeChar (cs : List Char) :
    cs.length ≤ (cs.flatMap writeChar).length := by
  induction cs with
  | nil => simp
  | cons c cs ih =>
    have hpos := List.length_pos_iff.mpr (writeChar_ne_nil c)
    rw [List.flatMap_cons, List.length_append, List.length_cons]
    omega

theorem quoted?_writeString (s : String) (rest : List Char) :
    quoted? (writeString s ++ rest) = some (s, rest) := by
  have hfuel := length_le_flatMap_writeChar s.toList
  have hread := quotedFrom?_append s.toList rest
    ((s.toList.flatMap writeChar ++ '"' :: rest).length + 1) (by
      rw [List.length_append, List.length_cons]
      omega)
  simp only [writeString, List.cons_append, List.append_assoc, List.nil_append, quoted?, hread]
  simp

end Patchbay.Ron
