import Mathlib.Algebra.Group.Nat.Defs
import Patchbay.Node.Id

/-!
# Hexadecimal digits read back

A number is read back from its digits, whether their count is fixed (`Text.ofHex?_toHex`) or the
leading zeros are left out (`Text.ofHex?_toDigits`). A node is found by the text of its name
(`NodeId.ofChars?_toChars`).
-/

namespace Patchbay

namespace Text

theorem hexValue?_hexDigit : ∀ d < 16, hexValue? (hexDigit d) = some d := by decide

theorem hexValue?_digitChar : ∀ d < 16, hexValue? d.digitChar = some d := by decide

theorem ofHex?_append_singleton (cs : List Char) (c : Char) :
    ofHex? (cs ++ [c]) = (ofHex? cs).bind fun n => (hexValue? c).map (16 * n + ·) := by
  simp [ofHex?, List.foldlM_append]

theorem length_toHex (count n : Nat) : (toHex count n).length = count := by
  induction count generalizing n with
  | zero => rfl
  | succ count ih => simp [toHex, ih]

/-- The last digits of a number give the rest of its division by a power of sixteen. -/
theorem ofHex?_toHex (count n : Nat) : ofHex? (toHex count n) = some (n % 16 ^ count) := by
  induction count generalizing n with
  | zero => simp [toHex, ofHex?, Nat.mod_one]
  | succ count ih =>
    have hlast : n % 16 < 16 := Nat.mod_lt n (by decide)
    rw [toHex, ofHex?_append_singleton, ih, Option.bind_some, hexValue?_hexDigit _ hlast,
      Option.map_some, Nat.pow_succ', Nat.mod_mul, Nat.add_comm]

theorem ofHex?_toDigits (n : Nat) : ofHex? (Nat.toDigits 16 n) = some n := by
  induction n using Nat.strongRecOn with
  | ind n ih =>
    rw [Nat.toDigits_eq_if (by decide)]
    by_cases hn : n < 16
    · rw [if_pos hn]
      simp [ofHex?, hexValue?_digitChar n hn]
    · have hlast : n % 16 < 16 := Nat.mod_lt n (by decide)
      rw [if_neg hn, ofHex?_append_singleton, ih (n / 16) (by omega), Option.bind_some,
        hexValue?_digitChar _ hlast, Option.map_some, Nat.div_add_mod]

theorem exists_of_mem_toDigits {n : Nat} {c : Char} (h : c ∈ Nat.toDigits 16 n) :
    ∃ d < 16, c = d.digitChar := by
  induction n using Nat.strongRecOn with
  | ind n ih =>
    rw [Nat.toDigits_eq_if (by decide)] at h
    by_cases hn : n < 16
    · rw [if_pos hn, List.mem_singleton] at h
      exact ⟨n, hn, h⟩
    · rw [if_neg hn, List.mem_append, List.mem_singleton] at h
      rcases h with h | h
      · exact ih (n / 16) (by omega) h
      · exact ⟨n % 16, Nat.mod_lt n (by decide), h⟩

end Text

namespace NodeId

/-- Five groups of digits with hyphens between them are read as one row of digits. -/
theorem ofGroups?_append {a b c d e : List Char} (ha : a.length = 8) (hb : b.length = 4)
    (hc : c.length = 4) (hd : d.length = 4) (he : e.length = 12) :
    ofGroups? (a ++ '-' :: (b ++ '-' :: (c ++ '-' :: (d ++ '-' :: e)))) =
      ofDigits? (a ++ b ++ c ++ d ++ e) := by
  have htake : ∀ {k : Nat} {xs ys : List Char}, xs.length = k → (xs ++ ys).take k = xs :=
    fun h => List.take_left' h
  have hdrop : ∀ {k : Nat} {xs ys : List Char} {x : Char}, xs.length = k →
      (xs ++ x :: ys).drop (k + 1) = ys := fun h => by
    rw [List.drop_append, h, List.drop_eq_nil_of_le (by omega)]
    simp
  unfold ofGroups?
  rw [if_pos]
  · have h14 : ∀ cs : List Char, cs.drop 14 = (cs.drop 9).drop 5 := fun cs => by
      rw [List.drop_drop]
    have h19 : ∀ cs : List Char, cs.drop 19 = ((cs.drop 9).drop 5).drop 5 := fun cs => by
      rw [List.drop_drop, List.drop_drop]
    have h24 : ∀ cs : List Char, cs.drop 24 = (((cs.drop 9).drop 5).drop 5).drop 5 := fun cs => by
      rw [List.drop_drop, List.drop_drop, List.drop_drop]
    rw [h14, h19, h24, hdrop ha, hdrop hb, hdrop hc, hdrop hd, htake ha, htake hb, htake hc,
      htake hd]
  · simp [ha, hb, hc, hd, he, List.getElem?_append, List.getElem?_cons]

theorem ofChars?_toChars (id : NodeId) : ofChars? id.toChars = some id := by
  let ds := Text.toHex 32 id.toNat
  have hds : ds.length = 32 := Text.length_toHex 32 id.toNat
  have hgroups : id.toChars = ds.take 8 ++ '-' :: ((ds.drop 8).take 4 ++ '-' ::
      ((ds.drop 12).take 4 ++ '-' :: ((ds.drop 16).take 4 ++ '-' :: ds.drop 20))) := by
    simp [toChars, ds]
  have hjoined : ds.take 8 ++ (ds.drop 8).take 4 ++ (ds.drop 12).take 4 ++ (ds.drop 16).take 4 ++
      ds.drop 20 = ds := by
    have htwelve : ds.drop 12 = (ds.drop 8).drop 4 := by rw [List.drop_drop]
    have hsixteen : ds.drop 16 = ((ds.drop 8).drop 4).drop 4 := by
      rw [List.drop_drop, List.drop_drop]
    have htwenty : ds.drop 20 = (((ds.drop 8).drop 4).drop 4).drop 4 := by
      rw [List.drop_drop, List.drop_drop, List.drop_drop]
    rw [htwelve, hsixteen, htwenty]
    simp only [List.append_assoc, List.take_append_drop]
  have hlength : id.toChars.length = 36 := by
    rw [hgroups]
    simp [hds]
  have hread : ofDigits? ds = some id := by
    have hlt : id.toNat < 16 ^ 32 := id.bits.isLt
    rw [ofDigits?, if_pos hds, Text.ofHex?_toHex, Nat.mod_eq_of_lt hlt]
    simp [ofNat, toNat]
  unfold ofChars?
  rw [if_neg (by omega), if_pos hlength, hgroups,
    ofGroups?_append (by simp [hds]) (by simp [hds]) (by simp [hds]) (by simp [hds])
      (by simp [hds]), hjoined, hread]

end NodeId

end Patchbay
