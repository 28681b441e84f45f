import Patchbay.Proofs.Ron.Token
import Patchbay.Ron.Numeral

/-!
# Written numbers read back

A natural number is read back from its digits (`integer?_writeNat`). A floating-point number is read
back from its shortest decimal, or from the word for infinity or for what is no number, with its
sign (`float?_writeFloat`).
-/

namespace Patchbay.Ron

/-! ## Characters of numbers -/

theorem hexValue?_of_isDigit {c : Char} (h : c.isDigit = true) :
    Text.hexValue? c = some (Decimal.digitValue c) := by
  have hle := Decimal.toNat_of_isDigit h
  have hrange : '0' ≤ c ∧ c ≤ '9' := by
    rw [Char.le_def, Char.le_def, UInt32.le_iff_toNat_le, UInt32.le_iff_toNat_le]
    exact hle
  rw [Text.hexValue?, if_pos hrange]
  rfl

/-- What is said of the characters of a number is said of few, and so is checked one by one. -/
theorem forall_char_of_ascii {p : Char → Prop} (hp : ∀ n < 128, p (Char.ofNat n)) {c : Char}
    (hc : c.toNat < 128) : p c := by
  rw [← Char.ofNat_toNat c]
  exact hp c.toNat hc

theorem toNat_lt_of_hexValue? {c : Char} (h : (Text.hexValue? c).isSome = true) :
    c.toNat < 128 := by
  have hle : ∀ d : Char, c ≤ d → c.toNat ≤ d.toNat := fun d hd => by
    rwa [Char.le_def, UInt32.le_iff_toNat_le] at hd
  unfold Text.hexValue? at h
  split at h
  · rename_i hrange
    exact Nat.lt_of_le_of_lt (hle _ hrange.2) (by decide)
  · split at h
    · rename_i hrange
      exact Nat.lt_of_le_of_lt (hle _ hrange.2) (by decide)
    · split at h
      · rename_i hrange
        exact Nat.lt_of_le_of_lt (hle _ hrange.2) (by decide)
      · cases h

theorem isRawPart_of_isIntegerChar {c : Char} (h : isIntegerChar c = true) :
    isRawPart c = true := by
  have hascii : c.toNat < 128 := by
    simp only [isIntegerChar, Bool.or_eq_true, decide_eq_true_eq] at h
    rcases h with h | rfl
    · exact toNat_lt_of_hexValue? h
    · decide
  revert h
  exact forall_char_of_ascii (p := fun c => isIntegerChar c = true → isRawPart c = true)
    (by decide) hascii

theorem isRawPart_of_isFloatChar {c : Char} (h : isFloatChar c = true) : isRawPart c = true := by
  have hascii : c.toNat < 128 := by
    simp only [isFloatChar, Bool.or_eq_true, decide_eq_true_eq] at h
    rcases h with (((((h | rfl) | rfl) | rfl) | rfl) | rfl) | rfl
    · have hle := Decimal.toNat_of_isDigit h
      omega
    all_goals decide
  revert h
  exact forall_char_of_ascii (p := fun c => isFloatChar c = true → isRawPart c = true)
    (by decide) hascii

theorem isIntegerChar_of_isDigit {c : Char} (h : c.isDigit = true) : isIntegerChar c = true := by
  simp [isIntegerChar, hexValue?_of_isDigit h]

theorem isFloatChar_of_isDigit {c : Char} (h : c.isDigit = true) : isFloatChar c = true := by
  simp [isFloatChar, h]

/-- A number ends where nothing comes next that it could go on with. -/
theorem eq_false_of_ends {p : Char → Bool} (hp : ∀ {c}, p c = true → isRawPart c = true)
    {rest : List Char} (h : Ends rest) : ∀ c ∈ rest.head?, p c = false := by
  intro c hc
  apply Bool.eq_false_iff.mpr
  intro hpc
  have hraw := h c hc
  rw [hp hpc] at hraw
  cases hraw

theorem head?_ne_of_ends {c : Char} (hc : isRawPart c = true) {rest : List Char}
    (h : Ends rest) : rest.head? ≠ some c := by
  intro hhead
  have hraw := h c hhead
  rw [hc] at hraw
  cases hraw

/-! ## Natural numbers -/

theorem ofDigits?_of_isDigit {cs : List Char} (h : ∀ c ∈ cs, c.isDigit = true) :
    ofDigits? 10 cs = some (Decimal.ofDigits cs) := by
  have hfilter : cs.filter (· ≠ '_') = cs := by
    apply List.filter_eq_self.mpr
    intro c hc
    have hdigit := h c hc
    simp only [decide_not, Bool.not_eq_true', decide_eq_false_iff_not]
    rintro rfl
    cases hdigit
  unfold ofDigits? Decimal.ofDigits
  rw [hfilter]
  -- the number read so far is any, and grows with the digits
  generalize 0 = n
  induction cs generalizing n with
  | nil => rfl
  | cons c cs ih =>
    have hc := h c (List.mem_cons_self ..)
    have hle := Decimal.toNat_of_isDigit hc
    have hvalue : Decimal.digitValue c < 10 := by
      rw [Decimal.digitValue, show '0'.toNat = 48 from rfl]
      omega
    have hcs : ∀ d ∈ cs, d.isDigit = true := fun d hd => h d (List.mem_cons_of_mem _ hd)
    have hfilter' : cs.filter (· ≠ '_') = cs := by
      rw [List.filter_cons_of_pos (by simp; rintro rfl; cases hc)] at hfilter
      exact (List.cons.inj hfilter).2
    simp only [List.foldlM_cons, List.foldl_cons, hexValue?_of_isDigit hc, Option.bind_eq_bind,
      Option.bind_some, if_pos hvalue]
    exact ih hcs hfilter' _

/-- A base is marked by the second character, which here is a digit or the end. -/
theorem splitBase_append {digits rest : List Char} (hne : digits ≠ [])
    (h : ∀ c ∈ digits, c.isDigit = true) (hrest : Ends rest) :
    splitBase (digits ++ rest) = (10, digits ++ rest) := by
  have hmark : ∀ {c r}, isRawPart c = true → c.isDigit = false →
      digits ++ rest ≠ '0' :: c :: r := by
    intro c r hraw hdigit heq
    obtain ⟨d, ds, rfl⟩ := List.exists_cons_of_ne_nil hne
    have htail : ds ++ rest = c :: r := (List.cons.inj heq).2
    cases ds with
    | nil =>
      have hhead : rest.head? = some c := by
        rw [← List.nil_append rest, htail]
        rfl
      exact head?_ne_of_ends hraw hrest hhead
    | cons e ds =>
      have he := h e (by simp)
      rw [(List.cons.inj htail).1, hdigit] at he
      cases he
  unfold splitBase
  split
  · rename_i heq
    exact absurd heq (hmark (by decide) (by decide))
  · rename_i heq
    exact absurd heq (hmark (by decide) (by decide))
  · rename_i heq
    exact absurd heq (hmark (by decide) (by decide))
  · rfl

theorem integer?_writeNat {n : Nat} (hn : n < 2 ^ 64) {rest : List Char} (hrest : Ends rest) :
    integer? .word64 (writeNat n ++ rest) = some ((n : Int), rest) := by
  have hdigits : ∀ c ∈ writeNat n, c.isDigit = true := fun _ hc =>
    Decimal.isDigit_of_mem_toDigits hc
  have hne : writeNat n ≠ [] := Nat.toDigits_ne_nil
  obtain ⟨d, ds, hcons⟩ := List.exists_cons_of_ne_nil hne
  have hd : d.isDigit = true := hdigits d (by rw [hcons]; exact List.mem_cons_self ..)
  have hsign : Decimal.Numeral.splitSign (writeNat n ++ rest) = (false, writeNat n ++ rest) := by
    rw [hcons]
    exact Decimal.Numeral.splitSign_append false (c := d) rfl hd
  have hspan := Text.span_append (fun c hc => isIntegerChar_of_isDigit (hdigits c hc))
    (eq_false_of_ends isRawPart_of_isIntegerChar hrest)
  have hfirst : d ≠ '_' := by
    rintro rfl
    cases hd
  have hread : digits? (writeNat n ++ rest) = some (n, rest) := by
    unfold digits?
    rw [splitBase_append hne hdigits hrest]
    dsimp only
    rw [hspan.1, hspan.2, if_neg (by simp [hcons, hfirst]), ofDigits?_of_isDigit hdigits]
    simp [writeNat, Decimal.ofDigits_toDigits]
  -- no type is named after the digits
  have hunnamed : typeAfter? (writeNat n ++ rest) = none := by
    unfold typeAfter?
    rw [hspan.2, List.findSome?_eq_none_iff]
    have hnames : ∀ t ∈ IntegerType.all, t.name.toList.head?.any isRawPart = true := by decide
    intro t ht
    obtain ⟨c, hname, hraw⟩ := (Option.any_eq_true _ _).mp (hnames t ht)
    rw [word?_eq_none hname (head?_ne_of_ends hraw hrest), Option.map_none]
  have hany : anyInteger? (writeNat n ++ rest) = some (((n : Int), none), rest) := by
    unfold anyInteger?
    simp [hsign, hread, hunnamed]
  have hhas : IntegerType.word64.has n = true := by
    have hle : (n : Int) ≤ 0xFFFFFFFFFFFFFFFF := by omega
    simp [IntegerType.has, IntegerType.word64, hle]
  unfold integer?
  simp [hany, hhas]

/-! ## Floating-point numbers -/

section Float

variable {names : List String}

/-- No word for a number begins like digits with a sign. -/
theorem floatWord?_eq_none (negative : Bool) {c : Char} (hc : c.isDigit = true)
    (rest : List Char) :
    floatWord? names ((if negative then ['-'] else []) ++ c :: rest) = none := by
  have hne : c ≠ 'i' ∧ c ≠ '+' ∧ c ≠ '-' ∧ c ≠ 'N' := by
    refine ⟨?_, ?_, ?_, ?_⟩ <;> (rintro rfl; cases hc)
  have hprefix : ∀ p ∈ floatWords,
      ¬ p.1.toList <+: (if negative then ['-'] else []) ++ c :: rest := by
    intro p hp
    simp only [floatWords, List.mem_cons, List.not_mem_nil, or_false] at hp
    rcases hp with rfl | rfl | rfl | rfl | rfl | rfl <;> cases negative <;>
      simp [hne.1.symm, hne.2.1.symm, hne.2.2.1.symm, hne.2.2.2.symm]
  have hword : ∀ p ∈ floatWords, ∀ name : String,
      word? (p.1 ++ name) ((if negative then ['-'] else []) ++ c :: rest) = none := by
    intro p hp name
    apply word?_eq_none_of_prefix
    rw [String.toList_append]
    exact fun h => hprefix p hp ((List.prefix_append _ _).trans h)
  unfold floatWord?
  rw [List.findSome?_eq_none_iff]
  intro p hp
  have hself := hword p hp ""
  rw [String.append_empty] at hself
  simp [hself, hword p hp]

theorem floatWord?_append {word : String} {n : Decimal.Numeral} (hword : (word, n) ∈ floatWords)
    {rest : List Char} (hrest : Ends rest) :
    floatWord? names (word.toList ++ rest) = some (n, rest) := by
  have hself := word?_append word hrest
  have hother : ∀ p ∈ floatWords, p.1 ≠ word → ∀ name : String,
      word? (p.1 ++ name) (word.toList ++ rest) = none := by
    intro p hp hne name
    have hprefix : ¬ p.1.toList <+: word.toList ++ rest := by
      simp only [floatWords, List.mem_cons, List.not_mem_nil, or_false, Prod.mk.injEq] at hp hword
      rcases hp with rfl | rfl | rfl | rfl | rfl | rfl <;>
        rcases hword with ⟨rfl, -⟩ | ⟨rfl, -⟩ | ⟨rfl, -⟩ | ⟨rfl, -⟩ | ⟨rfl, -⟩ | ⟨rfl, -⟩ <;>
          simp at hne ⊢
    apply word?_eq_none_of_prefix
    rw [String.toList_append]
    exact fun h => hprefix ((List.prefix_append _ _).trans h)
  -- the words that are tried before it are other words
  obtain ⟨before, after, hsplit⟩ := List.append_of_mem hword
  unfold floatWord?
  rw [List.findSome?_eq_some_iff]
  refine ⟨before, (word, n), after, hsplit, by simp [hself], ?_⟩
  intro p hp
  have hdistinct : (floatWords.map (·.1)).Nodup := by decide
  have hne : p.1 ≠ word := by
    rw [hsplit, List.map_append, List.nodup_append] at hdistinct
    exact hdistinct.2.2 _ (List.mem_map_of_mem hp) _ (by simp)
  have hmem : p ∈ floatWords := by
    rw [hsplit]
    exact List.mem_append_left _ hp
  have hnone := hother p hmem hne ""
  rw [String.append_empty] at hnone
  simp [hnone, hother p hmem hne]

theorem dropUnderscores?_eq_some {cs : List Char} (h : '_' ∉ cs) (allowed : Bool) :
    dropUnderscores? allowed cs = some cs := by
  induction cs generalizing allowed with
  | nil => rfl
  | cons c cs ih =>
    rw [List.mem_cons, not_or] at h
    unfold dropUnderscores?
    rw [if_neg (Ne.symm h.1)]
    dsimp only
    rw [ih h.2]
    rfl

theorem float?_digits (hnames : ∀ name ∈ names, name.toList.head? = some 'f') (negative : Bool)
    {whole fraction rest : List Char} (hne : whole ≠ [])
    (hwhole : ∀ c ∈ whole, c.isDigit = true) (hfraction : ∀ c ∈ fraction, c.isDigit = true)
    (hrest : Ends rest) :
    float? names ((if negative then ['-'] else []) ++ (whole ++ '.' :: fraction) ++ rest) =
      some (.finite negative (Decimal.ofDigits (whole ++ fraction)) (-(fraction.length : Int)),
        rest) := by
  obtain ⟨c, cs, rfl⟩ := List.exists_cons_of_ne_nil hne
  have hnone : floatWord? names
      ((if negative then ['-'] else []) ++ c :: (cs ++ '.' :: fraction ++ rest)) = none :=
    floatWord?_eq_none negative (hwhole c (by simp)) _
  have hchars : ∀ d ∈ (if negative then ['-'] else []) ++ (c :: cs ++ '.' :: fraction),
      isFloatChar d = true ∧ d ≠ '_' := by
    have hdigit : ∀ d : Char, d.isDigit = true → isFloatChar d = true ∧ d ≠ '_' := by
      intro d hd
      exact ⟨isFloatChar_of_isDigit hd, by rintro rfl; cases hd⟩
    intro d hd
    rcases List.mem_append.mp hd with hd | hd
    · cases negative with
      | true =>
        rw [List.mem_singleton.mp hd]
        decide
      | false => cases hd
    · rcases List.mem_append.mp hd with hd | hd
      · exact hdigit d (hwhole d hd)
      · rcases List.mem_cons.mp hd with rfl | hd
        · decide
        · exact hdigit d (hfraction d hd)
  have hspan := Text.span_append (fun d hd => (hchars d hd).1)
    (eq_false_of_ends isRawPart_of_isFloatChar hrest)
  have hplain := dropUnderscores?_eq_some (fun hmem => (hchars _ hmem).2 rfl) false
  -- no type is named after the digits
  have hunnamed : names.findSome? (word? · rest) = none := by
    rw [List.findSome?_eq_none_iff]
    intro name hname
    exact word?_eq_none (hnames name hname) (head?_ne_of_ends (by decide) hrest)
  have hread := Decimal.Numeral.ofChars?_digits negative hne hwhole hfraction
  unfold float?
  simp only [List.append_assoc, List.cons_append] at hnone hspan hplain hread ⊢
  rw [hnone]
  simp [hspan.1, hspan.2, hplain, hread, hunnamed]

/-- A finite magnitude is written with a point. -/
theorem exists_writeMagnitude {f : Binary.Format} (hf : f.Moderate) {m : Nat}
    (hfinite : m < f.infinity) :
    ∃ whole fraction : List Char, Decimal.Spells f m whole fraction ∧
      writeMagnitude f m = whole ++ '.' :: fraction := by
  obtain ⟨whole, fraction, hspells, htext⟩ := Decimal.exists_text hf hfinite
  unfold writeMagnitude
  rw [htext]
  by_cases hempty : fraction = []
  · have hpoint : '.' ∉ whole := fun hmem => by
      have hdigit := hspells.whole_digits _ hmem
      cases hdigit
    subst hempty
    exact ⟨whole, ['0'], hspells.append_zero, by simp [hpoint]⟩
  · exact ⟨whole, fraction, hspells, by simp [hempty]⟩

theorem float?_writeFloat (names : List String)
    (hnames : ∀ name ∈ names, name.toList.head? = some 'f') {f : Binary.Format} (hf : f.Moderate)
    (negative : Bool) (m : Nat) {rest : List Char} (hrest : Ends rest) :
    ∃ n : Decimal.Numeral, float? names (writeFloat f negative m ++ rest) = some (n, rest) ∧
      n.isNegative = negative ∧ n.magnitude f = if f.infinity < m then f.nan else m := by
  have hword : ∀ {word : String} {n : Decimal.Numeral}, (word, n) ∈ floatWords →
      float? names (word.toList ++ rest) = some (n, rest) := fun hmem => by
    rw [float?, floatWord?_append hmem hrest]
  unfold writeFloat
  by_cases hnan : f.infinity < m
  · refine ⟨.nan negative, ?_, rfl, by rw [if_pos hnan]; rfl⟩
    rw [if_pos hnan]
    cases negative with
    | true => exact @hword "-NaN" _ (by decide)
    | false => exact @hword "NaN" _ (by decide)
  rw [if_neg hnan]
  by_cases hinfinity : m = f.infinity
  · refine ⟨.infinity negative, ?_, rfl, by rw [if_neg hnan, hinfinity]; rfl⟩
    rw [if_pos hinfinity]
    cases negative with
    | true => exact @hword "-inf" _ (by decide)
    | false => exact @hword "inf" _ (by decide)
  · obtain ⟨whole, fraction, hspells, hwritten⟩ :=
      exists_writeMagnitude hf (m := m) (by omega)
    rw [if_neg hinfinity, hwritten, if_neg hnan]
    exact ⟨_, float?_digits hnames negative hspells.whole_ne_nil hspells.whole_digits
      hspells.fraction_digits hrest, rfl, hspells.reads⟩

end Float

end Patchbay.Ron
