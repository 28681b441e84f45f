import Patchbay.Proofs.Decimal.Text
import Patchbay.Ron.Token

/-!
# Taking tokens

What is taken of a text when the text is some token with something else after it. White space may
stand around punctuation (`Blanks`). A word ends where nothing comes next that it could go on with
(`Ends`), and white space ends where something visible comes next (`Visible`).
-/

namespace Patchbay.Ron

/-! ## What comes next -/

/-- Whether nothing comes next that a word or a number could go on with. -/
def Ends (rest : List Char) : Prop := ∀ c ∈ rest.head?, isRawPart c = false

/-- Whether neither white space nor a comment comes next. -/
def Visible (rest : List Char) : Prop := ∀ c ∈ rest.head?, isBlank c = false ∧ c ≠ '/'

theorem ends_nil : Ends [] := by simp [Ends]

theorem ends_cons {c : Char} {rest : List Char} : Ends (c :: rest) ↔ isRawPart c = false := by
  simp [Ends]

theorem visible_nil : Visible [] := by simp [Visible]

theorem visible_cons {c : Char} {rest : List Char} :
    Visible (c :: rest) ↔ isBlank c = false ∧ c ≠ '/' := by
  simp [Visible]

theorem isRawPart_of_isBlank {c : Char} (h : isBlank c = true) : isRawPart c = false := by
  have hcode : ∀ n, c.toNat = n → c = Char.ofNat n := fun n hn => by rw [← hn, Char.ofNat_toNat]
  simp only [isBlank, Bool.or_eq_true, decide_eq_true_eq, List.contains_eq_mem, List.mem_cons,
    List.not_mem_nil, or_false] at h
  -- six blank characters are given as such, and five by their code points
  rcases h with h | h
  · rcases h with ((((rfl | rfl) | rfl) | rfl) | rfl) | rfl <;> decide
  · rcases h with h | h | h | h | h <;> rw [hcode _ h] <;> decide +kernel

/-! ## White space -/

/-- A stretch of white space, which may be empty. -/
structure Blanks where
  chars : List Char
  isBlank_of_mem : ∀ c ∈ chars, isBlank c = true

namespace Blanks

/-- No white space. -/
def none : Blanks := ⟨[], by simp⟩

/-- One space. -/
def space : Blanks := ⟨[' '], by simp; decide⟩

/-- A line break with spaces after it. -/
def newLine (spaces : Nat) : Blanks :=
  ⟨'\n' :: List.replicate spaces ' ', by
    intro c hc
    rcases List.mem_cons.mp hc with rfl | hc
    · decide
    · rw [List.eq_of_mem_replicate hc]
      decide⟩

theorem ends_append (w : Blanks) {rest : List Char} (h : Ends rest) : Ends (w.chars ++ rest) := by
  cases hchars : w.chars with
  | nil => exact h
  | cons c cs =>
    have hc : isBlank c = true := w.isBlank_of_mem c (by rw [hchars]; exact List.mem_cons_self ..)
    exact ends_cons.mpr (isRawPart_of_isBlank hc)

end Blanks

theorem skipBlanks?_append (w : Blanks) {rest : List Char} (h : Visible rest) :
    skipBlanks? (w.chars ++ rest) = some rest := by
  have hspan := (Text.span_append w.isBlank_of_mem fun c hc => (h c hc).1).2
  unfold skipBlanks? skipBlanksFrom?
  rw [hspan]
  cases rest with
  | nil => rfl
  | cons c r =>
    have hslash : c ≠ '/' := (visible_cons.mp h).2
    simp [hslash]

theorem skipBlanks?_of_visible {rest : List Char} (h : Visible rest) :
    skipBlanks? rest = some rest :=
  skipBlanks?_append .none h

/-! ## Punctuation -/

theorem symbol?_cons (c : Char) (rest : List Char) : symbol? c (c :: rest) = some rest := by
  simp [symbol?]

/-- A comma is taken with the white space on both sides. -/
theorem comma?_of_comma (before after : Blanks) {rest : List Char} (h : Visible rest) :
    comma? (before.chars ++ ',' :: (after.chars ++ rest)) = some (true, rest) := by
  have hcomma : Visible (',' :: (after.chars ++ rest)) := visible_cons.mpr (by decide)
  simp [comma?, skipBlanks?_append before hcomma, symbol?_cons, skipBlanks?_append after h]

theorem comma?_of_ne (before : Blanks) {rest : List Char} (h : Visible rest)
    (hne : rest.head? ≠ some ',') : comma? (before.chars ++ rest) = some (false, rest) := by
  have hsymbol : symbol? ',' rest = none := by
    cases rest with
    | nil => rfl
    | cons c r =>
      have hc : c ≠ ',' := fun heq => hne (by rw [heq]; rfl)
      simp [symbol?, hc]
  simp [comma?, skipBlanks?_append before h, hsymbol]

/-! ## Words -/

theorem goesOn_of_ends {rest : List Char} (h : Ends rest) : goesOn rest = false := by
  cases rest with
  | nil => rfl
  | cons c r =>
    have hraw := ends_cons.mp h
    simp only [isRawPart, Bool.or_eq_false_iff] at hraw
    exact hraw.1.1.1

theorem after?_append (start rest : List Char) : after? start (start ++ rest) = some rest := by
  simp [after?]

theorem word?_append (word : String) {rest : List Char} (h : Ends rest) :
    word? word (word.toList ++ rest) = some rest := by
  simp [word?, after?_append, goesOn_of_ends h]

theorem word?_eq_none_of_prefix {word : String} {cs : List Char}
    (h : ¬ word.toList <+: cs) : word? word cs = none := by
  simp [word?, after?, h]

/-- A word is not taken where its first character does not come next. -/
theorem word?_eq_none {word : String} {c : Char} (hword : word.toList.head? = some c)
    {cs : List Char} (hcs : cs.head? ≠ some c) : word? word cs = none := by
  obtain ⟨r, hr⟩ := List.head?_eq_some_iff.mp hword
  apply word?_eq_none_of_prefix
  rintro ⟨t, rfl⟩
  rw [hr] at hcs
  exact hcs rfl

/-! ## Names -/

/-- Whether a name is read as it stands: no text or run of bytes begins like it. -/
def isName : List Char → Bool
  | a :: b :: r =>
    Text.isIdentifierStart a && (a :: b :: r).all Text.isIdentifierPart && !(a = 'b' && b = 'r')
  | _ => false

theorem identifier?_append {name : String} (hname : isName name.toList = true)
    {rest : List Char} (hrest : Ends rest) :
    identifier? (name.toList ++ rest) = some (name, rest) := by
  match hchars : name.toList, hname with
  | a :: b :: r, hname =>
    simp only [isName, Bool.and_eq_true, List.all_eq_true, Bool.not_eq_true'] at hname
    obtain ⟨⟨hstart, hparts⟩, hbytes⟩ := hname
    have hb : Text.isIdentifierPart b = true := hparts b (by simp)
    -- the second character tells the name from the beginning of a literal
    have hquote : b ≠ '"' ∧ b ≠ '#' ∧ b ≠ '\'' := by
      refine ⟨?_, ?_, ?_⟩ <;> (rintro rfl; exact absurd hb (by decide))
    have hliteral : literalStarts.any (·.isPrefixOf (a :: b :: (r ++ rest))) = false := by
      simp only [Bool.and_eq_false_iff, decide_eq_false_iff_not] at hbytes
      simp only [literalStarts, List.map_cons, List.map_nil, List.any_cons, List.any_nil,
        String.reduceToList, Bool.or_eq_false_iff, Bool.and_eq_false_iff,
        beq_eq_false_iff_ne, ne_eq, List.isPrefixOf, and_true]
      grind
    have hraw : after? ['r', '#'] (a :: b :: (r ++ rest)) = none := by
      have hhash : ¬ '#' = b := fun h => hquote.2.1 h.symm
      simp [after?, hhash]
    -- and the name ends where the next thing does not go on with it
    have hspan := Text.span_append (fun c hc => hparts c hc) fun c hc => by
      have hc' := hrest c hc
      simp only [isRawPart, Bool.or_eq_false_iff] at hc'
      exact hc'.1.1.1
    have hend : rest.head?.any isRawPart = false := by
      cases rest with
      | nil => rfl
      | cons c cs => exact ends_cons.mp hrest
    rw [List.cons_append, List.cons_append] at hspan
    unfold identifier?
    simp only [List.cons_append, hstart, hliteral, hraw, hspan.1, hspan.2, hend]
    simp [← hchars]

end Patchbay.Ron
