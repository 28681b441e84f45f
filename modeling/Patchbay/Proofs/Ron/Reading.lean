import Patchbay.Proofs.Ron.Numeral
import Patchbay.Proofs.Ron.Quoted
import Patchbay.Proofs.Text.Hex
import Patchbay.Proofs.Value.Standard
import Patchbay.Ron.Form

/-!
# Reading what was written

`Reads read cs a` says that a reader takes just the text `cs` off whatever it stands in front of,
and gives `a`. There is a lemma of it for each reader: those of single values say which text is read
to what, and those of brackets build on the readers of what stands inside. White space may stand
around the members of brackets, and a comma after the last (`Gap`).
-/

namespace Patchbay.Ron

/-! ## Beginnings -/

/-- Whether something to be read may begin with a character. -/
def isStart (c : Char) : Bool :=
  !isBlank c && !(['/', ',', ')', ']', '#'].contains c)

/-- Whether a text begins with such a character. -/
def Starts (cs : List Char) : Prop := cs.head?.any isStart = true

theorem starts_cons {c : Char} {cs : List Char} : Starts (c :: cs) ↔ isStart c = true := by
  simp [Starts]

theorem Starts.append {cs : List Char} (h : Starts cs) (rest : List Char) :
    Starts (cs ++ rest) := by
  cases cs with
  | nil => cases h
  | cons c cs => exact h

theorem Starts.head?_ne {cs : List Char} (h : Starts cs) {c : Char} (hc : isStart c = false) :
    cs.head? ≠ some c := by
  intro hhead
  rw [Starts, hhead] at h
  exact absurd h (by simp [hc])

theorem Starts.visible {cs : List Char} (h : Starts cs) : Visible cs := by
  intro c hc
  have hstart : isStart c = true := by
    rw [Starts, hc] at h
    simpa using h
  refine ⟨?_, ?_⟩
  · simp only [isStart, Bool.and_eq_true, Bool.not_eq_true'] at hstart
    exact hstart.1
  · rintro rfl
    exact absurd hstart (by decide)

theorem isStart_of_isDigit {c : Char} (h : c.isDigit = true) : isStart c = true := by
  have hle := Decimal.toNat_of_isDigit h
  revert h
  exact forall_char_of_ascii (p := fun c => c.isDigit = true → isStart c = true)
    (by decide +kernel) (by omega)

theorem starts_of_isName {cs : List Char} (h : isName cs = true) : Starts cs := by
  match cs, h with
  | c :: d :: r, h =>
    simp only [isName, Bool.and_eq_true, List.all_cons] at h
    have hpart : Text.isIdentifierPart c = true := h.1.2.1
    have hblank : isBlank c = false := by
      apply Bool.eq_false_iff.mpr
      intro hc
      have hraw := isRawPart_of_isBlank hc
      simp [isRawPart, hpart] at hraw
    have hmark : c ∉ ['/', ',', ')', ']', '#'] := by
      intro hmem
      simp only [List.mem_cons, List.not_mem_nil, or_false] at hmem
      rcases hmem with rfl | rfl | rfl | rfl | rfl <;> exact absurd hpart (by decide)
    rw [starts_cons, isStart, hblank, List.contains_eq_mem, decide_eq_false hmark]
    rfl

theorem starts_writeFloat {f : Binary.Format} (hf : f.Moderate) (negative : Bool) (m : Nat) :
    Starts (writeFloat f negative m) := by
  cases negative with
  | true => exact starts_cons.mpr (by decide)
  | false =>
    -- without a sign a word comes first, or the digits before the point
    unfold writeFloat
    by_cases hnan : f.infinity < m
    · rw [if_pos hnan]
      exact (rfl : _ = true)
    rw [if_neg hnan]
    by_cases hinfinity : m = f.infinity
    · rw [if_pos hinfinity]
      exact (rfl : _ = true)
    · obtain ⟨whole, fraction, hspells, hwritten⟩ := exists_writeMagnitude hf (m := m) (by omega)
      obtain ⟨d, ds, rfl⟩ := List.exists_cons_of_ne_nil hspells.whole_ne_nil
      rw [if_neg hinfinity, hwritten]
      exact starts_cons.mpr (isStart_of_isDigit (hspells.whole_digits d (by simp)))

/-! ## Contexts and readers -/

/-- Whether nothing may be left out in a context. -/
structure Context.Plain (ctx : Context) : Prop where
  extensions : ctx.extensions = {}
  inVariant : ctx.inVariant = false

theorem Context.Plain.inside {ctx : Context} (h : ctx.Plain) (levels : Nat) :
    (ctx.inside levels).Plain :=
  ⟨h.extensions, rfl⟩

section

variable {α β : Type}

/-- Whether a reader reads `a` from a text, whatever comes next that does not go on with it. -/
structure Reads (read : Reader α) (cs : List Char) (a : α) : Prop where
  starts : Starts cs
  append : ∀ {ctx : Context}, ctx.Plain → ∀ {rest : List Char}, Ends rest →
    read ctx (cs ++ rest) = some (a, rest)

namespace Reads

variable {read : Reader α} {cs : List Char} {a : α}

theorem map (h : Reads read cs a) (f : α → β) : Reads (.map f read) cs (f a) where
  starts := h.starts
  append hctx _ hrest := by simp [Reader.map, h.append hctx hrest]

theorem mapOption (h : Reads read cs a) {f : α → Option β} {b : β} (hf : f a = some b) :
    Reads (.mapOption f read) cs b where
  starts := h.starts
  append hctx _ hrest := by simp [Reader.mapOption, h.append hctx hrest, hf]

/-! ## Single values -/

theorem bool (b : Bool) : Reads .bool (writeBool b) b where
  starts := by cases b <;> exact (rfl : _ = true)
  append _ rest hrest := by
    unfold Reader.bool
    cases b with
    | true => rw [writeBool, if_pos rfl, word?_append "true" hrest]
    | false =>
      have htrue : word? "true" ("false".toList ++ rest) = none :=
        word?_eq_none (c := 't') rfl (by simp)
      rw [writeBool, if_neg Bool.false_ne_true, htrue, word?_append "false" hrest]
      rfl

theorem index {n : Nat} (hn : n < 2 ^ 64) : Reads .index (writeNat n) n where
  starts := by
    obtain ⟨d, ds, hcons⟩ := List.exists_cons_of_ne_nil (Nat.toDigits_ne_nil (b := 10) (n := n))
    have hd : d.isDigit = true := Decimal.isDigit_of_mem_toDigits (by rw [hcons]; simp)
    rw [writeNat, hcons]
    exact starts_cons.mpr (isStart_of_isDigit hd)
  append _ _ hrest := by simp [Reader.index, integer?_writeNat hn hrest]

theorem word64 (n : UInt64) : Reads .word64 (writeNat n.toNat) n := by
  have h := (index n.toNat_lt).map UInt64.ofNat
  rwa [UInt64.ofNat_toNat] at h

theorem string (s : String) : Reads .string (writeString s) s where
  starts := starts_cons.mpr (by decide)
  append _ rest _ := quoted?_writeString s rest

/-- A number of any format is read from what it was written as, by whatever it is made into. -/
theorem float (names : List String) (hnames : ∀ name ∈ names, name.toList.head? = some 'f')
    {f : Binary.Format} (hf : f.Moderate) (make : Bool → Nat → α) (negative : Bool) (m : Nat) :
    Reads (fun _ cs => (float? names cs).map fun p =>
        (make p.1.isNegative (p.1.magnitude f), p.2))
      (writeFloat f negative m) (make negative (if f.infinity < m then f.nan else m)) where
  starts := starts_writeFloat hf negative m
  append _ _ hrest := by
    obtain ⟨n, hread, hsign, hmagnitude⟩ := float?_writeFloat names hnames hf negative m hrest
    rw [hread, Option.map_some, hsign, hmagnitude]

theorem double (x : Double) : Reads .double (writeDouble x) x.standard := by
  rw [x.standard_eq]
  exact float ["f64"] (by simp) Binary.Format.moderate_double Double.ofParts x.isNegative
    x.magnitude

theorem single (x : Single) : Reads .single (writeSingle x) x.standard := by
  rw [x.standard_eq]
  exact float ["f32"] (by simp) Binary.Format.moderate_single Single.ofParts x.isNegative
    x.magnitude

/-! ## Documents -/

theorem document? (h : Reads read cs a) (before after : Blanks) :
    read.document? (before.chars ++ (cs ++ after.chars)) = some a := by
  have hstarts : Starts (cs ++ after.chars) := h.starts.append _
  have hheaders : headers? ((before.chars ++ (cs ++ after.chars)).length + 1) {}
      (before.chars ++ (cs ++ after.chars)) = some ({}, cs ++ after.chars) := by
    rw [headers?, skipBlanks?_append before hstarts.visible]
    exact if_neg (hstarts.head?_ne (by decide))
  have hends : Ends after.chars := by
    rw [← List.append_nil after.chars]
    exact after.ends_append ends_nil
  have hread := h.append (⟨rfl, rfl⟩ : ({} : Context).Plain) hends
  have hrest : skipBlanks? after.chars = some [] := by
    have hskip := skipBlanks?_append after visible_nil
    rwa [List.append_nil] at hskip
  unfold Reader.document?
  rw [hheaders]
  simp [hread, hrest]

end Reads

end

end Patchbay.Ron
