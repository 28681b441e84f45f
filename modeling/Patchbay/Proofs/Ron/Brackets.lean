import Patchbay.Proofs.Ron.Reading

/-!
# Reading brackets

What stands in brackets is read member by member, whatever white space is between. The compact text
is the one without any. A record is read field by field, and `Fills` says what the fields make of
the state that they start from.
-/

namespace Patchbay.Ron

/-! ## Between members -/

/-- What stands after a member: white space, and perhaps a comma with more of it. -/
structure Gap where
  before : Blanks := .none
  /-- The white space after the comma, if there is one. -/
  comma : Option Blanks := none

namespace Gap

/-- The text of a gap. -/
def chars (g : Gap) : List Char :=
  g.before.chars ++ match g.comma with
    | none => []
    | some after => ',' :: after.chars

theorem comma?_append (g : Gap) {rest : List Char} (hrest : Visible rest)
    (hne : rest.head? ≠ some ',') : comma? (g.chars ++ rest) = some (g.comma.isSome, rest) := by
  unfold chars
  cases g.comma with
  | none =>
    rw [List.append_nil]
    exact comma?_of_ne g.before hrest hne
  | some after =>
    rw [List.append_assoc, List.cons_append]
    exact comma?_of_comma g.before after hrest

/-- A gap ends what stands before it, if it has a comma or if what comes next does. -/
theorem ends_append (g : Gap) {rest : List Char} (h : g.comma = none → Ends rest) :
    Ends (g.chars ++ rest) := by
  unfold chars
  rw [List.append_assoc]
  apply g.before.ends_append
  cases hcomma : g.comma with
  | none => exact h hcomma
  | some after => exact ends_cons.mpr (by decide)

theorem comma?_closing (g : Gap) (rest : List Char) :
    comma? (g.chars ++ ')' :: rest) = some (g.comma.isSome, ')' :: rest) :=
  g.comma?_append (visible_cons.mpr (by decide)) (by simp)

theorem ends_closing (g : Gap) (rest : List Char) : Ends (g.chars ++ ')' :: rest) :=
  g.ends_append fun _ => ends_cons.mpr (by decide)

end Gap

/-- A text in parentheses, with white space before it and a gap after it. -/
def enclosed (lead : Blanks) (cs : List Char) (gap : Gap) : List Char :=
  '(' :: (lead.chars ++ cs ++ gap.chars ++ [')'])

theorem inParentheses_eq (cs : List Char) : inParentheses cs = enclosed .none cs {} := by
  simp [inParentheses, enclosed, Blanks.none, Gap.chars]

variable {α β : Type} {read : Reader α} {cs : List Char} {a : α}

/-! ## Parentheses -/

theorem Reads.parenthesized (h : Reads read cs a) (lead : Blanks) (gap : Gap) :
    Reads (.parenthesized read) (enclosed lead cs gap) a where
  starts := starts_cons.mpr (by decide)
  append {ctx} hctx rest _ := by
    have hinner := h.append hctx (gap.ends_closing rest)
    have hlead := skipBlanks?_append lead (h.starts.append (gap.chars ++ ')' :: rest)).visible
    have hsplit : enclosed lead cs gap ++ rest =
        '(' :: (lead.chars ++ (cs ++ (gap.chars ++ ')' :: rest))) := by
      simp [enclosed]
    rw [hsplit]
    simp [Reader.parenthesized, symbol?_cons, hlead, hinner, gap.comma?_closing]

theorem Reads.pair {first : Reader α} {second : Reader β} {x y : List Char} {a : α} {b : β}
    (hx : Reads first x a) (hy : Reads second y b) (lead before after : Blanks) (gap : Gap) :
    Reads (.pair first second)
      (enclosed lead (x ++ (before.chars ++ ',' :: (after.chars ++ y))) gap) (a, b) where
  starts := starts_cons.mpr (by decide)
  append {ctx} hctx rest _ := by
    have hsecond := hy.append (hctx.inside 2) (gap.ends_closing rest)
    have hcomma := comma?_of_comma before after
      (hy.starts.append (gap.chars ++ ')' :: rest)).visible
    have hsplit : enclosed lead (x ++ (before.chars ++ ',' :: (after.chars ++ y))) gap ++ rest =
        '(' :: (lead.chars ++ (x ++ (before.chars ++
          ',' :: (after.chars ++ (y ++ (gap.chars ++ ')' :: rest)))))) := by
      simp [enclosed]
    rw [hsplit]
    generalize hnext : after.chars ++ (y ++ (gap.chars ++ ')' :: rest)) = next at hcomma
    have hends : Ends (before.chars ++ ',' :: next) :=
      before.ends_append (ends_cons.mpr (by decide))
    have hfirst := hx.append (hctx.inside 2) hends
    have hlead := skipBlanks?_append lead (hx.starts.append (before.chars ++ ',' :: next)).visible
    simp [Reader.pair, symbol?_cons, hlead, hfirst, hcomma, hsecond, gap.comma?_closing]

/-! ## Options -/

theorem Reads.absent (read : Reader α) : Reads (.option read) "None".toList none where
  starts := (rfl : _ = true)
  append _ rest hrest := by
    unfold Reader.option
    rw [word?_append "None" hrest]

theorem Reads.present (h : Reads read cs a) (between lead : Blanks) (gap : Gap) :
    Reads (.option read) ("Some".toList ++ (between.chars ++ enclosed lead cs gap)) (some a) where
  starts := (rfl : _ = true)
  append {ctx} hctx rest hrest := by
    have hnone : word? "None" ("Some".toList ++
        (between.chars ++ (enclosed lead cs gap ++ rest))) = none :=
      word?_eq_none (c := 'N') rfl (by simp)
    have hends : Ends (enclosed lead cs gap ++ rest) := ends_cons.mpr (by decide)
    have hvisible : Visible (enclosed lead cs gap ++ rest) := visible_cons.mpr (by decide)
    have hsome := word?_append "Some" (between.ends_append hends)
    have hblanks := skipBlanks?_append between hvisible
    have hinner := ((h.parenthesized lead gap).map some).append (hctx.inside 1) hrest
    have hhead : (enclosed lead cs gap ++ rest).head? = some '(' := rfl
    unfold Reader.option
    rw [List.append_assoc, List.append_assoc, hnone]
    dsimp only
    rw [hsome]
    simp [hblanks, hhead, hinner]

theorem Reads.option {write : α → List Char} {f : α → β} {read : Reader β}
    (h : ∀ a, Reads read (write a) (f a)) (o : Option α) :
    Reads (.option read) (writeOption write o) (o.map f) := by
  cases o with
  | none => exact Reads.absent read
  | some a =>
    have hsome := (h a).present .none .none {}
    rwa [← inParentheses_eq] at hsome

/-! ## Lists -/

theorem starts_commaSeparated {pieces : List (List Char)} (hne : pieces ≠ [])
    (h : ∀ piece ∈ pieces, Starts piece) : Starts (commaSeparated pieces) := by
  match pieces, hne with
  | [piece], _ => exact h piece (by simp)
  | piece :: next :: more, _ => exact (h piece (by simp)).append _

theorem elements_closing (read : Reader α) (ctx : Context) (fuel : Nat) (comma : Bool)
    (rest : List Char) :
    Reader.elements read ctx (fuel + 1) comma (']' :: rest) = some ([], ']' :: rest) := by
  have hclosing : Visible (']' :: rest) := visible_cons.mpr (by decide)
  simp [Reader.elements, skipBlanks?_of_visible hclosing]

theorem elements_member {ctx : Context} {fuel : Nat} {comma : Bool} {cs next tail : List Char}
    (hstarts : Starts cs) (hread : read ctx cs = some (a, next))
    (hcomma : comma? next = some (comma, tail)) :
    Reader.elements read ctx (fuel + 1) true cs =
      (Reader.elements read ctx fuel comma tail).map fun (as, r) => (a :: as, r) := by
  have hopen : cs.head? ≠ some ']' := hstarts.head?_ne (by decide)
  rw [Reader.elements, skipBlanks?_of_visible hstarts.visible]
  simp only [Option.bind_eq_bind, Option.bind_some, if_neg hopen, if_true, hread, hcomma]
  cases Reader.elements read ctx fuel comma tail <;> rfl

theorem elements_commaSeparated {write : α → List Char} {f : α → β} {read : Reader β}
    (h : ∀ a, Reads read (write a) (f a)) {ctx : Context} (hctx : ctx.Plain)
    (rest : List Char) (as : List α) (fuel : Nat) (hfuel : as.length < fuel) :
    Reader.elements read ctx fuel true (commaSeparated (as.map write) ++ ']' :: rest) =
      some (as.map f, ']' :: rest) := by
  induction as generalizing fuel with
  | nil =>
    obtain ⟨fuel, rfl⟩ := Nat.exists_eq_add_one_of_ne_zero (Nat.ne_zero_of_lt hfuel)
    exact elements_closing read ctx fuel true rest
  | cons a as ih =>
    obtain ⟨fuel, rfl⟩ := Nat.exists_eq_add_of_le' (show 2 ≤ fuel by simp at hfuel; omega)
    -- the last element has the bracket after it, any other a comma
    cases as with
    | nil =>
      have hread : read ctx (write a ++ ']' :: rest) = some (f a, ']' :: rest) :=
        (h a).append hctx (ends_cons.mpr (by decide))
      have hcomma : comma? (']' :: rest) = some (false, ']' :: rest) :=
        comma?_of_ne .none (visible_cons.mpr (by decide)) (by simp)
      have hstarts : Starts (write a ++ ']' :: rest) := (h a).starts.append _
      simp only [List.map_cons, List.map_nil, commaSeparated]
      rw [elements_member hstarts hread hcomma, elements_closing]
      rfl
    | cons b bs =>
      have hnext : Starts (commaSeparated ((b :: bs).map write)) := by
        apply starts_commaSeparated (by simp)
        intro piece hpiece
        obtain ⟨c, -, rfl⟩ := List.mem_map.mp hpiece
        exact (h c).starts
      have hmore := ih (fuel + 1) (by simp at hfuel ⊢; omega)
      have hvisible := (hnext.append (']' :: rest)).visible
      have hsplit : commaSeparated ((a :: b :: bs).map write) ++ ']' :: rest =
          write a ++ ',' :: (commaSeparated ((b :: bs).map write) ++ ']' :: rest) := by
        simp [commaSeparated]
      rw [hsplit]
      generalize commaSeparated ((b :: bs).map write) ++ ']' :: rest = tail at hmore hvisible
      have hread : read ctx (write a ++ ',' :: tail) = some (f a, ',' :: tail) :=
        (h a).append hctx (ends_cons.mpr (by decide))
      have hcomma : comma? (',' :: tail) = some (true, tail) :=
        comma?_of_comma .none .none hvisible
      rw [elements_member ((h a).starts.append (',' :: tail)) hread hcomma, hmore]
      rfl

theorem length_le_commaSeparated {pieces : List (List Char)}
    (h : ∀ piece ∈ pieces, Starts piece) : pieces.length ≤ (commaSeparated pieces).length := by
  have hpos : ∀ piece ∈ pieces, 0 < piece.length := by
    intro piece hpiece
    have hstarts := h piece hpiece
    cases piece with
    | nil => cases hstarts
    | cons c cs => simp
  clear h
  induction pieces with
  | nil => simp
  | cons piece more ih =>
    have hpiece := hpos piece (by simp)
    have hmore := ih fun p hp => hpos p (List.mem_cons_of_mem _ hp)
    cases more with
    | nil =>
      rw [commaSeparated, List.length_singleton]
      exact hpiece
    | cons next more =>
      simp only [commaSeparated, List.length_append, List.length_cons] at hmore ⊢
      omega

theorem Reads.list {write : α → List Char} {f : α → β} {read : Reader β}
    (h : ∀ a, Reads read (write a) (f a)) (as : List α) :
    Reads (.list read) (writeList write as) (as.map f) where
  starts := starts_cons.mpr (by decide)
  append {ctx} hctx rest _ := by
    have hlength : (as.map write).length ≤ (commaSeparated (as.map write)).length := by
      apply length_le_commaSeparated
      intro piece hpiece
      obtain ⟨a, -, rfl⟩ := List.mem_map.mp hpiece
      exact (h a).starts
    have helements := elements_commaSeparated h (hctx.inside 2) rest as
      ((commaSeparated (as.map write) ++ ']' :: rest).length + 1) (by
        rw [List.length_map] at hlength
        rw [List.length_append]
        omega)
    have hsplit : writeList write as ++ rest =
        '[' :: (commaSeparated (as.map write) ++ ']' :: rest) := by
      simp [writeList]
    rw [hsplit]
    unfold Reader.list
    simp only [symbol?_cons, Option.bind_eq_bind, Option.bind_some, helements]
    rfl

/-! ## Wrapped values and variants -/

theorem typeName?_parenthesis {ctx : Context} (hctx : ctx.Plain) (name : String)
    (cs : List Char) : Reader.typeName? ctx name ('(' :: cs) = some ('(' :: cs) := by
  have hends : goesOn ('(' :: cs) = false := goesOn_of_ends (ends_cons.mpr (by decide))
  simp [Reader.typeName?, hends, hctx.extensions]

theorem Reads.wrapped (h : Reads read cs a) (name : String) (lead : Blanks) (gap : Gap) :
    Reads (.wrapped name read) (enclosed lead cs gap) a where
  starts := starts_cons.mpr (by decide)
  append {ctx} hctx rest hrest := by
    have hinner := (h.parenthesized lead gap).append (hctx.inside 1) hrest
    have hopen : ∃ inner, enclosed lead cs gap ++ rest = '(' :: inner := ⟨_, rfl⟩
    obtain ⟨inner, hopen⟩ := hopen
    have hvisible : Visible ('(' :: inner) := visible_cons.mpr (by decide)
    rw [hopen] at hinner ⊢
    unfold Reader.wrapped
    rw [hctx.inVariant, hctx.extensions]
    simp [typeName?_parenthesis hctx, skipBlanks?_of_visible hvisible, hinner]

theorem Reads.bare {name : String} (hname : isName name.toList = true) {bare : List (String × α)}
    {holding : List (String × Reader α)} (hlookup : bare.lookup name = some a) :
    Reads (.variants bare holding) name.toList a where
  starts := starts_of_isName hname
  append {ctx} hctx rest hrest := by
    have hvisible := ((starts_of_isName hname).append rest).visible
    simp [Reader.variants, skipBlanks?_of_visible hvisible, identifier?_append hname hrest,
      hlookup]

theorem Reads.holding {name : String} (hname : isName name.toList = true) {bare : List (String × α)}
    {holding : List (String × Reader α)} (hbare : bare.lookup name = none)
    (hlookup : holding.lookup name = some read) (h : Reads read cs a) :
    Reads (.variants bare holding) (writeVariant name cs) a where
  starts := (starts_of_isName hname).append _
  append {ctx} hctx rest hrest := by
    have hplain :
        ({ ctx.inside 2 with inVariant := ctx.extensions.bareVariants } : Context).Plain :=
      ⟨hctx.extensions, by rw [hctx.extensions]⟩
    have hinner := (h.parenthesized .none {}).append hplain hrest
    rw [← inParentheses_eq] at hinner
    have hends : Ends (inParentheses cs ++ rest) := ends_cons.mpr (by decide)
    have hopen : Visible (inParentheses cs ++ rest) := visible_cons.mpr (by decide)
    have hvisible := ((starts_of_isName hname).append (inParentheses cs ++ rest)).visible
    rw [writeVariant, List.append_assoc]
    simp [Reader.variants, skipBlanks?_of_visible hvisible, identifier?_append hname hends,
      hbare, hlookup, skipBlanks?_of_visible hopen, hinner]

end Patchbay.Ron
