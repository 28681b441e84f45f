import Patchbay.Proofs.Ron.Brackets

/-!
# Reading records

A record is read field by field, each into the state that the fields before it left. `Fills` says
what some fields make of a state, and the reader of the record makes the same of it, whatever white
space stands around the fields (`Reads.record`).
-/

namespace Patchbay.Ron

variable {σ : Type}

/-! ## The text of a record -/

/-- A field as it stands in a record: its name, the text of its value, and what is around them. -/
structure Entry where
  name : String
  value : List Char
  beforeColon : Blanks := .none
  afterColon : Blanks := .none
  gap : Gap := {}

namespace Entry

/-- The text of a field. -/
def chars (e : Entry) : List Char :=
  e.name.toList ++ (e.beforeColon.chars ++
    ':' :: (e.afterColon.chars ++ (e.value ++ e.gap.chars)))

/-- A field without what is around it. -/
def field (e : Entry) : String × List Char := (e.name, e.value)

end Entry

/-- Whether there is a comma between any two fields. -/
def Separated (es : List Entry) : Prop := ∀ e ∈ es.dropLast, e.gap.comma.isSome = true

theorem Separated.head {e : Entry} {es : List Entry} (h : Separated (e :: es)) (hne : es ≠ []) :
    e.gap.comma.isSome = true := by
  apply h
  rw [List.dropLast_cons_of_ne_nil hne]
  exact List.mem_cons_self ..

theorem Separated.tail {e : Entry} {es : List Entry} (h : Separated (e :: es)) :
    Separated es := by
  intro d hd
  apply h
  cases es with
  | nil => cases hd
  | cons f fs => exact List.mem_cons_of_mem _ hd

/-- The name of a type where it is written, with white space after it. -/
def titleChars (name : String) : Option Blanks → List Char
  | none => []
  | some after => name.toList ++ after.chars

/-- The text of a record: the name of its type, and its fields in parentheses. -/
def recordChars (name : String) (title : Option Blanks) (lead : Blanks) (es : List Entry) :
    List Char :=
  titleChars name title ++ '(' :: (lead.chars ++ (es.flatMap Entry.chars ++ [')']))

/-! ## Reading fields -/

/-- Whether reading some fields, given by names and texts, leads from one state to another. -/
inductive Fills (fields : List (Reader.Field σ)) : σ → List (String × List Char) → σ → Prop
  | nil {s : σ} : Fills fields s [] s
  | cons {s s' s'' : σ} {name : String} {value : List Char} {more : List (String × List Char)}
      {f : Reader.Field σ} (known : fields.find? (·.name == name) = some f)
      (isName : isName name.toList = true) (reads : Reads (f.read s) value s')
      (rest : Fills fields s' more s'') : Fills fields s ((name, value) :: more) s''

/-- A field that is put into the state. -/
theorem Fills.of {α : Type} {fields : List (Reader.Field σ)} {s s' : σ} {key name : String}
    {required : Bool} {read : Reader α} {put : σ → α → σ} {value : List Char} {a : α}
    {more : List (String × List Char)}
    (known : fields.find? (·.name == name) = some (.of key required read put))
    (hname : isName name.toList = true) (h : Reads read value a)
    (rest : Fills fields (put s a) more s') : Fills fields s ((name, value) :: more) s' :=
  .cons known hname (h.map (put s)) rest

/-- A record closes, or goes on with a field, which is where white space ends. -/
theorem visible_entries {fields : List (Reader.Field σ)} {s s' : σ} {es : List Entry}
    (h : Fills fields s (es.map Entry.field) s') (rest : List Char) :
    Visible (es.flatMap Entry.chars ++ ')' :: rest) ∧
      (es.flatMap Entry.chars ++ ')' :: rest).head? ≠ some ',' := by
  cases es with
  | nil => exact ⟨visible_cons.mpr (by decide), by simp⟩
  | cons e es =>
    cases h with
    | cons _ hname _ _ =>
      have hstarts : Starts ((e :: es).flatMap Entry.chars ++ ')' :: rest) := by
        rw [List.flatMap_cons, Entry.chars, List.append_assoc, List.append_assoc]
        exact (starts_of_isName hname).append _
      exact ⟨hstarts.visible, hstarts.head?_ne (by decide)⟩

variable {fields : List (Reader.Field σ)} {ctx : Context}

theorem fieldsFrom_blanks (lead : Blanks) {cs : List Char} (hcs : Visible cs) (fuel : Nat)
    (comma : Bool) (seen : List String) (s : σ) :
    Reader.fieldsFrom fields ctx fuel comma seen s (lead.chars ++ cs) =
      Reader.fieldsFrom fields ctx fuel comma seen s cs := by
  cases fuel with
  | zero => rfl
  | succ fuel =>
    rw [Reader.fieldsFrom, Reader.fieldsFrom, skipBlanks?_append lead hcs,
      skipBlanks?_of_visible hcs]

theorem fieldsFrom_closing (fuel : Nat) (comma : Bool) (seen : List String) (s : σ)
    (rest : List Char) :
    Reader.fieldsFrom fields ctx (fuel + 1) comma seen s (')' :: rest) =
      some ((seen, s), ')' :: rest) := by
  have hclosing : Visible (')' :: rest) := visible_cons.mpr (by decide)
  simp [Reader.fieldsFrom, skipBlanks?_of_visible hclosing]

/-- One field is read, and what comes after it is read from the state that it leaves. -/
theorem fieldsFrom_entry {e : Entry} {f : Reader.Field σ} {s s' : σ}
    (hknown : fields.find? (·.name == e.name) = some f) (hname : isName e.name.toList = true)
    (hreads : Reads (f.read s) e.value s') (hctx : ctx.Plain) {tail : List Char}
    (htail : Visible tail) (hcomma : tail.head? ≠ some ',')
    (hends : e.gap.comma = none → Ends tail) (fuel : Nat) {seen : List String}
    (hseen : e.name ∉ seen) :
    Reader.fieldsFrom fields ctx (fuel + 1) true seen s (e.chars ++ tail) =
      Reader.fieldsFrom fields ctx fuel e.gap.comma.isSome (e.name :: seen) s' tail := by
  have hvalue := hreads.append hctx (e.gap.ends_append hends)
  have hafter := skipBlanks?_append e.afterColon
    (hreads.starts.append (e.gap.chars ++ tail)).visible
  have hsplit : e.chars ++ tail = e.name.toList ++ (e.beforeColon.chars ++
      ':' :: (e.afterColon.chars ++ (e.value ++ (e.gap.chars ++ tail)))) := by
    simp [Entry.chars]
  rw [hsplit]
  generalize hvalueText : e.afterColon.chars ++ (e.value ++ (e.gap.chars ++ tail)) = v at hafter
  have hcolon : Ends (':' :: v) := ends_cons.mpr (by decide)
  have hbefore := skipBlanks?_append e.beforeColon
    (visible_cons.mpr (by decide) : Visible (':' :: v))
  have hstarts := (starts_of_isName hname).append (e.beforeColon.chars ++ ':' :: v)
  have hopen := hstarts.head?_ne (c := ')') (by decide)
  have hkey := identifier?_append hname (e.beforeColon.ends_append hcolon)
  rw [Reader.fieldsFrom, skipBlanks?_of_visible hstarts.visible]
  simp only [Option.bind_eq_bind, Option.bind_some, if_neg hopen, if_true, hkey, hbefore,
    symbol?_cons, hafter, hknown]
  simp [hseen, hvalue, e.gap.comma?_append htail hcomma]

/--
The induction is on the fields. A comma has come before, unless there are no more of them, and the
names seen so far are none of theirs.
-/
theorem fieldsFrom_entries (hctx : ctx.Plain) (rest : List Char) {es : List Entry} {s s' : σ}
    (hfills : Fills fields s (es.map Entry.field) s') (hseparated : Separated es)
    (hnodup : (es.map (·.name)).Nodup) (fuel : Nat) (hfuel : es.length < fuel) (comma : Bool)
    (hcomma : es ≠ [] → comma = true) (seen : List String) (hseen : ∀ e ∈ es, e.name ∉ seen) :
    Reader.fieldsFrom fields ctx fuel comma seen s (es.flatMap Entry.chars ++ ')' :: rest) =
      some (((es.map (·.name)).reverse ++ seen, s'), ')' :: rest) := by
  induction es generalizing s fuel comma seen with
  | nil =>
    obtain ⟨fuel, rfl⟩ := Nat.exists_eq_add_one_of_ne_zero (Nat.ne_zero_of_lt hfuel)
    cases hfills
    exact fieldsFrom_closing fuel comma seen _ rest
  | cons e es ih =>
    obtain ⟨fuel, rfl⟩ := Nat.exists_eq_add_one_of_ne_zero (Nat.ne_zero_of_lt hfuel)
    cases hfills with
    | cons hknown hname hreads hmore =>
      rw [List.map_cons, List.nodup_cons] at hnodup
      have htail := visible_entries hmore rest
      -- a field without a comma after it is the last, and the parenthesis ends its value
      have hends : e.gap.comma = none → Ends (es.flatMap Entry.chars ++ ')' :: rest) := by
        intro hnone
        by_cases hlast : es = []
        · subst hlast
          exact ends_cons.mpr (by decide)
        · have hsome := hseparated.head hlast
          rw [hnone] at hsome
          cases hsome
      have hothers : ∀ d ∈ es, d.name ∉ e.name :: seen := by
        intro d hd hmem
        rcases List.mem_cons.mp hmem with heq | hmem
        · exact hnodup.1 (heq ▸ List.mem_map_of_mem hd)
        · exact hseen d (List.mem_cons_of_mem _ hd) hmem
      rw [hcomma (List.cons_ne_nil _ _), List.flatMap_cons, List.append_assoc,
        fieldsFrom_entry hknown hname hreads hctx htail.1 htail.2 hends fuel
          (hseen e (List.mem_cons_self ..)),
        ih hmore hseparated.tail hnodup.2 fuel (by simpa using hfuel) _ hseparated.head _ hothers]
      simp

theorem length_le_flatMap_chars (es : List Entry) :
    es.length ≤ (es.flatMap Entry.chars).length := by
  induction es with
  | nil => simp
  | cons e es ih =>
    simp only [List.flatMap_cons, List.length_append, List.length_cons, Entry.chars]
    omega

/-! ## Reading records -/

theorem typeName?_title {name : String} (hname : isName name.toList = true) (hctx : ctx.Plain)
    (title : Option Blanks) (cs : List Char) :
    ∃ lead : Blanks, Reader.typeName? ctx name (titleChars name title ++ '(' :: cs) =
      some (lead.chars ++ '(' :: cs) := by
  cases title with
  | none => exact ⟨.none, typeName?_parenthesis hctx name cs⟩
  | some after =>
    refine ⟨after, ?_⟩
    have hends : Ends (after.chars ++ '(' :: cs) :=
      after.ends_append (ends_cons.mpr (by decide))
    have hgoes : goesOn (name.toList ++ (after.chars ++ '(' :: cs)) = true := by
      match hchars : name.toList, hname with
      | c :: d :: r, hname =>
        simp only [isName, Bool.and_eq_true, List.all_cons] at hname
        exact hname.1.2.1
    rw [titleChars, List.append_assoc, Reader.typeName?, if_pos hgoes,
      identifier?_append hname hends]
    exact if_pos rfl

theorem Reads.record {name : String} (hname : isName name.toList = true) {start s : σ}
    {es : List Entry} (hfills : Fills fields start (es.map Entry.field) s)
    (hseparated : Separated es) (hnodup : (es.map (·.name)).Nodup)
    (hrequired : ∀ f ∈ fields, f.required = true → f.name ∈ es.map (·.name))
    (title : Option Blanks) (lead : Blanks) :
    Reads (.record name fields start) (recordChars name title lead es) s where
  starts := by
    unfold recordChars
    cases title with
    | none => exact starts_cons.mpr (by decide)
    | some after => exact ((starts_of_isName hname).append _).append _
  append {ctx} hctx rest _ := by
    -- there is a character for each field, and so the fuel lasts
    have hlength := length_le_flatMap_chars es
    have hsplit : recordChars name title lead es ++ rest = titleChars name title ++
        '(' :: (lead.chars ++ (es.flatMap Entry.chars ++ ')' :: rest)) := by
      simp [recordChars]
    obtain ⟨after, htitle⟩ := typeName?_title hname hctx title
      (lead.chars ++ (es.flatMap Entry.chars ++ ')' :: rest))
    have hopen : skipBlanks? (after.chars ++
        '(' :: (lead.chars ++ (es.flatMap Entry.chars ++ ')' :: rest))) = _ :=
      skipBlanks?_append after (visible_cons.mpr (by decide))
    have hfields := fieldsFrom_entries (hctx.inside 2) rest hfills hseparated hnodup
      ((lead.chars ++ (es.flatMap Entry.chars ++ ')' :: rest)).length + 1)
      (by simp only [List.length_append]; omega) true (fun _ => rfl) [] (by simp)
    have hall : (fields.all fun f =>
        !f.required || ((es.map Entry.name).reverse ++ []).contains f.name) = true := by
      rw [List.all_eq_true]
      intro f hf
      cases hneeded : f.required with
      | false => rfl
      | true => simpa using hrequired f hf hneeded
    rw [hsplit]
    unfold Reader.record
    simp only [htitle, hopen, symbol?_cons, Option.bind_eq_bind, Option.bind_some,
      fieldsFrom_blanks lead (visible_entries hfills rest).1, hfields, hall, if_true]
    rfl

/-! ## Records as they are written -/

/-- Some fields with the same white space around each but the last. -/
def laidOut (afterColon : Blanks) (between last : Gap) : List (String × List Char) → List Entry
  | [] => []
  | [(name, value)] => [{ name, value, afterColon, gap := last }]
  | (name, value) :: next :: more =>
    { name, value, afterColon, gap := between } :: laidOut afterColon between last (next :: more)

section LaidOut

variable (afterColon : Blanks) (between last : Gap) (fs : List (String × List Char))

theorem map_field_laidOut : (laidOut afterColon between last fs).map Entry.field = fs := by
  fun_induction laidOut afterColon between last fs with
  | case1 => rfl
  | case2 name value => rfl
  | case3 name value next more ih => rw [List.map_cons, ih, Entry.field]

theorem map_name_laidOut : (laidOut afterColon between last fs).map (·.name) = fs.map (·.1) := by
  conv_rhs => rw [← map_field_laidOut afterColon between last fs, List.map_map]
  rfl

theorem separated_laidOut (hcomma : between.comma.isSome = true) :
    Separated (laidOut afterColon between last fs) := by
  fun_induction laidOut afterColon between last fs with
  | case1 => simp [Separated]
  | case2 name value => simp [Separated]
  | case3 name value next more ih =>
    intro e he
    have hne : laidOut afterColon between last (next :: more) ≠ [] := by
      intro hnil
      have hfields := map_field_laidOut afterColon between last (next :: more)
      rw [hnil] at hfields
      cases hfields
    rw [List.dropLast_cons_of_ne_nil hne] at he
    rcases List.mem_cons.mp he with rfl | he
    · exact hcomma
    · exact ih e he

end LaidOut

/-- A compact record has no white space. -/
theorem writeRecord_eq (name : String) (fs : List (String × List Char)) :
    writeRecord fs =
      recordChars name none .none (laidOut .none { comma := some .none } {} fs) := by
  have hfields : commaSeparated (fs.map fun f => f.1.toList ++ ':' :: f.2) =
      (laidOut .none { comma := some .none } {} fs).flatMap Entry.chars := by
    fun_induction laidOut .none { comma := some .none } {} fs with
    | case1 => rfl
    | case2 name value => simp [commaSeparated, Entry.chars, Blanks.none, Gap.chars]
    | case3 name value next more ih =>
      rw [List.flatMap_cons, ← ih]
      simp [commaSeparated, Entry.chars, Blanks.none, Gap.chars]
  simp [writeRecord, hfields, recordChars, titleChars, inParentheses, Blanks.none]

theorem Reads.writeRecord {name : String} (hname : isName name.toList = true) {start s : σ}
    {fs : List (String × List Char)} (hfills : Fills fields start fs s)
    (hnodup : (fs.map (·.1)).Nodup)
    (hrequired : ∀ f ∈ fields, f.required = true → f.name ∈ fs.map (·.1)) :
    Reads (.record name fields start) (writeRecord fs) s := by
  rw [writeRecord_eq name]
  apply Reads.record hname
  · rwa [map_field_laidOut]
  · exact separated_laidOut _ _ _ _ rfl
  · rwa [map_name_laidOut]
  · rwa [map_name_laidOut]

end Patchbay.Ron
