import Patchbay.Ron.Skip

/-!
# Readers of the object notation

Readers for the shapes that data takes: truth values, numbers, texts, options, lists, pairs,
records, variants and wrapped values. What a shape may look like depends on the extensions that a
document turns on, and on whether the parentheses of a variant also stand for those of what it
holds; `Context` carries both, and how deep brackets may still be nested.
-/

namespace Patchbay.Ron

/-- What a reader knows of its surroundings. -/
structure Context where
  extensions : Extensions := {}
  /-- Whether the parentheses around are those of a variant that also serve what it holds. -/
  inVariant : Bool := false
  /-- How deep brackets may still be nested. -/
  depth : Nat := 128

/-- The context of something nested, which takes up some of the depth. -/
def Context.inside (ctx : Context) (levels : Nat) : Context :=
  { ctx with inVariant := false, depth := ctx.depth - levels }

/-- Reads something and gives the characters after it. -/
abbrev Reader (α : Type) := Context → List Char → Option (α × List Char)

namespace Reader

variable {α β σ : Type}

/-- Reads what another reader reads, put in other words. -/
def map (f : α → β) (read : Reader α) : Reader β := fun ctx cs =>
  (read ctx cs).map fun (a, r) => (f a, r)

/-- Reads what another reader reads, if it can be put in other words. -/
def mapOption (f : α → Option β) (read : Reader α) : Reader β := fun ctx cs =>
  (read ctx cs).bind fun (a, r) => (f a).map fun b => (b, r)

/-- A truth value. -/
def bool : Reader Bool := fun _ cs =>
  match word? "true" cs with
  | some r => some (true, r)
  | none => (word? "false" cs).map fun r => (false, r)

/-- A natural number of 64 bits. -/
def index : Reader Nat := fun _ cs =>
  (integer? .word64 cs).map fun (n, r) => (n.toNat, r)

/-- A natural number of 64 bits as a machine word. -/
def word64 : Reader UInt64 := map UInt64.ofNat index

/-- A number of eight bytes. -/
def double : Reader Double := fun _ cs =>
  (float? ["f64"] cs).map fun (n, r) => (n.toDouble, r)

/-- A number of four bytes. -/
def single : Reader Single := fun _ cs =>
  (float? ["f32"] cs).map fun (n, r) => (n.toSingle, r)

/-- A text. -/
def string : Reader String := fun _ cs => quoted? cs

/-- What stands in parentheses, perhaps with a comma after it. -/
def parenthesized (read : Reader α) : Reader α := fun ctx cs => do
  let cs ← symbol? '(' cs
  let cs ← skipBlanks? cs
  let (a, cs) ← read ctx cs
  let (_, cs) ← comma? cs
  return (a, ← symbol? ')' cs)

/--
Something that may be absent. Under the extension that lets `Some` be left out, its parentheses may
be left out as well.
-/
def option (read : Reader α) : Reader (Option α) := fun ctx cs =>
  let bare : Reader (Option α) := fun ctx cs =>
    if ctx.extensions.implicitSome then map some read (ctx.inside 1) cs else none
  match word? "None" cs with
  | some r => some (none, r)
  | none =>
    match word? "Some" cs with
    | none => bare ctx cs
    | some r => do
      let r ← skipBlanks? r
      if r.head? = some '(' then map some (parenthesized read) (ctx.inside 1) r
      else bare ctx r

/-- The elements of a list up to, and not including, its closing bracket. -/
def elements (read : Reader α) (ctx : Context) :
    (fuel : Nat) → (comma : Bool) → List Char → Option (List α × List Char)
  | 0, _, _ => none
  | fuel + 1, comma, cs => do
    let cs ← skipBlanks? cs
    if cs.head? = some ']' then return ([], cs)
    else if comma then
      let (a, cs) ← read ctx cs
      let (comma, cs) ← comma? cs
      let (as, cs) ← elements read ctx fuel comma cs
      return (a :: as, cs)
    else none

/-- A list in square brackets. -/
def list (read : Reader α) : Reader (List α) := fun ctx cs => do
  let cs ← symbol? '[' cs
  let (as, cs) ← elements read (ctx.inside 2) (cs.length + 1) true cs
  return (as, ← symbol? ']' cs)

/-- Two members in parentheses, perhaps with a comma after the second. -/
def pair (first : Reader α) (second : Reader β) : Reader (α × β) := fun ctx cs => do
  let cs ← symbol? '(' cs
  let cs ← skipBlanks? cs
  let (a, cs) ← first (ctx.inside 2) cs
  let (comma, cs) ← comma? cs
  if comma then
    let (b, cs) ← second (ctx.inside 2) cs
    let (_, cs) ← comma? cs
    return ((a, b), ← symbol? ')' cs)
  else none

/-! ## Names, records and variants -/

/-- Takes the name of a type, which may be left out unless names are asked for. -/
def typeName? (ctx : Context) (name : String) (cs : List Char) : Option (List Char) :=
  if goesOn cs then
    match identifier? cs with
    | some (found, r) => if found = name then some r else none
    | none => none
  else if ctx.extensions.explicitNames then none
  else some cs

/-- A value wrapped in the parentheses of a named type. -/
def wrapped (name : String) (read : Reader α) : Reader α := fun ctx cs =>
  if ctx.extensions.bareWrappers || ctx.inVariant then read (ctx.inside 1) cs
  else do
    let cs ← typeName? ctx name cs
    let cs ← skipBlanks? cs
    parenthesized read (ctx.inside 1) cs

/-- A field of a record that is read into a state `σ`. -/
structure Field (σ : Type) where
  name : String
  /-- Whether a record must have it. -/
  required : Bool
  /-- Reads the value into the state. -/
  read : σ → Reader σ

/-- A field whose value is put into the state. -/
def Field.of (name : String) (required : Bool) (read : Reader α) (put : σ → α → σ) : Field σ :=
  ⟨name, required, fun s => map (put s) read⟩

/-- The fields of a record up to, and not including, its closing parenthesis. -/
def fieldsFrom (fields : List (Field σ)) (ctx : Context) :
    (fuel : Nat) → (comma : Bool) → (seen : List String) → σ → List Char →
      Option ((List String × σ) × List Char)
  | 0, _, _, _, _ => none
  | fuel + 1, comma, seen, s, cs => do
    let cs ← skipBlanks? cs
    if cs.head? = some ')' then return ((seen, s), cs)
    else if comma then
      let (key, cs) ← identifier? cs
      let cs ← skipBlanks? cs
      let cs ← symbol? ':' cs
      let cs ← skipBlanks? cs
      match fields.find? (·.name == key) with
      | some f =>
        if seen.contains key then none
        else
          let (s, cs) ← f.read s ctx cs
          let (comma, cs) ← comma? cs
          fieldsFrom fields ctx fuel comma (key :: seen) s cs
      | none =>
        let cs ← skipValue? ctx.extensions ctx.depth false cs
        let (comma, cs) ← comma? cs
        fieldsFrom fields ctx fuel comma seen s cs
    else none

/-- A record. No field may come twice, and fields that it does not have are read past. -/
def record (name : String) (fields : List (Field σ)) (start : σ) : Reader σ := fun ctx cs => do
  let cs ← typeName? ctx name cs
  let cs ← skipBlanks? cs
  let cs ← symbol? '(' cs
  let ((seen, s), cs) ← fieldsFrom fields (ctx.inside 2) (cs.length + 1) true [] start cs
  let cs ← symbol? ')' cs
  if fields.all fun f => !f.required || seen.contains f.name then return (s, cs) else none

/-- One of some variants: a bare word, or a word and what it holds in parentheses. -/
def variants (bare : List (String × α)) (holding : List (String × Reader α)) : Reader α :=
  fun ctx cs => do
    let cs ← skipBlanks? cs
    let (name, cs) ← identifier? cs
    match bare.lookup name with
    | some a => return (a, cs)
    | none =>
      let read ← holding.lookup name
      let cs ← skipBlanks? cs
      parenthesized read
        { ctx.inside 2 with inVariant := ctx.extensions.bareVariants } cs

end Reader

/-! ## Documents -/

/-- Reads a document: headers, one value, and nothing after it. -/
def Reader.document? {α : Type} (read : Reader α) (cs : List Char) : Option α := do
  let (extensions, cs) ← headers? (cs.length + 1) {} cs
  let (a, cs) ← read { extensions } cs
  let cs ← skipBlanks? cs
  if cs.isEmpty then return a else none

end Patchbay.Ron
