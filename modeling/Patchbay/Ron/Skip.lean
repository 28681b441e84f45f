import Patchbay.Ron.Extension
import Patchbay.Ron.Numeral
import Patchbay.Ron.Quoted

/-!
# Skipping values of the object notation

A field that nobody asks for may hold any well-formed value, which is read past. Brackets may be
nested only so deep; the bound also makes the reader total. What stands in brackets takes up one
level, and each entry of them another.
-/

namespace Patchbay.Ron

/-- Reads past a value and gives the characters after it. -/
abbrev Skipper := List Char → Option (List Char)

/-! ## Entries of brackets -/

/--
Reads past entries up to, and not including, a closing character. Commas stand between the
entries, and one may follow the last.
-/
def skipEntries? (close : Char) (entry : Skipper) :
    (fuel : Nat) → (comma : Bool) → Skipper
  | 0, _, _ => none
  | fuel + 1, comma, cs => do
    let cs ← skipBlanks? cs
    if cs.head? = some close then return cs
    else if comma then
      let cs ← entry cs
      let (comma, cs) ← comma? cs
      skipEntries? close entry fuel comma cs
    else none

/-- Reads past all entries up to a closing character. -/
def skipAll? (close : Char) (entry : Skipper) : Skipper := fun cs =>
  skipEntries? close entry (cs.length + 1) true cs

/-- Reads past a key, a colon and a value. -/
def skipPair? (key value : Skipper) : Skipper := fun cs => do
  let cs ← key cs
  let cs ← skipBlanks? cs
  let cs ← symbol? ':' cs
  let cs ← skipBlanks? cs
  value cs

/-- Reads past an identifier. -/
def skipIdentifier? : Skipper := fun cs => (identifier? cs).map (·.2)

/-- What follows the characters of an identifier, whatever comes next. -/
def afterName? (cs : List Char) : Option (List Char) :=
  if literalStarts.any (·.isPrefixOf cs) then none
  else
    match after? ['r', '#'] cs with
    | some r => if (r.takeWhile isRawPart).isEmpty then none else some (r.dropWhile isRawPart)
    | none =>
      if cs.head?.any fun c => Text.isIdentifierStart c || c = '_' then
        some (cs.dropWhile Text.isIdentifierPart)
      else none

/-- Whether a field name and a colon come next. -/
def namesField (cs : List Char) : Bool :=
  (((skipBlanks? cs).bind afterName?).bind skipBlanks?).any fun r => r.head? = some ':'

/-! ## Numbers -/

/--
Reads past a number. One that goes on as a floating-point number is one; any other is a whole number
of the type that it names, or of 64 bits, or else a floating-point number.
-/
def skipNumber? : Skipper := fun cs =>
  let (negative, body) := Decimal.Numeral.splitSign cs
  let asFloat : Option (List Char) := (float? ["f32", "f64"] cs).map (·.2)
  if (body.takeWhile isIntegerChar).length < (body.takeWhile isFloatChar).length then asFloat
  else
    match anyInteger? cs with
    | some ((n, named), r) =>
      let type := named.getD (if negative then .signed64 else .word64)
      if type.has n then some r else asFloat
    | none => asFloat

/-! ## Characters and bytes -/

/-- Reads past a character between single quotes. -/
def skipChar? : Skipper := fun cs => do
  let cs ← symbol? '\'' cs
  match cs with
  | '\\' :: r => do
    let (_, r) ← escape? 0 r
    symbol? '\'' r
  | _ :: r => symbol? '\'' r
  | [] => none

/-- Reads past the escape of a byte after its backslash; any two hexadecimal digits make a byte. -/
def skipByteEscape? : Skipper
  | [] => none
  | 'x' :: r => (hexByte? r).map (·.2)
  | c :: r => (shortEscapes.lookup c).map fun _ => r

/-- Reads past a byte between single quotes. -/
def skipByte? : Skipper
  | '\\' :: r => (skipByteEscape? r).bind (symbol? '\'')
  | c :: r => if c.toNat < 0x80 then symbol? '\'' r else none
  | [] => none

/--
Reads past an escape in a run of bytes after its backslash; a code point stands for its bytes.
-/
def skipBytesEscape? : Skipper
  | 'u' :: r => (codeEscape? r).map (·.2)
  | r => skipByteEscape? r

/-- Reads past a run of bytes up to its closing quote. -/
def skipBytesFrom? : (fuel : Nat) → Skipper
  | 0, _ => none
  | _ + 1, [] => none
  | _ + 1, '"' :: r => some r
  | fuel + 1, '\\' :: r => (skipBytesEscape? r).bind (skipBytesFrom? fuel)
  | fuel + 1, _ :: r => skipBytesFrom? fuel r

/-- Reads past a quoted or raw run of bytes. -/
def skipBytes? : Skipper
  | 'b' :: '"' :: r => skipBytesFrom? (r.length + 1) r
  | 'b' :: 'r' :: r => (raw? r).map (·.2)
  | _ => none

/-- Whether a run of bytes comes next that is never closed. -/
def isUnclosedBytes : List Char → Bool
  | 'b' :: '"' :: r => isUnclosedFrom skipBytesEscape? (r.length + 1) r
  | 'b' :: 'r' :: r => isUnclosedRaw r
  | _ => false

/-- Reads past a text. -/
def skipString? : Skipper := fun cs => (quoted? cs).map (·.2)

/-! ## Values -/

/-- Reads past a word that stands for a value by itself. -/
def skipWord? : Skipper := fun cs =>
  (["true", "false", "None", "inf", "inff32", "inff64", "NaN", "NaNf32", "NaNf64"].findSome?
    fun word => word? word cs).orElse fun _ => after? ['(', ')'] cs

/-- Reads past a value that needs no brackets, by its first character. -/
def skipPlain? : Skipper
  | [] => none
  | c :: r =>
    if c = '"' || c = 'r' then skipString? (c :: r)
    else if c = 'b' then
      if r.head? = some '\'' then skipByte? r.tail else skipBytes? (c :: r)
    else if c = '\'' then skipChar? (c :: r)
    else if c.isDigit || c = '+' || c = '-' || c = '.' then skipNumber? (c :: r)
    else none

/-- Reads past something quoted if it comes next; it must be closed. -/
def skipQuoted? (isUnclosed : List Char → Bool) (quoted : Skipper) : Skipper := fun cs =>
  if isUnclosed cs then none else some ((quoted cs).getD cs)

/--
Whether several things stand before the closing parenthesis of which `opened` brackets are open:
a comma comes outside of them with something after it. Comments and quotes hide what they hold, but
right after something quoted the next character is taken as it is.
-/
def holdsSeveral? : (fuel : Nat) → (opened : Nat) → List Char → Option Bool
  | 0, _, _ => none
  | fuel + 1, opened, cs => do
    let cs ← skipBlanks? cs
    let cs := (skipChar? cs).getD cs
    let cs ← skipQuoted? isUnclosedText skipString? cs
    let cs ← skipQuoted? isUnclosedBytes skipBytes? cs
    match cs with
    | [] => none
    | c :: r =>
      if c = '(' || c = '[' || c = '\x7b' then holdsSeveral? fuel (opened + 1) r
      else if c = ')' || c = ']' || c = '\x7d' then
        if opened = 0 then return false else holdsSeveral? fuel (opened - 1) r
      else if c = ',' && opened = 0 then
        let r ← skipBlanks? r
        return r.head? ≠ some ')'
      else holdsSeveral? fuel opened r

/-- Reads past what stands between parentheses: named fields, or values. -/
def skipMembers? (entry : Skipper) : Skipper := fun cs =>
  skipAll? ')' (if namesField cs then skipPair? skipIdentifier? entry else entry) cs

/-- Reads past a value in brackets, which come next, given how to read past an entry. -/
def skipBrackets? (entry : Skipper) : Skipper
  | '(' :: r => (skipMembers? entry r).bind (symbol? ')')
  | '[' :: r => (skipAll? ']' entry r).bind (symbol? ']')
  | '\x7b' :: r => (skipAll? '\x7d' (skipPair? entry entry) r).bind (symbol? '\x7d')
  | _ => none

/--
Reads past an optional value that is present, after its `Some`. What it holds may serve as the
content of its parentheses, as that of a variant may.
-/
def skipPresent? (e : Extensions) (held : (inVariant : Bool) → Skipper) : Skipper := fun cs => do
  let cs ← skipBlanks? cs
  match cs with
  | '(' :: r => do
    let r ← skipBlanks? r
    let r ← held e.bareVariants r
    let (_, r) ← comma? r
    symbol? ')' r
  | r => if e.implicitSome then held false r else none

/--
Reads past a value at some level: `brackets` reads past one in brackets, `members` past what stands
between the parentheses of a variant, and `held` past what an optional value holds.
-/
def skipAtLevel? (e : Extensions) (brackets members : Skipper)
    (held : (inVariant : Bool) → Skipper) (inVariant : Bool) : Skipper := fun cs =>
  let plainly : Option (List Char) :=
    match skipWord? cs with
    | some r => some r
    | none =>
      match word? "Some" cs with
      | some r => skipPresent? e held r
      | none =>
        match identifier? cs with
        | some (_, r) => do
          let r ← skipBlanks? r
          if r.head? = some '(' then brackets r else return r
        | none => (brackets cs).orElse fun _ => skipPlain? cs
  if inVariant then
    if cs.head? = some ')' then some cs
    else if namesField cs then members cs
    else do
      if ← holdsSeveral? (cs.length + 1) 0 cs then members cs else plainly
  else plainly

/--
Reads past a value in which brackets are nested at most `depth` deep; `inVariant` says that it may
also be the bare content of the parentheses around it.
-/
def skipValue? (e : Extensions) : (depth : Nat) → (inVariant : Bool) → Skipper
  | 0 => skipAtLevel? e (fun _ => none) (fun _ => none) fun _ _ => none
  | 1 => skipAtLevel? e (skipBrackets? fun _ => none) (skipMembers? fun _ => none) (skipValue? e 0)
  | depth + 2 =>
    skipAtLevel? e (skipBrackets? (skipValue? e depth false))
      (skipMembers? (skipValue? e depth false)) (skipValue? e (depth + 1))

end Patchbay.Ron
