import Patchbay.Text.Identifier

/-!
# Tokens of the object notation

White space, comments, punctuation and identifiers. Every reader takes the characters that are left
and gives what it read with the characters after it, or nothing if they are not what it reads.
-/

namespace Patchbay.Ron

/-! ## White space -/

/-- The white space of the notation. -/
def isBlank (c : Char) : Bool :=
  c = ' ' || c = '\t' || c = '\n' || c = '\r' || c = '\x0b' || c = '\x0c' ||
    [0x85, 0x200E, 0x200F, 0x2028, 0x2029].contains c.toNat

/-- What follows a comment in which `depth` further comments are open. -/
def skipComment? : (depth : Nat) → List Char → Option (List Char)
  | _, [] => none
  | depth, '/' :: '*' :: r => skipComment? (depth + 1) r
  | 0, '*' :: '/' :: r => some r
  | depth + 1, '*' :: '/' :: r => skipComment? depth r
  | depth, _ :: r => skipComment? depth r

/-- Skips up to `fuel` stretches of white space with the comments after them. -/
def skipBlanksFrom? : (fuel : Nat) → List Char → Option (List Char)
  | 0, cs => some cs
  | fuel + 1, cs =>
    match cs.dropWhile isBlank with
    | '/' :: '/' :: r => skipBlanksFrom? fuel (r.dropWhile (· ≠ '\n'))
    | '/' :: '*' :: r => (skipComment? 0 r).bind (skipBlanksFrom? fuel)
    | '/' :: _ => none
    | r => some r

/-- Skips white space and comments. A lone slash and an unclosed comment are errors. -/
def skipBlanks? (cs : List Char) : Option (List Char) :=
  skipBlanksFrom? (cs.length + 1) cs

/-! ## Punctuation and words -/

/-- Takes one given character. -/
def symbol? (c : Char) : List Char → Option (List Char)
  | d :: r => if d = c then some r else none
  | [] => none

/-- Takes a comma, if there is one, and the white space on both sides. -/
def comma? (cs : List Char) : Option (Bool × List Char) := do
  let cs ← skipBlanks? cs
  match symbol? ',' cs with
  | some r => return (true, ← skipBlanks? r)
  | none => return (false, cs)

/-- Whether the characters go on with an identifier character. -/
def goesOn (cs : List Char) : Bool :=
  cs.head?.any Text.isIdentifierPart

/-- What follows the given characters. -/
def after? (start cs : List Char) : Option (List Char) :=
  if start.isPrefixOf cs then some (cs.drop start.length) else none

/-- Takes a given word, which must not go on. -/
def word? (word : String) (cs : List Char) : Option (List Char) :=
  (after? word.toList cs).filter (!goesOn ·)

/-! ## Identifiers -/

/-- The characters of an identifier that is marked as raw. -/
def isRawPart (c : Char) : Bool :=
  Text.isIdentifierPart c || c = '.' || c = '+' || c = '-'

/-- The beginnings of quoted texts and bytes, which are no identifiers. -/
def literalStarts : List (List Char) :=
  ["r\"", "r#\"", "r##", "b\"", "b'", "br\"", "br#"].map String.toList

/-- Takes an identifier. One that is not marked as raw must not go on with a raw character. -/
def identifier? (cs : List Char) : Option (String × List Char) :=
  match cs with
  | [] => none
  | first :: _ =>
    if !(Text.isIdentifierStart first || first = '_') ||
        literalStarts.any (·.isPrefixOf cs) then none
    else
      match after? ['r', '#'] cs with
      | some r =>
        let name := r.takeWhile isRawPart
        if name.isEmpty then none else some (String.ofList name, r.dropWhile isRawPart)
      | none =>
        let rest := cs.dropWhile Text.isIdentifierPart
        if rest.head?.any isRawPart then none
        else some (String.ofList (cs.takeWhile Text.isIdentifierPart), rest)

end Patchbay.Ron
