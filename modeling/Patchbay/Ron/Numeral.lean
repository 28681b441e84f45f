import Patchbay.Decimal.Shortest
import Patchbay.Ron.Token
import Patchbay.Text.Hex

/-!
# Numbers of the object notation

Whole numbers may have a sign, a prefix for base 2, 8 or 16, underscores between their digits, and
the name of their type at the end. Floating-point numbers are numerals in which underscores may
follow digits, or one of the words `inf` and `NaN` with a sign before it; they too may end in the
name of their type. Numbers are written in their shortest form, with `.0` after whole ones.
-/

namespace Patchbay.Ron

/-! ## Whole numbers -/

/-- A type of whole numbers. -/
structure IntegerType where
  name : String
  least : Int
  greatest : Int
deriving DecidableEq, Repr

namespace IntegerType

/-- Whether a type has a number. -/
def has (t : IntegerType) (n : Int) : Bool := t.least ≤ n && n ≤ t.greatest

/-- The natural numbers of 64 bits. -/
def word64 : IntegerType := ⟨"u64", 0, 0xFFFFFFFFFFFFFFFF⟩

/-- The whole numbers of 64 bits. -/
def signed64 : IntegerType := ⟨"i64", -0x8000000000000000, 0x7FFFFFFFFFFFFFFF⟩

/-- All types that a number can name. -/
def all : List IntegerType :=
  [⟨"i8", -0x80, 0x7F⟩, ⟨"i16", -0x8000, 0x7FFF⟩, ⟨"i32", -0x80000000, 0x7FFFFFFF⟩, signed64,
    ⟨"u8", 0, 0xFF⟩, ⟨"u16", 0, 0xFFFF⟩, ⟨"u32", 0, 0xFFFFFFFF⟩, word64]

end IntegerType

/-- A character of a whole number: a hexadecimal digit or an underscore. -/
def isIntegerChar (c : Char) : Bool :=
  (Text.hexValue? c).isSome || c = '_'

/-- The base that a prefix names, and the characters after it. -/
def splitBase : List Char → Nat × List Char
  | '0' :: 'b' :: r => (2, r)
  | '0' :: 'o' :: r => (8, r)
  | '0' :: 'x' :: r => (16, r)
  | r => (10, r)

/-- The number that digits of a base spell, underscores aside. -/
def ofDigits? (base : Nat) (ds : List Char) : Option Nat :=
  (ds.filter (· ≠ '_')).foldlM (fun n c => do
    let d ← Text.hexValue? c
    if d < base then return base * n + d else none) 0

/-- Takes the digits of a whole number, after the prefix of their base. -/
def digits? (cs : List Char) : Option (Nat × List Char) :=
  let (base, cs) := splitBase cs
  let digits := cs.takeWhile isIntegerChar
  if digits.isEmpty || digits.head? = some '_' then none
  else (ofDigits? base digits).map fun n => (n, cs.dropWhile isIntegerChar)

/-- The type that is named after the digits, and the characters after its name. -/
def typeAfter? (cs : List Char) : Option (IntegerType × List Char) :=
  IntegerType.all.findSome? fun t =>
    (word? t.name (cs.dropWhile isIntegerChar)).map fun r => (t, r)

/--
Takes a whole number with the type that it names, if it names one, whose numbers it must be among.
-/
def anyInteger? (cs : List Char) : Option ((Int × Option IntegerType) × List Char) := do
  let (negative, body) := Decimal.Numeral.splitSign cs
  let (n, rest) ← digits? body
  let n : Int := if negative then -(n : Int) else n
  match typeAfter? body with
  | some (t, r) => if t.has n then return ((n, some t), r) else none
  | none => return ((n, none), rest)

/-- Takes a whole number of a type; it may name that type but no other. -/
def integer? (t : IntegerType) (cs : List Char) : Option (Int × List Char) := do
  let ((n, named), r) ← anyInteger? cs
  if t.has n && named.all (· == t) then return (n, r) else none

/-! ## Floating-point numbers -/

/-- A character of a floating-point number. -/
def isFloatChar (c : Char) : Bool :=
  c.isDigit || c = 'e' || c = 'E' || c = '.' || c = '+' || c = '-' || c = '_'

/-- The words for infinity and for what is no number. -/
def floatWords : List (String × Decimal.Numeral) :=
  [("inf", .infinity false), ("+inf", .infinity false), ("-inf", .infinity true),
    ("NaN", .nan false), ("+NaN", .nan false), ("-NaN", .nan true)]

/-- Takes a word for a number that digits cannot spell. -/
def floatWord? (names : List String) (cs : List Char) : Option (Decimal.Numeral × List Char) :=
  floatWords.findSome? fun (word, n) =>
    ((word? word cs).orElse fun _ => names.findSome? fun name => word? (word ++ name) cs).map
      fun r => (n, r)

/-- Removes the underscores; each must follow a digit or the mark of an exponent. -/
def dropUnderscores? : (allowed : Bool) → List Char → Option (List Char)
  | _, [] => some []
  | allowed, c :: r =>
    if c = '_' then if allowed then dropUnderscores? allowed r else none
    else
      let allowed :=
        if c.isDigit || c = 'e' || c = 'E' then true else if c = '.' then false else allowed
      (dropUnderscores? allowed r).map (c :: ·)

/-- Takes a floating-point number, which may end in one of the given names of its type. -/
def float? (names : List String) (cs : List Char) : Option (Decimal.Numeral × List Char) :=
  match floatWord? names cs with
  | some answer => some answer
  | none => do
    let body ← dropUnderscores? false (cs.takeWhile isFloatChar)
    let rest := cs.dropWhile isFloatChar
    let n ← Decimal.Numeral.ofChars? body
    return (n, (names.findSome? (word? · rest)).getD rest)

/-! ## Writing -/

/-- The text of a finite magnitude of a format. -/
def writeMagnitude (f : Binary.Format) (m : Nat) : List Char :=
  let digits := Decimal.text f m
  if digits.contains '.' then digits else digits ++ ".0".toList

/-- The text of a number, given by sign and magnitude; beyond infinity it is no number. -/
def writeFloat (f : Binary.Format) (negative : Bool) (m : Nat) : List Char :=
  (if negative then ['-'] else []) ++
    if f.infinity < m then "NaN".toList
    else if m = f.infinity then "inf".toList
    else writeMagnitude f m

/-- The text of a number of eight bytes. -/
def writeDouble (x : Double) : List Char := writeFloat .double x.isNegative x.magnitude

/-- The text of a number of four bytes. -/
def writeSingle (x : Single) : List Char := writeFloat .single x.isNegative x.magnitude

/-- The text of a natural number. -/
def writeNat (n : Nat) : List Char := Nat.toDigits 10 n

end Patchbay.Ron
