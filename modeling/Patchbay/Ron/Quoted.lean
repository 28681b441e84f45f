import Patchbay.Ron.Token
import Patchbay.Text.Hex
import Patchbay.Text.Printable

/-!
# Quoted texts of the object notation

A text is written between double quotes. Quotes and backslashes in it get a backslash, and
characters that cannot be shown are spelled by an escape. A text can also be read in its raw form,
`r"…"` with any number of hash signs on both sides, in which nothing is an escape.
-/

namespace Patchbay.Ron

/-! ## Escapes -/

/-- The characters with an escape of one letter. -/
def shortEscapes : List (Char × Char) :=
  [('\'', '\''), ('"', '"'), ('\\', '\\'), ('n', '\n'), ('r', '\r'), ('t', '\t'),
    ('0', Char.ofNat 0)]

/-- Takes two hexadecimal digits. -/
def hexByte? : List Char → Option (UInt8 × List Char)
  | a :: b :: r => do
    let x ← Text.hexValue? a
    let y ← Text.hexValue? b
    return (UInt8.ofNat (16 * x + y), r)
  | _ => none

/-- The character that some bytes encode. -/
def charOfBytes? (bytes : List UInt8) : Option Char :=
  match (String.fromUTF8? ⟨bytes.toArray⟩).map String.toList with
  | some [c] => some c
  | _ => none

/-- Goes on with a character of which some bytes are read, at most `more` further ones missing. -/
def bytesEscape? : (more : Nat) → List UInt8 → List Char → Option (Char × List Char)
  | more, bytes, cs =>
    match charOfBytes? bytes with
    | some c => some (c, cs)
    | none =>
      match more, cs with
      | more + 1, '\\' :: 'x' :: r => do
        let (b, r) ← hexByte? r
        bytesEscape? more (bytes ++ [b]) r
      | _, _ => none

/-- Takes the code point of an escape, one to six digits up to a brace. -/
def codeEscape? (cs : List Char) : Option (Char × List Char) := do
  let cs ← symbol? '\x7b' cs
  let digits := cs.takeWhile (· ≠ '\x7d')
  let rest ← symbol? '\x7d' (cs.dropWhile (· ≠ '\x7d'))
  if digits.isEmpty || digits.length > 6 then none
  else
    let n ← Text.ofHex? digits
    if n.isValidChar then return (Char.ofNat n, rest) else none

/-- Takes an escape after its backslash; `more` bytes may follow the first of a character. -/
def escape? (more : Nat) : List Char → Option (Char × List Char)
  | [] => none
  | 'x' :: r => do
    let (b, r) ← hexByte? r
    bytesEscape? more [b] r
  | 'u' :: r => codeEscape? r
  | c :: r => (shortEscapes.lookup c).map fun d => (d, r)

/-! ## Reading -/

/-- Takes a text up to its closing quote. -/
def quotedFrom? : (fuel : Nat) → List Char → Option (List Char × List Char)
  | 0, _ => none
  | _ + 1, [] => none
  | _ + 1, '"' :: r => some ([], r)
  | fuel + 1, '\\' :: r => do
    let (c, r) ← escape? 3 r
    let (s, r) ← quotedFrom? fuel r
    return (c :: s, r)
  | fuel + 1, c :: r => do
    let (s, r) ← quotedFrom? fuel r
    return (c :: s, r)

/-- What stands before the first occurrence of some characters, and what after it. -/
def splitAt? (mark : List Char) : List Char → Option (List Char × List Char)
  | [] => if mark.isEmpty then some ([], []) else none
  | c :: r =>
    match after? mark (c :: r) with
    | some rest => some ([], rest)
    | none => (splitAt? mark r).map fun (s, rest) => (c :: s, rest)

/-- Takes a raw text after its first letter. -/
def raw? (cs : List Char) : Option (List Char × List Char) := do
  let hashes := cs.takeWhile (· = '#')
  let cs ← symbol? '"' (cs.dropWhile (· = '#'))
  splitAt? ('"' :: hashes) cs

/--
Whether no quote closes what comes next, with the given reader of what follows a backslash. An
escape that cannot be read ends the search, unless no quote at all comes after it.
-/
def isUnclosedFrom (escape : List Char → Option (List Char)) : (fuel : Nat) → List Char → Bool
  | 0, _ => true
  | _ + 1, [] => true
  | _ + 1, '"' :: _ => false
  | fuel + 1, '\\' :: r => !r.contains '"' || (escape r).any (isUnclosedFrom escape fuel)
  | fuel + 1, _ :: r => isUnclosedFrom escape fuel r

/-- Whether a raw text, of which the first letter is taken, is never closed. -/
def isUnclosedRaw (cs : List Char) : Bool :=
  let hashes := cs.takeWhile (· = '#')
  (symbol? '"' (cs.dropWhile (· = '#'))).any fun r => (splitAt? ('"' :: hashes) r).isNone

/-- Whether a quoted text comes next that is never closed. -/
def isUnclosedText : List Char → Bool
  | '"' :: r => isUnclosedFrom (fun r => (escape? 3 r).map (·.2)) (r.length + 1) r
  | 'r' :: r => isUnclosedRaw r
  | _ => false

/-- Takes a quoted text in either form. -/
def quoted? : List Char → Option (String × List Char)
  | '"' :: r => (quotedFrom? (r.length + 1) r).map fun (s, r) => (String.ofList s, r)
  | 'r' :: r => (raw? r).map fun (s, r) => (String.ofList s, r)
  | _ => none

/-! ## Writing -/

/-- The hexadecimal digits of a number without leading zeros. -/
def hexDigits (n : Nat) : List Char :=
  (Nat.toDigits 16 n)

/-- A character as it is written between quotes. -/
def writeChar (c : Char) : List Char :=
  if c.toNat = 0 then ['\\', '0']
  else if c = '\t' then ['\\', 't']
  else if c = '\r' then ['\\', 'r']
  else if c = '\n' then ['\\', 'n']
  else if c = '\'' || c = '"' || c = '\\' then ['\\', c]
  else if Text.isPrintable c then [c]
  else '\\' :: 'u' :: '\x7b' :: hexDigits c.toNat ++ ['\x7d']

/-- A quoted text. -/
def writeString (s : String) : List Char :=
  '"' :: s.toList.flatMap writeChar ++ ['"']

end Patchbay.Ron
