import Patchbay.Ron.Token

/-!
# Extensions of the object notation

A document may turn extensions on in headers of the form `#![enable(…)]` before its value. Each lets
something be left out, or asks for it.
-/

namespace Patchbay.Ron

/-- The extensions of the notation. -/
structure Extensions where
  /-- An option that is present needs no `Some`. -/
  implicitSome : Bool := false
  /-- A wrapped value needs no parentheses. -/
  bareWrappers : Bool := false
  /-- What a variant holds needs no parentheses of its own. -/
  bareVariants : Bool := false
  /-- Records and wrapped values need their names. -/
  explicitNames : Bool := false
deriving DecidableEq

/-- The extension of a name. -/
def extension? : String → Option (Extensions → Extensions)
  | "implicit_some" => some ({ · with implicitSome := true })
  | "unwrap_newtypes" => some ({ · with bareWrappers := true })
  | "unwrap_variant_newtypes" => some ({ · with bareVariants := true })
  | "explicit_struct_names" => some ({ · with explicitNames := true })
  | _ => none

/-- Takes some characters with white space after each. -/
def symbols? : List Char → List Char → Option (List Char)
  | [], cs => some cs
  | c :: more, cs => do
    let cs ← symbol? c cs
    let cs ← skipBlanks? cs
    symbols? more cs

/-- Takes the names of a header, commas between them. -/
def extensionNames? : (fuel : Nat) → Extensions → List Char → Option (Extensions × List Char)
  | 0, _, _ => none
  | fuel + 1, e, cs => do
    let (name, cs) ← identifier? cs
    let turnOn ← extension? name
    let (comma, cs) ← comma? cs
    if comma && cs.head? ≠ some ')' then extensionNames? fuel (turnOn e) cs
    else return (turnOn e, cs)

/-- Takes one header, which comes next. -/
def header? (e : Extensions) (cs : List Char) : Option (Extensions × List Char) := do
  let cs ← symbols? ['#', '!', '['] cs
  let cs ← after? "enable".toList cs
  let cs ← skipBlanks? cs
  let cs ← symbols? ['('] cs
  let (e, cs) ← extensionNames? (cs.length + 1) e cs
  return (e, ← symbols? [')', ']'] cs)

/-- Takes all headers, and the white space around them. -/
def headers? : (fuel : Nat) → Extensions → List Char → Option (Extensions × List Char)
  | 0, _, _ => none
  | fuel + 1, e, cs => do
    let cs ← skipBlanks? cs
    if cs.head? = some '#' then
      let (e, cs) ← header? e cs
      headers? fuel e cs
    else return (e, cs)

end Patchbay.Ron
