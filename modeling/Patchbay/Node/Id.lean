import Patchbay.Text.Hex

/-!
# Node identifiers

A node is named by 128 bits, which are written as 32 hexadecimal digits in groups of 8, 4, 4, 4 and
12. Three other spellings are read as well: the digits without hyphens, the groups in braces, and
the groups after `urn:uuid:` in any letter case.
-/

namespace Patchbay

/-- The name of a node. -/
structure NodeId where
  bits : BitVec 128
deriving DecidableEq, Repr

namespace NodeId

/-- The name with the given number, of which 128 bits count. -/
def ofNat (n : Nat) : NodeId :=
  ⟨BitVec.ofNat 128 n⟩

/-- The number of a name. -/
def toNat (id : NodeId) : Nat :=
  id.bits.toNat

/-- The name that random bits make: it is marked as random by a digit 4 and the two bits `10`. -/
def ofRandom (bits : BitVec 128) : NodeId :=
  ⟨bits &&& ~~~(0xf000c000000000000000 : BitVec 128) ||| 0x40008000000000000000⟩

/-- The groups of digits, hyphens between them. -/
def toChars (id : NodeId) : List Char :=
  let ds := Text.toHex 32 id.toNat
  ds.take 8 ++ '-' :: (ds.drop 8).take 4 ++ '-' :: (ds.drop 12).take 4 ++
    '-' :: (ds.drop 16).take 4 ++ '-' :: ds.drop 20

/-- The text of a name. -/
def toText (id : NodeId) : String :=
  String.ofList id.toChars

/-- The text of a name as error messages show it. -/
def shown (id : NodeId) : String :=
  "NodeId(" ++ id.toText ++ ")"

/-- Reads the name from its digits without hyphens. -/
def ofDigits? (cs : List Char) : Option NodeId :=
  if cs.length = 32 then (Text.ofHex? cs).map ofNat else none

/-- Reads the name from its groups. -/
def ofGroups? (cs : List Char) : Option NodeId :=
  if cs.length = 36 ∧ [8, 13, 18, 23].all (cs[·]? = some '-') then
    ofDigits? (cs.take 8 ++ (cs.drop 9).take 4 ++ (cs.drop 14).take 4 ++ (cs.drop 19).take 4 ++
      cs.drop 24)
  else none

/-- Reads a name in any of its spellings. -/
def ofChars? (cs : List Char) : Option NodeId :=
  if cs.length = 32 then ofDigits? cs
  else if cs.length = 36 then ofGroups? cs
  else if cs.length = 38 ∧ cs.head? = some '{' ∧ cs.getLast? = some '}' then
    ofGroups? (cs.tail.dropLast)
  else if cs.length = 45 ∧ (cs.take 9).map Char.toLower = "urn:uuid:".toList then
    ofGroups? (cs.drop 9)
  else none

end NodeId

end Patchbay
