import Patchbay.Binding
import Patchbay.Config
import Patchbay.Node.Type
import Patchbay.Proofs.Value.Canonical

/-!
# Data with standard bits for what is no number

There are many ways of being no number, and a text tells only their signs apart. `standard` puts one
of each sign in their place, wherever a number stands in some data, and leaves all else as it is,
bit for bit.
-/

namespace Patchbay

/-! ## Numbers -/

namespace Double

theorem ofParts_self (x : Double) : ofParts x.isNegative x.magnitude = x := by
  cases x with
  | mk bits =>
    unfold ofParts
    rw [← toNat_bits, UInt64.ofNat_toNat]

/-- The number itself, or what is no number of its sign. -/
def standard (x : Double) : Double :=
  if x.isNaN then ofParts x.isNegative Binary.Format.double.nan else x

theorem standard_eq (x : Double) : x.standard = ofParts x.isNegative
    (if Binary.Format.double.infinity < x.magnitude then Binary.Format.double.nan
      else x.magnitude) := by
  unfold standard isNaN
  by_cases h : Binary.Format.double.infinity < x.magnitude
  · rw [if_pos h, if_pos (by simpa using h)]
  · rw [if_neg h, if_neg (by simpa using h), ofParts_self]

end Double

namespace Single

theorem toNat_bits (x : Single) :
    x.bits.toNat = (if x.isNegative then signBit else 0) + x.magnitude := by
  have hlt : x.bits.toNat < 4294967296 := x.bits.toNat_lt
  unfold isNegative magnitude signBit
  by_cases h : 0x80000000 ≤ x.bits.toNat
  · rw [if_pos (by simpa using h)]
    omega
  · rw [if_neg (by simpa using h)]
    omega

theorem ofParts_self (x : Single) : ofParts x.isNegative x.magnitude = x := by
  cases x with
  | mk bits =>
    unfold ofParts
    rw [← toNat_bits, UInt32.ofNat_toNat]

/-- The number itself, or what is no number of its sign. -/
def standard (x : Single) : Single :=
  if x.isNaN then ofParts x.isNegative Binary.Format.single.nan else x

theorem standard_eq (x : Single) : x.standard = ofParts x.isNegative
    (if Binary.Format.single.infinity < x.magnitude then Binary.Format.single.nan
      else x.magnitude) := by
  unfold standard isNaN
  by_cases h : Binary.Format.single.infinity < x.magnitude
  · rw [if_pos h, if_pos (by simpa using h)]
  · rw [if_neg h, if_neg (by simpa using h), ofParts_self]

end Single

/-! ## Plain data -/

/-- The value with standard bits. -/
def Value.standard : Value → Value
  | number x => number x.standard
  | v => v

/-- The binding with standard bits. -/
def Binding.standard : Binding → Binding
  | literal v => literal v.standard
  | b => b

/-- The slot with standard bits in its choices. -/
def Slot.standard (s : Slot) : Slot :=
  { s with choices := s.choices.map (List.map Value.standard) }

/-- The node type with standard bits in its inputs. -/
def NodeType.standard (t : NodeType) : NodeType :=
  { t with inputs := t.inputs.map Slot.standard }

/-- The extent with standard bits. -/
def Extent.standard (e : Extent) : Extent :=
  ⟨e.width.standard, e.height.standard⟩

/-- The configuration with standard bits. -/
def Config.standard (c : Config) : Config where
  dragThreshold := c.dragThreshold.standard
  tickInterval := c.tickInterval
  nodeSize := c.nodeSize.standard
  hotspotSize := c.hotspotSize.standard
  spawnOffset := c.spawnOffset.standard
  spawnJitter := c.spawnJitter.standard
  runFor := c.runFor
  seed := c.seed

end Patchbay
