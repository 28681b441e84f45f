import Patchbay.Config
import Patchbay.Ron.Reader
import Patchbay.Ron.Writer

/-!
# Configuration files

A configuration is kept as one record of the object notation. A file names the fields it overrides;
the others keep their defaults. It is written with one field to a line.
-/

namespace Patchbay

/-- Why a configuration cannot be read or written. -/
inductive ConfigError where
  | notFound
  /-- The bytes of the file are no text. -/
  | notText
  /-- The text is no configuration. -/
  | malformed
deriving DecidableEq, Repr

namespace ConfigError

/-- Whether reading or writing the file failed, and not what it holds. -/
def isIo : ConfigError → Bool
  | notFound | notText => true
  | malformed => false

/-- The text of an error. -/
def message : ConfigError → String
  | notFound => "I/O error: No such file or directory (os error 2)"
  | notText => "I/O error: stream did not contain valid UTF-8"
  | malformed => "Parse error"

end ConfigError

namespace Config

open Ron

/-- A width and a height in parentheses. -/
def readExtent : Reader Extent :=
  .map (fun (x, y) => ⟨x, y⟩) (.pair .single .single)

/-- The fields of a configuration. -/
def fields : List (Reader.Field Config) :=
  [.of "drag_threshold" false .single fun c x => { c with dragThreshold := x },
    .of "tick_interval_ms" false .word64 fun c n => { c with tickInterval := n },
    .of "node_size" false readExtent fun c e => { c with nodeSize := e },
    .of "port_hotspot" false readExtent fun c e => { c with hotspotSize := e },
    .of "spawn_offset" false .single fun c x => { c with spawnOffset := x },
    .of "spawn_jitter" false .single fun c x => { c with spawnJitter := x },
    .of "run_for_ms" false .word64 fun c n => { c with runFor := n },
    .of "rng_seed" false (.option .word64) fun c seed => { c with seed := seed }]

/-- Reads a configuration; fields that are not named keep their defaults. -/
def reader : Reader Config := .record "EditorConfig" fields {}

/-- The configuration of a text. -/
def ofText? (text : String) : Option Config := reader.document? text.toList

/-! ## Writing -/

/-- A line break and the white space before a field or a member. -/
def newLine (spaces : Nat) : List Char := '\n' :: List.replicate spaces ' '

/-- A field on a line of its own. -/
def writeField (name : String) (value : List Char) : List Char :=
  newLine 4 ++ name.toList ++ ": ".toList ++ value ++ [',']

/-- A width and a height, each on a line of its own. -/
def writeExtent (e : Extent) : List Char :=
  '(' :: newLine 8 ++ writeSingle e.width ++ ',' :: newLine 8 ++ writeSingle e.height ++
    ',' :: newLine 4 ++ [')']

/-- The fields of a configuration with their values as they are written. -/
def writtenFields (c : Config) : List (String × List Char) :=
  [("drag_threshold", writeSingle c.dragThreshold),
    ("tick_interval_ms", writeNat c.tickInterval.toNat),
    ("node_size", writeExtent c.nodeSize),
    ("port_hotspot", writeExtent c.hotspotSize),
    ("spawn_offset", writeSingle c.spawnOffset),
    ("spawn_jitter", writeSingle c.spawnJitter),
    ("run_for_ms", writeNat c.runFor.toNat),
    ("rng_seed", writeOption (fun (n : UInt64) => writeNat n.toNat) c.seed)]

/-- The text of a record of some fields. -/
def writeFields (fields : List (String × List Char)) : List Char :=
  '(' :: fields.flatMap (fun (name, value) => writeField name value) ++ ['\n', ')']

/-- The text of a configuration. -/
def toText (c : Config) : String := String.ofList (writeFields c.writtenFields)

/-! ## Files -/

/-- The configuration of a file, given its bytes if it is there. -/
def load (file : Option ByteArray) : Except ConfigError Config :=
  match file with
  | none => .error .notFound
  | some bytes =>
    match String.fromUTF8? bytes with
    | none => .error .notText
    | some text =>
      match ofText? text with
      | none => .error .malformed
      | some c => .ok c

/-- The configuration of a file, or the defaults if it cannot be had. -/
def loadOrDefault (file : Option ByteArray) : Config :=
  match load file with
  | .ok c => c
  | .error _ => {}

/-- The bytes to keep a configuration in. -/
def save (c : Config) : ByteArray := c.toText.toUTF8

end Config

end Patchbay
