import Patchbay.Config.File
import Patchbay.Proofs.Ron.Records

/-!
# Configuration files are read

A file is read key by key, each with the value that stands after it, and what it does not name keeps
its default (`load_naming`). The text that a configuration is saved as names every key, and so is
read back to it (`load_save`).
-/

namespace Patchbay.Config

open Ron

/-! ## Keys -/

/-- The keys of a configuration. -/
inductive Key where
  | dragThreshold
  | tickInterval
  | nodeSize
  | hotspotSize
  | spawnOffset
  | spawnJitter
  | runFor
  | seed
deriving DecidableEq, Repr

namespace Key

/-- The name of a key in a file. -/
def name : Key → String
  | dragThreshold => "drag_threshold"
  | tickInterval => "tick_interval_ms"
  | nodeSize => "node_size"
  | hotspotSize => "port_hotspot"
  | spawnOffset => "spawn_offset"
  | spawnJitter => "spawn_jitter"
  | runFor => "run_for_ms"
  | seed => "rng_seed"

theorem name_injective : Function.Injective name := by
  intro k l
  cases k <;> cases l <;> decide

theorem isName_name (k : Key) : isName k.name.toList = true := by
  cases k <;> decide

/-- All keys, in the order in which they are written. -/
def all : List Key :=
  [dragThreshold, tickInterval, nodeSize, hotspotSize, spawnOffset, spawnJitter, runFor, seed]

theorem nodup_all : all.Nodup := by decide

end Key

/-! ## Values of keys -/

/-- One value taken from a configuration, and the others from another. -/
def take (c : Config) : Key → Config → Config
  | .dragThreshold, d => { d with dragThreshold := c.dragThreshold }
  | .tickInterval, d => { d with tickInterval := c.tickInterval }
  | .nodeSize, d => { d with nodeSize := c.nodeSize }
  | .hotspotSize, d => { d with hotspotSize := c.hotspotSize }
  | .spawnOffset, d => { d with spawnOffset := c.spawnOffset }
  | .spawnJitter, d => { d with spawnJitter := c.spawnJitter }
  | .runFor, d => { d with runFor := c.runFor }
  | .seed, d => { d with seed := c.seed }

/-- The values of some keys taken from a configuration, and the others from another. -/
def override (c : Config) (keys : List Key) (d : Config) : Config where
  dragThreshold := if .dragThreshold ∈ keys then c.dragThreshold else d.dragThreshold
  tickInterval := if .tickInterval ∈ keys then c.tickInterval else d.tickInterval
  nodeSize := if .nodeSize ∈ keys then c.nodeSize else d.nodeSize
  hotspotSize := if .hotspotSize ∈ keys then c.hotspotSize else d.hotspotSize
  spawnOffset := if .spawnOffset ∈ keys then c.spawnOffset else d.spawnOffset
  spawnJitter := if .spawnJitter ∈ keys then c.spawnJitter else d.spawnJitter
  runFor := if .runFor ∈ keys then c.runFor else d.runFor
  seed := if .seed ∈ keys then c.seed else d.seed

theorem foldl_take (c : Config) (keys : List Key) (d : Config) :
    keys.foldl (fun d k => c.take k d) d = c.override keys d := by
  induction keys generalizing d with
  | nil => simp [override]
  | cons k keys ih =>
    rw [List.foldl_cons, ih]
    cases k <;> simp [override, take]

theorem override_all (c d : Config) : c.override Key.all d = c := by
  simp [override, Key.all]

/-! ## Texts of values -/

/-- Whether a text spells two lengths in parentheses. -/
inductive SpellsExtent (e : Extent) : List Char → Prop
  | mk (lead before after : Blanks) (gap : Gap) : SpellsExtent e
      (enclosed lead (writeSingle e.width ++
        (before.chars ++ ',' :: (after.chars ++ writeSingle e.height))) gap)

/-- Whether a text spells a seed, or that there is none. -/
inductive SpellsSeed : Option UInt64 → List Char → Prop
  | none : SpellsSeed none "None".toList
  | some (n : UInt64) (between lead : Blanks) (gap : Gap) : SpellsSeed (some n)
      ("Some".toList ++ (between.chars ++ enclosed lead (writeNat n.toNat) gap))

/-- Whether a text spells the value of a key, whatever white space stands inside. -/
def Spells (c : Config) : Key → List Char → Prop
  | .dragThreshold, cs => cs = writeSingle c.dragThreshold
  | .tickInterval, cs => cs = writeNat c.tickInterval.toNat
  | .nodeSize, cs => SpellsExtent c.nodeSize cs
  | .hotspotSize, cs => SpellsExtent c.hotspotSize cs
  | .spawnOffset, cs => cs = writeSingle c.spawnOffset
  | .spawnJitter, cs => cs = writeSingle c.spawnJitter
  | .runFor, cs => cs = writeNat c.runFor.toNat
  | .seed, cs => SpellsSeed c.seed cs

theorem reads_extent {e : Extent} {cs : List Char} (h : SpellsExtent e cs) :
    Reads readExtent cs e.standard := by
  cases h with
  | mk lead before after gap =>
    exact ((Reads.single e.width).pair (Reads.single e.height) lead before after gap).map _

theorem reads_seed {seed : Option UInt64} {cs : List Char} (h : SpellsSeed seed cs) :
    Reads (.option .word64) cs seed := by
  cases h with
  | none => exact Reads.absent _
  | some n between lead gap => exact (Reads.word64 n).present between lead gap

/-! ## Reading keys -/

/-- Whether a field of a file gives some key its value. -/
def Names (c : Config) (k : Key) (f : String × List Char) : Prop :=
  f.1 = k.name ∧ c.Spells k f.2

theorem fills_keys {c : Config} {keys : List Key} {fs : List (String × List Char)}
    (h : List.Forall₂ c.Names keys fs) (d : Config) :
    Fills fields d fs (c.standard.override keys d) := by
  rw [← foldl_take]
  induction h generalizing d with
  | nil => exact .nil
  | @cons k f keys fs hkey hmore ih =>
    obtain ⟨name, value⟩ := f
    obtain ⟨rfl, hvalue⟩ := hkey
    have hrest := ih (c.standard.take k d)
    have hname := k.isName_name
    -- the keys of a case have values of one shape
    cases k with
    | dragThreshold | spawnOffset | spawnJitter =>
      cases hvalue
      exact .of rfl hname (Reads.single _) hrest
    | tickInterval | runFor =>
      cases hvalue
      exact .of rfl hname (Reads.word64 _) hrest
    | nodeSize | hotspotSize => exact .of rfl hname (reads_extent hvalue) hrest
    | seed => exact .of rfl hname (reads_seed hvalue) hrest

theorem map_fst_of_names {c : Config} {keys : List Key} {fs : List (String × List Char)}
    (h : List.Forall₂ c.Names keys fs) : fs.map (·.1) = keys.map Key.name := by
  induction h with
  | nil => rfl
  | cons hkey _ ih => rw [List.map_cons, List.map_cons, ih, hkey.1]

/-! ## Files -/

/-- The text of a file that holds some fields. -/
def fileText (title : Option Blanks) (before lead after : Blanks) (es : List Entry) : String :=
  String.ofList (before.chars ++ (recordChars "EditorConfig" title lead es ++ after.chars))

theorem load_toUTF8 {text : String} {c : Config} (h : ofText? text = some c) :
    load (some text.toUTF8) = .ok c := by
  have hutf8 : String.fromUTF8? text.toUTF8 = some text := by
    simp only [String.fromUTF8?, String.toUTF8_eq_toByteArray]
    exact dif_pos text.isValidUTF8
  unfold load
  simp only [hutf8, h]

theorem ofText?_fileText (c : Config) (keys : List Key) (hkeys : keys.Nodup) (es : List Entry)
    (hnames : List.Forall₂ c.Names keys (es.map Entry.field)) (hseparated : Separated es)
    (title : Option Blanks) (before lead after : Blanks) :
    ofText? (fileText title before lead after es) = some (c.standard.override keys {}) := by
  have hnodup : (es.map (·.name)).Nodup := by
    have hfields := map_fst_of_names hnames
    rw [List.map_map] at hfields
    exact hfields ▸ hkeys.map Key.name_injective
  have hread : Reads reader (recordChars "EditorConfig" title lead es) _ :=
    Reads.record (by decide) (fills_keys hnames {}) hseparated hnodup
      (by simp [fields, Reader.Field.of]) title lead
  rw [ofText?, fileText, String.toList_ofList]
  exact hread.document? before after

/--
A file that names some keys, in any order and each with its value of a configuration, is read to the
configuration that has these values, and the defaults for all else.
-/
theorem load_naming (c : Config) (keys : List Key) (hkeys : keys.Nodup) (es : List Entry)
    (hnames : List.Forall₂ c.Names keys (es.map Entry.field)) (hseparated : Separated es)
    (title : Option Blanks) (before lead after : Blanks) :
    load (some (fileText title before lead after es).toUTF8) =
      .ok (c.standard.override keys {}) :=
  load_toUTF8 (ofText?_fileText c keys hkeys es hnames hseparated title before lead after)

theorem load_naming_two :
    load (some "(drag_threshold: 8.0, rng_seed: Some(3))".toUTF8) =
        .ok { dragThreshold := 8, seed := some 3 } ∧
      load (some "()".toUTF8) = .ok {} := by
  refine ⟨?_, ?_⟩
  · exact load_naming { dragThreshold := 8, seed := some 3 } [.dragThreshold, .seed] (by decide)
      [⟨"drag_threshold", "8.0".toList, .none, .space, ⟨.none, some .space⟩⟩,
        ⟨"rng_seed", "Some(3)".toList, .none, .space, {}⟩]
      (.cons ⟨rfl, show "8.0".toList = writeSingle 8 by decide +kernel⟩
        (.cons ⟨rfl, .some 3 .none .none {}⟩ .nil))
      (by simp [Separated]) none .none .none .none
  · exact load_naming {} [] (by decide) [] .nil (by simp [Separated]) none .none .none .none

/-! ## Saved configurations -/

theorem names_writtenFields (c : Config) : List.Forall₂ c.Names Key.all c.writtenFields := by
  have hextent : ∀ e : Extent, SpellsExtent e (writeExtent e) := by
    intro e
    have hmk := SpellsExtent.mk (e := e) (.newLine 8) .none (.newLine 8)
      { comma := some (.newLine 4) }
    have htext : writeExtent e = enclosed (.newLine 8) (writeSingle e.width ++
        (Blanks.none.chars ++ ',' :: ((Blanks.newLine 8).chars ++ writeSingle e.height)))
        { comma := some (.newLine 4) } := by
      simp [writeExtent, enclosed, Gap.chars, Blanks.none, Blanks.newLine, newLine]
    rwa [htext]
  have hseed : SpellsSeed c.seed (writeOption (fun (n : UInt64) => writeNat n.toNat) c.seed) := by
    cases c.seed with
    | none => exact .none
    | some n =>
      have hsome := SpellsSeed.some n .none .none {}
      rwa [← inParentheses_eq] at hsome
  exact .cons ⟨rfl, rfl⟩ <| .cons ⟨rfl, rfl⟩ <| .cons ⟨rfl, hextent _⟩ <| .cons ⟨rfl, hextent _⟩ <|
    .cons ⟨rfl, rfl⟩ <| .cons ⟨rfl, rfl⟩ <| .cons ⟨rfl, rfl⟩ <| .cons ⟨rfl, hseed⟩ .nil

/-- Fields with a line for each. -/
def inLines (fs : List (String × List Char)) : List Entry :=
  laidOut .space { comma := some (.newLine 4) } { comma := some (.newLine 0) } fs

theorem writeFields_eq {fs : List (String × List Char)} (hne : fs ≠ []) :
    writeFields fs = recordChars "EditorConfig" none (.newLine 4) (inLines fs) := by
  -- a line break is written before each field, and stands after the one before it
  have hlines : fs.flatMap (fun f => writeField f.1 f.2) ++ ['\n'] =
      newLine 4 ++ (inLines fs).flatMap Entry.chars := by
    induction fs with
    | nil => exact absurd rfl hne
    | cons f more ih =>
      cases more with
      | nil => simp [inLines, laidOut, writeField, Entry.chars, Gap.chars, Blanks.none,
          Blanks.space, Blanks.newLine]
      | cons next more =>
        rw [List.flatMap_cons, List.append_assoc, ih (by simp)]
        simp [inLines, laidOut, writeField, Entry.chars, Gap.chars, Blanks.none, Blanks.space,
          Blanks.newLine, newLine]
  have hsplit : writeFields fs =
      '(' :: (fs.flatMap (fun f => writeField f.1 f.2) ++ ['\n'] ++ [')']) := by
    simp [writeFields]
  rw [hsplit, hlines, recordChars, List.append_assoc]
  rfl

/-- What was saved is read back, number for number but for what is none. -/
theorem load_save (c : Config) :
    load (some c.save) = .ok c.standard ∧ loadOrDefault (some c.save) = c.standard := by
  have hload : load (some c.save) = .ok c.standard := by
    apply load_toUTF8
    have hnames := names_writtenFields c
    rw [← map_field_laidOut .space { comma := some (.newLine 4) } { comma := some (.newLine 0) }
      c.writtenFields] at hnames
    have hread := ofText?_fileText c Key.all Key.nodup_all (inLines c.writtenFields) hnames
      (separated_laidOut _ _ _ _ rfl) none .none (.newLine 4) .none
    rw [override_all, fileText, ← writeFields_eq (by simp [writtenFields])] at hread
    simpa [toText, Blanks.none] using hread
  refine ⟨hload, ?_⟩
  rw [loadOrDefault, hload]

end Patchbay.Config
