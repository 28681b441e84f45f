import Patchbay.Config.File
import Patchbay.Host

/-!
# The command line

Runs the demonstration without a screen. The one argument names the configuration file; a file that
cannot be used is noted, and the defaults take its place. The program prints what nodes log, what
gestures come to and what the inspector shows.
-/

namespace Patchbay.Command

/-- The configuration file to use if none is named. -/
def defaultFile : String := "patchbay.ron"

/-- The number that random bytes make. -/
def randomNat (count : USize) : IO Nat := do
  let bytes ← IO.getRandomBytes count
  return bytes.foldl (fun n b => 256 * n + b.toNat) 0

/-- A name not in use. -/
def freshId : IO NodeId := do
  return .ofRandom (.ofNat 128 (← randomNat 16))

/-- Names for the nodes of the demonstration. -/
def freshDemo : IO Demo :=
  return {
    battery := ← freshId
    words := ← freshId
    cycler := ← freshId
    comparison := ← freshId
    pulse := ← freshId
    logger := ← freshId }

/-- The configuration of a file, or the defaults. -/
def loadConfig (path : String) : IO Config := do
  let file ← try some <$> IO.FS.readBinFile path catch _ => pure none
  match Config.load file with
  | .ok _ => pure ()
  | .error .notFound => IO.println ("No configuration at " ++ path ++ ", using defaults")
  | .error e =>
    IO.println ("Failed to load configuration " ++ path ++ ": " ++ e.message ++
      ". Using defaults.")
  return Config.loadOrDefault file

/-- Waits for a point in time, given in nanoseconds. -/
def sleepUntil (time : Nat) : IO Unit := do
  let now ← IO.monoNanosNow
  IO.sleep (min ((time - now + 999999) / 1000000) 4000000000).toUInt32

/-- Ticks up to a point in time; `due` is when the next tick is due, and so is the answer. -/
def tickUntil (deadline interval due : Nat) (r : Run) : IO (Run × Nat) := do
  let mut r := r
  let mut due := due
  while due < deadline do
    sleepUntil due
    let now ← IO.monoNanosNow
    let (next, log) := r.tick ⟨now⟩
    for line in log do
      IO.println (line.node.shown ++ ": " ++ line.text)
    r := next
    due := now + interval
  sleepUntil deadline
  return (r, due)

/-- The text of a gesture, if it is worth a line. -/
def gestureText : Gesture → Option String
  | .ignored => none
  | .selected id => some ("Selected " ++ id.shown)
  | .deselected => some "Deselected"
  | .movedNode id => some ("Moved " ++ id.shown)
  | .panned => some "Panned"
  | .wireStarted id => some ("Wire started at " ++ id.shown)
  | .wireCompleted w =>
    some ("Wired " ++ w.source.shown ++ " to input " ++ Nat.repr w.input ++ " of " ++
      w.target.shown)
  | .wireDeleted w =>
    some ("Cut the wire to input " ++ Nat.repr w.input ++ " of " ++ w.target.shown)

/-- The text of what an inspector shows. -/
def viewText : Option NodeView → String
  | none => "Inspector cleared"
  | some v =>
    "Inspecting " ++ v.name ++ ", output " ++ v.output.display ++ ", inputs " ++
      Nat.repr v.inputs.length

/-- Plays a script to its end, ticking in between. -/
def playAll (interval pause : Nat) :
    (deadline due : Nat) → Run → List ScriptStep → IO Run
  | deadline, due, r, [] => (·.1) <$> tickUntil deadline interval due r
  | deadline, due, r, step :: steps => do
    let (r, due) ← tickUntil deadline interval due r
    let (r, gesture, changed) := r.play step
    if let some text := gestureText gesture then IO.println text
    if changed then IO.println (viewText r.view)
    playAll interval pause (deadline + pause) due r steps

/-- Runs the demonstration. -/
def run (path : String) : IO (Except HostError Unit) := do
  let config ← loadConfig path
  let seed ← randomNat 8
  match Run.start config (.ofNat seed) (← freshDemo) with
  | .error e => return .error e
  | .ok (r, steps) =>
    let pause := Run.pause config steps.length
    let now ← IO.monoNanosNow
    let r ← playAll (config.tickInterval.toNat * 1000000) pause (now + pause) now r steps
    IO.println ("Evaluation stopped, ticks " ++ Nat.repr r.ticks.toNat ++ ", nodes " ++
      Nat.repr r.session.graph.nodes.length ++ ", wires " ++
      Nat.repr r.session.graph.wires.length)
    return .ok ()

end Patchbay.Command

/-- Runs the demonstration; the exit code is 1 if it could not be had. -/
def main (args : List String) : IO UInt32 := do
  IO.println "Starting"
  match ← Patchbay.Command.run (args.headD Patchbay.Command.defaultFile) with
  | .ok () => return 0
  | .error e =>
    IO.eprintln ("Failed: " ++ e.message)
    return 1
