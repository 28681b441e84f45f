import Patchbay.Script
import Patchbay.Session

/-!
# Running without a screen

A run without a screen plays a script on a session of one inspector, at even distances over the
time that the configuration gives, and ticks the patch in between.
-/

namespace Patchbay

/-- Why a run ends early. -/
inductive HostError where
  /-- The demonstration could not be built. -/
  | graph (e : GraphError)
  /-- The timer could not be started, for the given reason. -/
  | spawn (reason : String)
  /-- The timer died. -/
  | evaluationPanicked
deriving DecidableEq

/-- The text of an error. -/
def HostError.message : HostError → String
  | graph e => "Graph error: " ++ e.message
  | spawn reason => "Failed to start evaluation thread: " ++ reason
  | evaluationPanicked => "Evaluation thread panicked"

/-- A run without a screen. -/
structure Run where
  /-- The session, whose first inspector follows the script. -/
  session : Session
  /-- The pointer that plays the script. -/
  player : Player
  ticks : UInt64 := 0

namespace Run

/-- The run of the demonstration on an empty patch, and its script. -/
def start (c : Config) (seed : UInt64) (d : Demo) :
    Except HostError (Run × List ScriptStep) :=
  match d.build (.empty c seed) with
  | .error e => .error (.graph e)
  | .ok built =>
    let s := ((Session.ofGraph built.graph).perform .attach).session
    .ok ({ session := s, player := .ofConfig c }, Script.demo d s.graph)

/-- One tick, and the lines logged. -/
def tick (r : Run) (now : Instant) : Run × List LogLine :=
  let p := r.session.perform (.edit (.tick now))
  ({ r with session := p.session, ticks := r.ticks + 1 }, p.log)

/-- Plays one step; the answers are the gesture and whether the inspector shows something new. -/
def play (r : Run) (step : ScriptStep) : Run × Gesture × Bool :=
  let (player, c) := r.player.play r.session.graph step
  let (changed, s) := (r.session.publish c.graph c.events).syncInspector 0
  ({ r with session := s, player := player }, c.result, changed)

/-- What the inspector shows. -/
def view (r : Run) : Option NodeView := (r.session.inspector? 0).bind (·.view)

/-- The nanoseconds from one step of a script to the next, and from both ends to the nearest. -/
def pause (c : Config) (steps : Nat) : Nat := c.runFor.toNat * 1000000 / (steps + 1)

end Run

end Patchbay
