import Patchbay.Demo
import Patchbay.Session

/-!
# Scripts

A script is a list of pointer events that stands in for a person at a screen. It names places only;
the movement between two places is worked out from where the pointer was.
-/

namespace Patchbay

/-- One step of a script. -/
inductive ScriptStep where
  /-- The button goes down in a place. -/
  | press (place : Point)
  /-- The pointer moves to a place. -/
  | moveTo (place : Point)
  /-- The button comes up in a place. -/
  | release (place : Point)
  | wheel (d : Offset)
deriving DecidableEq

namespace ScriptStep

/-- The input event of a step, and where it leaves the pointer, given where it was. -/
def toInput (cursor : Point) : ScriptStep → PointerInput × Point
  | press p => (.press { position := p }, p)
  | moveTo p => (.move { position := p, delta := p - cursor }, p)
  | release p => (.release { position := p }, p)
  | wheel d => (.wheel d, cursor)

end ScriptStep

/-- A pointer that plays scripts. -/
structure Player where
  pointer : Pointer
  cursor : Point := .origin
deriving DecidableEq

namespace Player

/-- A player with the drag threshold of a configuration. -/
def ofConfig (c : Config) : Player := ⟨.ofConfig c, .origin⟩

/-- Plays one step. -/
def play (p : Player) (g : Graph) (step : ScriptStep) : Player × Change Gesture :=
  let (input, cursor) := step.toInput p.cursor
  let (pointer, c) := p.pointer.handle g input
  (⟨pointer, cursor⟩, c)

/-- Plays a script to its end; the answers are the gestures in order. -/
def playAll (p : Player) (g : Graph) : List ScriptStep → Player × Change (List Gesture)
  | [] => (p, ⟨[], g, []⟩)
  | step :: steps =>
    let (p, c) := p.play g step
    let (p, r) := p.playAll c.graph steps
    (p, ⟨c.result :: r.result, r.graph, c.events ++ r.events⟩)

end Player

namespace Script

/-- A click. -/
def click (p : Point) : List ScriptStep := [.press p, .release p]

/-- A drag in three moves of one third of the way. -/
def drag (p q : Point) : List ScriptStep :=
  .press p ::
    ([1, 2, 3].map fun i => .moveTo (p.between q (Float32.ofNat i / 3))) ++ [.release q]

/--
The script of the demonstration: select the logger, cut the wire of its words, wire it again, move
the logger, and scroll. There is none if the nodes are not there.
-/
def demo (d : Demo) (g : Graph) : List ScriptStep :=
  let scene := g.scene
  let half : Offset := ⟨g.config.hotspotSize.toOffset.x / 2, 0⟩
  match scene.node? d.words, scene.node? d.logger with
  | some words, some logger =>
    match logger.inputs[1]? with
    | some jack =>
      let body := logger.rect.center
      let input := jack.anchor - half
      let output := words.outputAnchor + half
      click body ++ click input ++ drag output input ++ drag body (body + Offset.mk 40 20) ++
        [.wheel ⟨0, 25⟩]
    | none => []
  | _, _ => []

end Script

end Patchbay
