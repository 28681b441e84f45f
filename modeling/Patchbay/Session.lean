import Patchbay.Graph.Tick
import Patchbay.Inspector
import Patchbay.Pointer

/-!
# Sessions

A session is a patch in use: the patch, its subscribers, the pointers that edit it and the
inspectors that show it. `Session.perform` carries out one action of any of them. The
notifications of the patch are sent to the subscribers in the order in which the edit gives them.
A refused action changes nothing, but a spawn that is refused has made its draws. The subscription
of an inspector is its own: only the inspector reads from it.
-/

namespace Patchbay

/-- An action on a patch itself. -/
inductive Edit where
  | add (n : Node)
  /-- Adds a node of a kind in view, under a name not in use. -/
  | spawn (kind : NodeKind) (id : NodeId)
  | remove (id : NodeId)
  | bind (id : NodeId) (index : Nat) (b : Binding)
  /-- Wires an output to an input. -/
  | connect (source target : NodeId) (index : Nat)
  /-- Binds an input to a constant. -/
  | setLiteral (id : NodeId) (index : Nat) (v : Value)
  | clearInput (id : NodeId) (index : Nat)
  | moveNode (id : NodeId) (d : Offset)
  /-- Puts a node in a place. -/
  | setPosition (id : NodeId) (p : Point)
  | rename (id : NodeId) (name : String)
  | describe (id : NodeId) (description : String)
  | select (id : NodeId)
  | deselect
  | scrollBy (d : Offset)
  /-- Evaluates every node once. -/
  | tick (now : Instant)

/-- An input event of a pointer. -/
inductive PointerInput where
  | press (e : PointerEvent)
  | move (e : PointerEvent)
  | release (e : PointerEvent)
  | wheel (d : Offset)

/-- An edit of the selected node through an inspector. -/
inductive InspectorEdit where
  /-- Binds an input to a constant. -/
  | setLiteral (index : Nat) (v : Value)
  /-- Binds an input to what a text means. -/
  | setText (index : Nat) (text : String)
  | clearInput (index : Nat)
  | rename (name : String)
  | remove

/-- The answer of an action that succeeded. -/
inductive Reply where
  /-- Nothing to say. -/
  | done
  | node (id : NodeId)
  /-- The node removed, if there was one. -/
  | removed (n : Option Node)
  /-- The binding before. -/
  | binding (b : Binding)
  | wire (w : Wire)
  | value (v : Value)
  /-- What a pointer event came to. -/
  | gesture (g : Gesture)
  /-- The number of a new subscriber or inspector. -/
  | index (n : Nat)
  /-- Whether a view was replaced. -/
  | changed (b : Bool)
  /-- The notifications that were waiting. -/
  | events (es : List Event)

namespace Edit

/-- What an edit leaves behind; only a tick logs lines. -/
structure Result where
  reply : Reply
  graph : Graph
  events : List Event := []
  log : List LogLine := []

/-- The result of a change whose answer is put in words. -/
def Result.ofChange {α : Type} (c : Change α) (reply : α → Reply) : Result :=
  { reply := reply c.result, graph := c.graph, events := c.events }

/-- Carries out an edit. -/
def apply (g : Graph) : Edit → Except GraphError Result
  | add n => (g.add n).map fun c => .ofChange c .node
  | spawn kind id => (g.spawn kind id).map fun c => .ofChange c .node
  | remove id => .ok (.ofChange (g.remove id) .removed)
  | bind id index b => (g.bind id index b).map fun c => .ofChange c .binding
  | connect source target index => (g.connect source target index).map fun c => .ofChange c .wire
  | setLiteral id index v => (g.setLiteral id index v).map fun c => .ofChange c .binding
  | clearInput id index => (g.clearInput id index).map fun c => .ofChange c .binding
  | moveNode id d => (g.moveNode id d).map fun c => .ofChange c fun _ => .done
  | setPosition id p => (g.setPosition id p).map fun c => .ofChange c fun _ => .done
  | rename id name => (g.rename id name).map fun c => .ofChange c fun _ => .done
  | describe id description =>
    (g.describe id description).map fun c => .ofChange c fun _ => .done
  | select id => (g.select id).map fun c => .ofChange c fun _ => .done
  | deselect => .ok (.ofChange g.deselect fun _ => .done)
  | scrollBy d => .ok (.ofChange (g.scrollBy d) fun _ => .done)
  | tick now =>
    let t := g.tick now
    .ok { reply := .done, graph := t.graph, events := t.events, log := t.log }

/-- The patch after an edit was refused. A spawn has made its draws by then. -/
def leave (g : Graph) : Edit → Graph
  | spawn kind id => { g with random := (g.spawned kind id).2 }
  | add _ | remove _ | bind .. | connect .. | setLiteral .. | clearInput .. | moveNode ..
  | setPosition .. | rename .. | describe .. | select _ | deselect | scrollBy _ | tick _ => g

end Edit

/-- What a pointer makes of an input event. -/
def Pointer.handle (s : Pointer) (g : Graph) : PointerInput → Pointer × Change Gesture
  | .press e => (s.press g e, noChange g .ignored)
  | .move e => s.move g e
  | .release e => s.release g e
  | .wheel d => (s, wheel g d)

/-- Carries out an edit of the selected node. -/
def InspectorEdit.apply (g : Graph) : InspectorEdit → Except GraphError (Change Reply)
  | setLiteral index v => (g.setSelectedLiteral index v).map fun c => ⟨.done, c.graph, c.events⟩
  | setText index text =>
    (g.setSelectedText index text).map fun c => ⟨.value c.result, c.graph, c.events⟩
  | clearInput index => (g.clearSelectedInput index).map fun c => ⟨.done, c.graph, c.events⟩
  | rename name => (g.renameSelected name).map fun c => ⟨.done, c.graph, c.events⟩
  | remove => (g.removeSelected).map fun c => ⟨.node c.result, c.graph, c.events⟩

/-- An action of any part of a session. -/
inductive Action where
  | edit (e : Edit)
  /-- An input event of a pointer, which is idle with the default threshold if it is new. -/
  | pointer (index : Nat) (input : PointerInput)
  /-- A pointer is put in place of another. -/
  | setPointer (index : Nat) (s : Pointer)
  | attach
  | sync (inspector : Nat)
  /-- An edit through an inspector, which then follows the patch. -/
  | inspect (inspector : Nat) (e : InspectorEdit)
  | detach (inspector : Nat)
  | subscribe
  /-- A subscriber reads what is waiting. -/
  | drain (subscriber : Nat)
  | hangUp (subscriber : Nat)

/-- A patch in use. -/
structure Session where
  graph : Graph
  bus : Bus := {}
  pointers : List Pointer := []
  /-- The inspectors; a closed one leaves a gap. -/
  inspectors : List (Option Inspector) := []

/-- What an action leaves behind. -/
structure Performed where
  /-- The answer, or why the action was refused. -/
  reply : Except GraphError Reply
  session : Session
  /-- The notifications that were sent, in order. -/
  events : List Event := []
  /-- The lines logged, in order. -/
  log : List LogLine := []

namespace Session

/-- A session of one pointer on a patch. -/
def ofGraph (g : Graph) : Session :=
  { graph := g, pointers := [.ofConfig g.config] }

/-- The pointer of a number. -/
def pointer (s : Session) (index : Nat) : Pointer :=
  s.pointers[index]?.getD (.ofConfig s.graph.config)

/-- The inspector of a number, if it is open. -/
def inspector? (s : Session) (index : Nat) : Option Inspector :=
  s.inspectors[index]?.getD none

/-- Whether a subscription is that of an open inspector, which nobody else can reach. -/
def isInspectors (s : Session) (subscriber : Nat) : Bool :=
  s.inspectors.any fun i => i.any (·.subscriber == subscriber)

/-- The session with another patch, whose notifications are sent out. -/
def publish (s : Session) (g : Graph) (events : List Event) : Session :=
  { s with graph := g, bus := s.bus.publish events }

/-- An inspector reads its notifications and follows the patch. -/
def syncInspector (s : Session) (index : Nat) : Bool × Session :=
  match s.inspector? index with
  | none => (false, s)
  | some i =>
    let (changed, i, bus) := i.sync s.graph s.bus
    (changed, { s with bus := bus, inspectors := s.inspectors.set index (some i) })

/-- Carries out an action. -/
def perform (s : Session) : Action → Performed
  | .edit e =>
    match e.apply s.graph with
    | .error err => { reply := .error err, session := { s with graph := e.leave s.graph } }
    | .ok r =>
      { reply := .ok r.reply, session := s.publish r.graph r.events, events := r.events,
        log := r.log }
  | .pointer index input =>
    let (p, c) := (s.pointer index).handle s.graph input
    { reply := .ok (.gesture c.result)
      session := { s.publish c.graph c.events with pointers := s.pointers.set index p }
      events := c.events }
  | .setPointer index p =>
    { reply := .ok .done, session := { s with pointers := s.pointers.set index p } }
  | .attach =>
    let (i, bus) := Inspector.attach s.graph s.bus
    { reply := .ok (.index s.inspectors.length)
      session := { s with bus := bus, inspectors := s.inspectors ++ [some i] } }
  | .sync index =>
    let (changed, s) := s.syncInspector index
    { reply := .ok (.changed changed), session := s }
  | .inspect index e =>
    match e.apply s.graph with
    | .error err => { reply := .error err, session := s }
    | .ok c =>
      { reply := .ok c.result
        session := ((s.publish c.graph c.events).syncInspector index).2
        events := c.events }
  | .detach index =>
    match s.inspector? index with
    | none => { reply := .ok .done, session := s }
    | some i =>
      { reply := .ok .done
        session := { s with
          bus := s.bus.hangUp i.subscriber
          inspectors := s.inspectors.set index none } }
  | .subscribe =>
    let (subscriber, bus) := s.bus.subscribe
    { reply := .ok (.index subscriber), session := { s with bus := bus } }
  | .drain subscriber =>
    if s.isInspectors subscriber then { reply := .ok (.events []), session := s }
    else
      let (events, bus) := s.bus.drain subscriber
      { reply := .ok (.events events), session := { s with bus := bus } }
  | .hangUp subscriber =>
    if s.isInspectors subscriber then { reply := .ok .done, session := s }
    else { reply := .ok .done, session := { s with bus := s.bus.hangUp subscriber } }

/-- Carries out actions one after the other. -/
def run (s : Session) (actions : List Action) : Session :=
  actions.foldl (fun s a => (s.perform a).session) s

end Session

end Patchbay
