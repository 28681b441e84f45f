import Patchbay.Proofs.Graph.Hits
import Patchbay.Proofs.Graph.Integrity
import Patchbay.Proofs.Pointer.Click

/-!
# What a gesture reports

A pointer answers every input with a gesture, and the gesture tells all that has happened.
`Pointer.Reported` says what each one stands for: how the patch was, how it is afterwards, and what
was sent. It is so whatever the pointer was doing and whatever has become of the patch meanwhile,
so that one input changes no more than one of the selection, the wiring, the places of the nodes and
the view (`Pointer.gesture_reported`).
-/

namespace Patchbay

namespace Graph

/-- The patch with one node moved by an offset, each of its coordinates on its own. -/
def moved (g : Graph) (id : NodeId) (d : Offset) : Graph :=
  { g with nodes := g.nodes.map fun n =>
      if n.id = id then { n with position := ⟨n.position.x + d.x, n.position.y + d.y⟩ } else n }

/-- The patch with one input of one node bound anew. -/
def rebound (g : Graph) (id : NodeId) (index : Nat) (b : Binding) : Graph :=
  { g with nodes := g.nodes.map fun n =>
      if n.id = id then { n with inputs := n.inputs.modify index ({ · with binding := b }) }
      else n }

/-- Whether two patches have the same bindings at all inputs but one. -/
def BoundAlikeBut (g g' : Graph) (id : NodeId) (index : Nat) : Prop :=
  ∀ other ≠ (id, index), g'.binding? other.1 other.2 = g.binding? other.1 other.2

/-- The bindings of all nodes, in order. -/
def wiring (g : Graph) : List (NodeId × List Binding) := g.nodes.map fun n => (n.id, n.bindings)

/-- The parts of a patch that a pointer can change. -/
inductive Part where
  | selection
  | wiring
  | places
  | view

/-- Whether a part of a patch is the same in another. -/
def Keeps (g g' : Graph) : Part → Prop
  | .selection => g'.selected = g.selected
  | .wiring => g'.wiring = g.wiring
  | .places => g'.places = g.places
  | .view => g'.viewport = g.viewport

theorem moved_eq_update (g : Graph) (id : NodeId) (d : Offset) :
    g.moved id d = g.update id fun n => { n with position := n.position + d } := rfl

theorem ids_moved (g : Graph) (id : NodeId) (d : Offset) : (g.moved id d).ids = g.ids := by
  rw [moved_eq_update]
  exact g.ids_update id _ fun _ => rfl

theorem keeps_moved (g : Graph) (id : NodeId) (d : Offset) :
    ∀ part ≠ .places, g.Keeps (g.moved id d) part := by
  intro part h
  cases part with
  | selection | view => rfl
  | wiring =>
    rw [moved_eq_update]
    exact g.map_nodes_update id fun _ => rfl
  | places => exact absurd rfl h

theorem rebound_eq_update (g : Graph) (id : NodeId) (index : Nat) (b : Binding) :
    g.rebound id index b = g.update id (·.bind index b) := rfl

theorem ids_rebound (g : Graph) (id : NodeId) (index : Nat) (b : Binding) :
    (g.rebound id index b).ids = g.ids := by
  rw [rebound_eq_update]
  exact g.ids_update id _ fun _ => rfl

theorem binding?_rebound {g : Graph} {id : NodeId} {index : Nat}
    (h : (g.binding? id index).isSome) (b : Binding) :
    (g.rebound id index b).binding? id index = some b := by
  rw [rebound_eq_update, binding?_update_bind h]

theorem boundAlikeBut_rebound (g : Graph) (id : NodeId) (index : Nat) (b : Binding) :
    g.BoundAlikeBut (g.rebound id index b) id index := by
  intro other hother
  rw [rebound_eq_update, binding?_update_bind_of_ne g hother]

theorem keeps_rebound (g : Graph) (id : NodeId) (index : Nat) (b : Binding) :
    ∀ part ≠ .wiring, g.Keeps (g.rebound id index b) part := by
  intro part h
  cases part with
  | selection | view => rfl
  | places =>
    rw [rebound_eq_update]
    exact g.map_nodes_update id fun _ => rfl
  | wiring => exact absurd rfl h

theorem ids_withSelection (g : Graph) (selected : Option NodeId) :
    (g.withSelection selected).ids = g.ids := List.map_map

theorem keeps_withSelection (g : Graph) (selected : Option NodeId) :
    ∀ part ≠ .selection, g.Keeps (g.withSelection selected) part := by
  intro part h
  cases part with
  | view => rfl
  | wiring | places => exact List.map_map
  | selection => exact absurd rfl h

theorem keeps_view (g : Graph) (v : Viewport) :
    ∀ part ≠ .view, g.Keeps { g with viewport := v } part := by
  intro part h
  cases part with
  | selection | wiring | places => rfl
  | view => exact absurd rfl h

end Graph

namespace Pointer

/--
What the answer to an input says of a patch: how it was, how it is afterwards, and what was sent.
-/
def Reported (g : Graph) (input : PointerInput) (c : Change Gesture) : Prop :=
  match c.result with
  | .ignored | .wireStarted _ => c.graph = g ∧ c.events = []
  | .selected id =>
    id ∈ g.ids ∧ g.selected ≠ some id ∧ c.graph = g.withSelection (some id) ∧
      c.events = [.selectionChanged (some id)]
  | .deselected =>
    c.graph = g.withSelection none ∧
      c.events = if g.selected.isSome then [.selectionChanged none] else []
  | .movedNode id =>
    id ∈ g.ids ∧ ∃ e, input = .move e ∧ c.graph = g.moved id e.delta ∧
      c.events = [.updated id .position]
  | .panned =>
    ∃ d : Offset, ¬ (d.x == 0 && d.y == 0) ∧
      (input = .wheel d ∨ ∃ e, input = .move e ∧ d = ⟨-e.delta.x, -e.delta.y⟩) ∧
      c.graph = { g with
        viewport := ⟨⟨g.viewport.scroll.x + d.x, g.viewport.scroll.y + d.y⟩⟩ } ∧
      c.events = [.viewportChanged]
  | .wireCompleted w =>
    w.source ∈ g.ids ∧ (g.binding? w.target w.input).isSome ∧
      c.graph = g.rebound w.target w.input (.reference w.source) ∧
      c.graph.binding? w.target w.input = some (.reference w.source) ∧
      g.BoundAlikeBut c.graph w.target w.input ∧
      c.events = [.updated w.target (.input w.input)]
  | .wireDeleted w =>
    g.binding? w.target w.input = some (.reference w.source) ∧
      c.graph = g.rebound w.target w.input .unbound ∧
      c.graph.binding? w.target w.input = some .unbound ∧
      g.BoundAlikeBut c.graph w.target w.input ∧
      c.events = [.updated w.target (.input w.input)]

variable {g : Graph} {input : PointerInput}

/-- A wire ends in an input that reads from a node. -/
theorem wireAt?_eq_some_iff {hit : InputHit} {w : Wire} :
    wireAt? g hit = some w ↔ ∃ source,
      g.binding? hit.node hit.index = some (.reference source) ∧
        w = ⟨source, hit.node, hit.index⟩ := by
  change ((g.binding? hit.node hit.index).bind (·.source?)).map _ = some w ↔ _
  cases g.binding? hit.node hit.index with
  | none => simp
  | some b => cases b <;> simp [Binding.source?, eq_comm]

/-! ## The answers -/

theorem reported_noChange : Reported g input (noChange g .ignored) := ⟨rfl, rfl⟩

/-- A refused edit is no gesture and no change. -/
theorem reported_attempt {α : Type} {edit : Except GraphError (Change α)} {gesture : Gesture}
    (h : ∀ c, edit = .ok c → Reported g input ⟨gesture, c.graph, c.events⟩) :
    Reported g input (attempt g edit gesture) := by
  cases edit with
  | error err => exact reported_noChange
  | ok c => exact h c rfl

theorem reported_scrollBy {d : Offset} (hd : ¬ d.isZero = true)
    (hinput : input = .wheel d ∨ ∃ e, input = .move e ∧ d = -e.delta) :
    Reported g input ⟨.panned, (g.scrollBy d).graph, (g.scrollBy d).events⟩ := by
  have hscroll : g.scrollBy d =
      ⟨(), { g with viewport := ⟨g.viewport.scroll + d⟩ }, [.viewportChanged]⟩ := if_neg hd
  rw [hscroll]
  exact ⟨d, hd, hinput, rfl, rfl⟩

theorem reported_deselect (hs : g.Sound) :
    Reported g input ⟨.deselected, g.deselect.graph, g.deselect.events⟩ := by
  have hreselect := hs.reselect_eq none
  unfold Graph.deselect
  cases hselected : g.selected with
  | none =>
    -- nothing is marked, so that taking all marks away changes nothing
    have hsame : g.reselect none = g := by
      obtain ⟨nodes, selected, viewport, config, random⟩ := g
      obtain rfl : selected = none := hselected
      rfl
    exact ⟨hsame.symm.trans hreselect, by rw [hselected]; rfl⟩
  | some id => exact ⟨hreselect, by rw [hselected]; rfl⟩

/-! ## The inputs -/

theorem reported_drag (s : Pointer) (g : Graph) (e : PointerEvent) :
    Reported g (.move e) (s.drag g e).2 := by
  unfold drag
  split
  · rename_i id _
    refine reported_attempt fun c hc => ?_
    unfold Graph.moveNode Graph.editNode at hc
    split at hc
    · rename_i hid
      cases hc
      exact ⟨(g.contains_iff id).mp hid, e, rfl, rfl, rfl⟩
    · cases hc
  · exact reported_noChange
  · split
    · exact reported_noChange
    · rename_i hzero
      exact reported_scrollBy (by rwa [Offset.isZero_neg]) (.inr ⟨e, rfl, rfl⟩)
  · exact reported_noChange

theorem reported_move (s : Pointer) (g : Graph) (e : PointerEvent) :
    Reported g (.move e) (s.move g e).2 := by
  unfold move
  split
  · exact reported_noChange
  · dsimp only
    split
    · exact reported_noChange
    · split
      · exact ⟨rfl, rfl⟩
      · exact reported_drag _ g e
      · exact reported_drag _ g e
  · exact reported_drag s g e

theorem reported_clickNode (hs : g.Sound) (p : Point) (hit : Option InputHit) :
    Reported g input (clickNode g p hit) := by
  unfold clickNode
  split
  · rename_i id _
    split
    · exact reported_deselect hs
    · rename_i hother
      refine reported_attempt fun c hc => ?_
      unfold Graph.select at hc
      rw [if_neg hother] at hc
      split at hc
      · rename_i hid
        cases hc
        exact ⟨(g.contains_iff id).mp hid, hother, hs.reselect_eq (some id), rfl⟩
      · cases hc
  · split
    · exact reported_noChange
    · exact reported_deselect hs

theorem reported_click (hs : g.Sound) (p : Point) : Reported g input (click g p) := by
  unfold click
  dsimp only
  split
  · rename_i w hw
    refine reported_attempt fun c hc => ?_
    obtain ⟨hit, -, hwire⟩ := Option.bind_eq_some_iff.mp hw
    obtain ⟨source, hreads, rfl⟩ := wireAt?_eq_some_iff.mp hwire
    obtain ⟨-, before, hbefore, rfl⟩ := Graph.bind_eq_ok_iff.mp hc
    have hthere := Option.isSome_of_mem hbefore
    exact ⟨hreads, rfl, Graph.binding?_rebound hthere .unbound,
      g.boundAlikeBut_rebound hit.node hit.index .unbound, rfl⟩
  · exact reported_clickNode hs p _

theorem reported_dropWire (g : Graph) (source : NodeId) (p : Point) :
    Reported g input (dropWire g source p) := by
  unfold dropWire
  split
  · exact reported_noChange
  · rename_i hit _
    refine reported_attempt fun c hc => ?_
    obtain ⟨bound, hbind, rfl⟩ := ok_of_map_ok hc
    obtain ⟨hsource, before, hbefore, rfl⟩ := Graph.bind_eq_ok_iff.mp hbind
    have hthere := Option.isSome_of_mem hbefore
    exact ⟨hsource source rfl, hthere, rfl, Graph.binding?_rebound hthere _,
      g.boundAlikeBut_rebound hit.node hit.index _, rfl⟩

theorem reported_handle (hs : g.Sound) (s : Pointer) (input : PointerInput) :
    Reported g input (s.handle g input).2 := by
  cases input with
  | press e => exact reported_noChange
  | move e => exact reported_move s g e
  | release e =>
    simp only [handle, release]
    split
    · exact reported_click hs e.position
    · exact reported_dropWire g _ e.position
    · exact reported_noChange
  | wheel d =>
    simp only [handle, wheel]
    split
    · exact reported_noChange
    · rename_i hd
      exact reported_scrollBy hd (.inl rfl)

/-! ## One thing at a time -/

/-- What is reported leaves the same nodes, sends one notification at most, and is of one part. -/
theorem Reported.keeps {c : Change Gesture} (h : Reported g input c) :
    c.graph.ids = g.ids ∧ c.events.length ≤ 1 ∧
      ∃ part, ∀ other ≠ part, g.Keeps c.graph other := by
  obtain ⟨result, graph, events⟩ := c
  cases result with
  | ignored | wireStarted id =>
    obtain ⟨rfl, rfl⟩ := h
    exact ⟨rfl, Nat.zero_le 1, .view, graph.keeps_view graph.viewport⟩
  | selected id =>
    obtain ⟨-, -, rfl, rfl⟩ := h
    exact ⟨g.ids_withSelection _, Nat.le_refl 1, .selection, g.keeps_withSelection _⟩
  | deselected =>
    obtain ⟨rfl, rfl⟩ := h
    refine ⟨g.ids_withSelection _, ?_, .selection, g.keeps_withSelection _⟩
    dsimp only
    split <;> decide
  | movedNode id =>
    obtain ⟨-, e, -, rfl, rfl⟩ := h
    exact ⟨g.ids_moved id e.delta, Nat.le_refl 1, .places, g.keeps_moved id e.delta⟩
  | panned =>
    obtain ⟨d, -, -, rfl, rfl⟩ := h
    exact ⟨rfl, Nat.le_refl 1, .view, g.keeps_view _⟩
  | wireCompleted w =>
    obtain ⟨-, -, rfl, -, -, rfl⟩ := h
    exact ⟨g.ids_rebound _ _ _, Nat.le_refl 1, .wiring, g.keeps_rebound _ _ _⟩
  | wireDeleted w =>
    obtain ⟨-, rfl, -, -, rfl⟩ := h
    exact ⟨g.ids_rebound _ _ _, Nat.le_refl 1, .wiring, g.keeps_rebound _ _ _⟩

/--
Whatever a pointer is doing, and whatever has happened to the patch since it began, the gesture that
the next input comes to tells how the patch is afterwards and what was sent. No input changes which
nodes there are, sends more than one notification, or changes two of the selection, the wiring, the
places and the view.
-/
theorem gesture_reported (hg : g.Reachable) (s : Pointer) (input : PointerInput) :
    let c := (s.handle g input).2
    Reported g input c ∧ c.graph.ids = g.ids ∧ c.events.length ≤ 1 ∧
      ∃ part, ∀ other ≠ part, g.Keeps c.graph other := by
  intro c
  have hreported : Reported g input c := reported_handle hg.sound s input
  exact ⟨hreported, hreported.keeps⟩

/--
A wire is dropped on an input that is bound to a constant; had its source gone meanwhile, nothing
would have happened. In the same patch one movement takes a node with it, and the view against it.
-/
theorem gesture_reported_dropped :
    let battery := { Node.ofType NodeKind.battery.nodeType (.ofNat 1) with
      position := ⟨100, 100⟩ }
    let logger := { Node.ofType NodeKind.logger.nodeType (.ofNat 2) with position := ⟨300, 100⟩ }
    let s : Pointer := ⟨5, .draggingWire battery.id ⟨200, 125⟩⟩
    let drop : PointerInput := .release ⟨⟨295, 132⟩, .zero⟩
    let move : PointerInput := .move ⟨⟨203, 129⟩, ⟨3, 4⟩⟩
    let before : List Action := [.edit (.add battery), .edit (.add logger),
      .edit (.setLiteral logger.id 1 (.text "old"))]
    let g := ((Session.ofGraph (.blank {} (.ofSeed 7))).run before).graph
    let g' := ((Session.ofGraph (.blank {} (.ofSeed 7))).run
      (before ++ [.edit (.remove battery.id)])).graph
    let moved := (handle ⟨5, .draggingNode battery.id⟩ g move).2
    let panned := (handle ⟨5, .panning⟩ g move).2
    ((s.handle g drop).2.result = .wireCompleted ⟨battery.id, logger.id, 1⟩ ∧
        (s.handle g drop).2.graph = g.rebound logger.id 1 (.reference battery.id) ∧
        (s.handle g drop).2.graph.binding? logger.id 1 = some (.reference battery.id) ∧
        (s.handle g drop).2.graph.binding? logger.id 0 = some .unbound) ∧
      ((s.handle g' drop).2.result = .ignored ∧ (s.handle g' drop).2.graph = g') ∧
      moved.graph.places = [(battery.id, ⟨103, 104⟩), (logger.id, ⟨300, 100⟩)] ∧
      panned.graph.viewport = ⟨⟨-3, -4⟩⟩ := by
  intro battery logger s drop move before g g' moved panned
  have hg : g.Reachable := ⟨_, _, _, rfl⟩
  have hcompleted : (s.handle g drop).2.result = .wireCompleted ⟨battery.id, logger.id, 1⟩ := by
    decide +kernel
  have hignored : (s.handle g' drop).2.result = .ignored := by decide +kernel
  have hmoved : moved.result = .movedNode battery.id := by decide +kernel
  have hpanned : panned.result = .panned := by decide +kernel
  have hreported := (gesture_reported hg s drop).1
  have hreported' := (gesture_reported (g := g') ⟨_, _, _, rfl⟩ s drop).1
  have hreportedMove : Reported g move moved := (gesture_reported hg _ move).1
  have hreportedPan : Reported g move panned := (gesture_reported hg _ move).1
  unfold Reported at hreported hreported' hreportedMove hreportedPan
  rw [hcompleted] at hreported
  rw [hignored] at hreported'
  rw [hmoved] at hreportedMove
  rw [hpanned] at hreportedPan
  obtain ⟨-, -, hgraph, hbinding, hothers, -⟩ := hreported
  obtain ⟨-, e, he, hplaces, -⟩ := hreportedMove
  obtain ⟨d, -, hinput, hview, -⟩ := hreportedPan
  -- the movement is the one given, and no turn of the wheel
  obtain rfl := PointerInput.move.inj he
  obtain hwheel | ⟨e, he, rfl⟩ := hinput
  · change PointerInput.move _ = _ at hwheel
    cases hwheel
  obtain rfl := PointerInput.move.inj he
  refine ⟨⟨hcompleted, hgraph, hbinding, ?_⟩, ⟨hignored, hreported'.1⟩, ?_, ?_⟩
  · exact (hothers (logger.id, 0) (by decide +kernel)).trans (by decide +kernel)
  · exact (congrArg Graph.places hplaces).trans (by decide +kernel)
  · exact (congrArg Graph.viewport hview).trans (by decide +kernel)

end Pointer

end Patchbay
