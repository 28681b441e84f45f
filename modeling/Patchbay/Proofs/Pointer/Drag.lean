import Patchbay.Proofs.Pointer.Report

/-!
# Drags

The move that takes a pressed pointer as far as its drag threshold begins a drag, of what lay under
the press. From then on until the release a node follows the movements, beginning with that one, or
the view goes against them, or a wire follows that the release drops on the input under it. The
wheel scrolls the view all the while, and further presses count for nothing (`Pointer.drag_effect`).
-/

namespace Patchbay

namespace PointerInput

/-- Whether an input is a release. -/
def isRelease : PointerInput → Bool
  | .release _ => true
  | _ => false

/-- How far an input moves the pointer. -/
def delta? : PointerInput → Option Offset
  | .move e => some e.delta
  | _ => none

/-- The movements among some inputs, in order. -/
def deltas (inputs : List PointerInput) : List Offset := inputs.filterMap delta?

/--
Where an input takes the scroll of a view that follows the pointer: along with the wheel and
against the movements, each coordinate on its own.
-/
def pan (scroll : Offset) : PointerInput → Offset
  | .wheel d =>
    if d.x == 0 && d.y == 0 then scroll else ⟨scroll.x + d.x, scroll.y + d.y⟩
  | .move e =>
    if e.delta.x == 0 && e.delta.y == 0 then scroll
    else ⟨scroll.x - e.delta.x, scroll.y - e.delta.y⟩
  | _ => scroll

theorem deltas_cons (input : PointerInput) (inputs : List PointerInput) :
    deltas (input :: inputs) = input.delta?.toList ++ deltas inputs := by
  cases input <;> rfl

theorem turns_append (inputs later : List PointerInput) :
    turns (inputs ++ later) = turns inputs ++ turns later := List.filterMap_append

end PointerInput

namespace Graph

/-- The patch with one node moved by one offset after the other, each coordinate on its own. -/
def displaced (g : Graph) (id : NodeId) (ds : List Offset) : Graph :=
  { g with nodes := g.nodes.map fun n =>
      if n.id = id then
        { n with position :=
            ⟨ds.foldl (fun x d => x + d.x) n.position.x,
              ds.foldl (fun y d => y + d.y) n.position.y⟩ }
      else n }

theorem displaced_nil (g : Graph) (id : NodeId) : g.displaced id [] = g := by
  simp [displaced]

theorem displaced_append (g : Graph) (id : NodeId) (ds later : List Offset) :
    g.displaced id (ds ++ later) = (g.displaced id ds).displaced id later := by
  unfold displaced
  simp only [List.map_map, List.foldl_append]
  congr 1
  refine List.map_congr_left fun n _ => ?_
  by_cases hid : n.id = id
  · simp [hid]
  · simp [hid]

theorem ids_displaced (g : Graph) (id : NodeId) (ds : List Offset) :
    (g.displaced id ds).ids = g.ids := by
  unfold displaced ids
  rw [List.map_map]
  refine List.map_congr_left fun n _ => ?_
  rw [Function.comp_apply, apply_ite Node.id, ite_self]

end Graph

/-- The drag of what lay under a press; a wire ends at the pointer. -/
def PressTarget.drag (tip : Point) : PressTarget → PointerMode
  | .output id => .draggingWire id tip
  | .node id => .draggingNode id
  | .canvas => .panning

namespace Pointer

open PointerInput (turns deltas)

variable {g : Graph} {threshold : Float32} {input : PointerInput} {inputs : List PointerInput}

theorem dragThreshold_handle (s : Pointer) (g : Graph) (input : PointerInput) :
    (s.handle g input).1.dragThreshold = s.dragThreshold := by
  cases input with
  | press e => simp only [handle, press]; split <;> rfl
  | move e =>
    have hdrag (s : Pointer) : (s.drag g e).1.dragThreshold = s.dragThreshold := by
      unfold drag
      split
      · rfl
      · rfl
      · split <;> rfl
      · rfl
    simp only [handle, move]
    split
    · rfl
    · split
      · rfl
      · split
        · rfl
        · exact hdrag _
        · exact hdrag _
    · exact hdrag s
  | release e | wheel d => rfl

theorem dragThreshold_handleAll (s : Pointer) (g : Graph) (inputs : List PointerInput) :
    (s.handleAll g inputs).1.dragThreshold = s.dragThreshold := by
  induction inputs generalizing s g with
  | nil => rfl
  | cons input inputs ih =>
    rw [handleAll_cons]
    exact (ih _ _).trans (s.dragThreshold_handle g input)

/-! ## A node follows the pointer -/

theorem handle_draggingNode (threshold : Float32) {id : NodeId} (hid : id ∈ g.ids)
    (hinput : input.isRelease = false) :
    let r := handle ⟨threshold, .draggingNode id⟩ g input
    r.1 = ⟨threshold, .draggingNode id⟩ ∧
      r.2.graph = (g.scrolled input.turn?.toList).displaced id input.delta?.toList := by
  cases input with
  | press e => exact ⟨rfl, (g.displaced_nil id).symm⟩
  | move e =>
    have hmove : g.moveNode id e.delta = .ok ⟨(), g.moved id e.delta, [.updated id .position]⟩ :=
      if_pos ((g.contains_iff id).mpr hid)
    refine ⟨rfl, ?_⟩
    change (attempt g (g.moveNode id e.delta) _).graph = _
    rw [hmove]
    rfl
  | release e => cases hinput
  | wheel d =>
    refine ⟨rfl, ?_⟩
    change (wheel g d).graph = Graph.displaced _ id []
    rw [wheel_eq, Graph.displaced_nil]

theorem handleAll_draggingNode (threshold : Float32) {id : NodeId} (hid : id ∈ g.ids)
    (hinputs : ∀ input ∈ inputs, input.isRelease = false) :
    let r := handleAll ⟨threshold, .draggingNode id⟩ g inputs
    r.1 = ⟨threshold, .draggingNode id⟩ ∧
      r.2.graph = (g.scrolled (turns inputs)).displaced id (deltas inputs) := by
  induction inputs generalizing g with
  | nil => exact ⟨rfl, (g.displaced_nil id).symm⟩
  | cons input inputs ih =>
    obtain ⟨hinput, hrest⟩ := List.forall_mem_cons.mp hinputs
    obtain ⟨hpointer, hgraph⟩ := handle_draggingNode threshold hid hinput
    rw [handleAll_cons]
    dsimp only
    rw [hpointer, hgraph, PointerInput.turns_cons, PointerInput.deltas_cons,
      Graph.scrolled_append, Graph.displaced_append]
    -- the node is still there after the input, wherever it has gone
    refine ih (g := (g.scrolled input.turn?.toList).displaced id input.delta?.toList) ?_ hrest
    rwa [Graph.ids_displaced]

/-! ## The view follows the pointer -/

theorem handle_panning (threshold : Float32) (g : Graph) (hinput : input.isRelease = false) :
    let r := handle ⟨threshold, .panning⟩ g input
    r.1 = ⟨threshold, .panning⟩ ∧
      r.2.graph = { g with viewport := ⟨input.pan g.viewport.scroll⟩ } := by
  cases input with
  | press e => exact ⟨rfl, rfl⟩
  | move e =>
    change ((drag ⟨threshold, .panning⟩ g e).1 = _ ∧ (drag ⟨threshold, .panning⟩ g e).2.graph = _)
    have hisZero : (e.delta.x == 0 && e.delta.y == 0) = e.delta.isZero := rfl
    unfold drag PointerInput.pan
    dsimp only
    rw [hisZero]
    by_cases hzero : e.delta.isZero = true
    · rw [if_pos hzero, if_pos hzero]
      exact ⟨rfl, rfl⟩
    · have hscroll : g.scrollBy (-e.delta) =
          ⟨(), { g with viewport := ⟨g.viewport.scroll + -e.delta⟩ }, [.viewportChanged]⟩ :=
        if_neg (by rwa [Offset.isZero_neg])
      rw [if_neg hzero, if_neg hzero, hscroll, Offset.add_neg_eq]
      exact ⟨rfl, rfl⟩
  | release e => cases hinput
  | wheel d =>
    refine ⟨rfl, ?_⟩
    change (wheel g d).graph = _
    rw [wheel_eq, PointerInput.pan, PointerInput.turn?]
    split <;> rfl

theorem handleAll_panning (threshold : Float32) (g : Graph)
    (hinputs : ∀ input ∈ inputs, input.isRelease = false) :
    let r := handleAll ⟨threshold, .panning⟩ g inputs
    r.1 = ⟨threshold, .panning⟩ ∧
      r.2.graph = { g with viewport := ⟨inputs.foldl PointerInput.pan g.viewport.scroll⟩ } := by
  induction inputs generalizing g with
  | nil => exact ⟨rfl, rfl⟩
  | cons input inputs ih =>
    obtain ⟨hinput, hrest⟩ := List.forall_mem_cons.mp hinputs
    obtain ⟨hpointer, hgraph⟩ := handle_panning threshold g hinput
    rw [handleAll_cons]
    dsimp only
    rw [hpointer, hgraph]
    exact ih _ hrest

/-! ## A wire follows the pointer -/

theorem handle_draggingWire (threshold : Float32) (g : Graph) (source : NodeId) (tip : Point)
    (hinput : input.isRelease = false) :
    let r := handle ⟨threshold, .draggingWire source tip⟩ g input
    (∃ tip', r.1 = ⟨threshold, .draggingWire source tip'⟩) ∧
      r.2.graph = g.scrolled input.turn?.toList := by
  cases input with
  | press e => exact ⟨⟨tip, rfl⟩, rfl⟩
  | move e => exact ⟨⟨e.position, rfl⟩, rfl⟩
  | release e => cases hinput
  | wheel d =>
    refine ⟨⟨tip, rfl⟩, ?_⟩
    change (wheel g d).graph = _
    rw [wheel_eq]

theorem handleAll_draggingWire (threshold : Float32) (g : Graph) (source : NodeId) (tip : Point)
    (hinputs : ∀ input ∈ inputs, input.isRelease = false) :
    let r := handleAll ⟨threshold, .draggingWire source tip⟩ g inputs
    (∃ tip', r.1 = ⟨threshold, .draggingWire source tip'⟩) ∧
      r.2.graph = g.scrolled (turns inputs) := by
  induction inputs generalizing g tip with
  | nil => exact ⟨⟨tip, rfl⟩, rfl⟩
  | cons input inputs ih =>
    obtain ⟨hinput, hrest⟩ := List.forall_mem_cons.mp hinputs
    obtain ⟨⟨tip', hpointer⟩, hgraph⟩ :=
      handle_draggingWire threshold g source tip hinput
    rw [handleAll_cons]
    dsimp only
    rw [hpointer, hgraph, PointerInput.turns_cons, Graph.scrolled_append]
    exact ih _ tip' hrest

/-- A wire out of a node of the patch can be dropped on any input. -/
theorem dropWire_eq (hs : g.Sound) {source : NodeId} (hsource : source ∈ g.ids) {p : Point}
    {hit : InputHit} (hinput : g.inputAt? p = some hit) :
    (dropWire g source p).graph = g.rebound hit.node hit.index (.reference source) ∧
      (dropWire g source p).graph.binding? hit.node hit.index = some (.reference source) ∧
      (dropWire g source p).result = .wireCompleted ⟨source, hit.node, hit.index⟩ := by
  have hthere := Graph.isSome_binding?_of_inputAt? hs.nodup hinput
  obtain ⟨before, hbefore⟩ := Option.isSome_iff_exists.mp hthere
  have hbind : g.bind hit.node hit.index (.reference source) =
      .ok ⟨before, g.rebound hit.node hit.index (.reference source),
        [.updated hit.node (.input hit.index)]⟩ :=
    Graph.bind_eq_ok_iff.mpr ⟨fun _ h => Option.some.inj h ▸ hsource, before, hbefore, rfl⟩
  have hdrop : dropWire g source p =
      ⟨.wireCompleted ⟨source, hit.node, hit.index⟩,
        g.rebound hit.node hit.index (.reference source),
        [.updated hit.node (.input hit.index)]⟩ := by
    unfold dropWire
    rw [hinput]
    unfold Graph.connect
    dsimp only
    rw [hbind]
    rfl
  rw [hdrop]
  exact ⟨rfl, Graph.binding?_update_bind hthere _, rfl⟩

/-! ## From the press to the release -/

variable {travelled : Float32} {early late : List PointerInput} {e : PointerEvent}

/-- The move that crosses the threshold does what it would do if the drag had begun before it. -/
theorem handle_crossing (hcross : ¬ (PointerInput.move e).travel travelled < threshold)
    (g : Graph) (origin : Point) (target : PressTarget) :
    let r := handle ⟨threshold, .pressed origin target travelled⟩ g (.move e)
    let r' := handle ⟨threshold, target.drag e.position⟩ g (.move e)
    r.1 = r'.1 ∧ r.2.graph = r'.2.graph := by
  have hmove : handle ⟨threshold, .pressed origin target travelled⟩ g (.move e) =
      match target with
      | .output source =>
        (⟨threshold, .draggingWire source e.position⟩, noChange g (.wireStarted source))
      | .node id => drag ⟨threshold, .draggingNode id⟩ g e
      | .canvas => drag ⟨threshold, .panning⟩ g e := if_neg hcross
  rw [hmove]
  cases target with
  | output source | node id | canvas => exact ⟨rfl, rfl⟩

theorem handleAll_crossing (hearly : Jitter threshold 0 early)
    (hcross : ¬ (PointerInput.move e).travel (early.foldl PointerInput.travel 0) < threshold)
    (g : Graph) (p : PointerEvent) (late : List PointerInput) :
    let r := handleAll ⟨threshold, .idle⟩ g (.press p :: (early ++ .move e :: late))
    let r' := handleAll ⟨threshold, (targetAt g p.position).drag e.position⟩
      (g.scrolled (turns early)) (.move e :: late)
    r.1 = r'.1 ∧ r.2.graph = r'.2.graph := by
  have hpress : handle ⟨threshold, .idle⟩ g (.press p) =
      (⟨threshold, .pressed p.position (targetAt g p.position) 0⟩, ⟨.ignored, g, []⟩) := rfl
  -- until that move the wheel alone counts, and what was pressed stays what it was
  obtain ⟨hpointer, hgraph⟩ := handle_crossing hcross (g.scrolled (turns early)) p.position
    (targetAt g p.position)
  rw [handleAll_cons, hpress]
  dsimp only
  rw [handleAll_append, hearly.handleAll_pressed]
  dsimp only
  rw [handleAll_cons, handleAll_cons]
  dsimp only
  rw [hpointer, hgraph]
  exact ⟨rfl, rfl⟩

theorem handleAll_wireDrag (hearly : Jitter threshold 0 early)
    (hcross : ¬ (PointerInput.move e).travel (early.foldl PointerInput.travel 0) < threshold)
    (hlate : ∀ input ∈ late, input.isRelease = false) {p : PointerEvent} {id : NodeId}
    (htarget : targetAt g p.position = .output id) :
    let r := handleAll ⟨threshold, .idle⟩ g (.press p :: (early ++ .move e :: late))
    (∃ tip, r.1 = ⟨threshold, .draggingWire id tip⟩) ∧
      r.2.graph = g.scrolled (turns (early ++ .move e :: late)) := by
  obtain ⟨hpointer, hgraph⟩ := handleAll_crossing hearly hcross g p late
  have hmoves : ∀ input ∈ PointerInput.move e :: late, input.isRelease = false :=
    List.forall_mem_cons.mpr ⟨rfl, hlate⟩
  obtain ⟨⟨tip, hmode⟩, hrun⟩ := handleAll_draggingWire threshold
    (g.scrolled (turns early)) id e.position hmoves
  rw [htarget] at hpointer hgraph
  rw [PointerInput.turns_append, Graph.scrolled_append]
  exact ⟨⟨tip, hpointer.trans hmode⟩, hgraph.trans hrun⟩

theorem handleAll_nodeDrag (hearly : Jitter threshold 0 early)
    (hcross : ¬ (PointerInput.move e).travel (early.foldl PointerInput.travel 0) < threshold)
    (hlate : ∀ input ∈ late, input.isRelease = false) {p : PointerEvent} {id : NodeId}
    (hid : id ∈ g.ids) (htarget : targetAt g p.position = .node id) :
    let r := handleAll ⟨threshold, .idle⟩ g (.press p :: (early ++ .move e :: late))
    r.1 = ⟨threshold, .draggingNode id⟩ ∧
      r.2.graph = (g.scrolled (turns (early ++ .move e :: late))).displaced id
        (deltas (.move e :: late)) := by
  obtain ⟨hpointer, hgraph⟩ := handleAll_crossing hearly hcross g p late
  have hmoves : ∀ input ∈ PointerInput.move e :: late, input.isRelease = false :=
    List.forall_mem_cons.mpr ⟨rfl, hlate⟩
  obtain ⟨hmode, hrun⟩ := handleAll_draggingNode threshold
    (g := g.scrolled (turns early)) hid hmoves
  rw [htarget] at hpointer hgraph
  rw [PointerInput.turns_append, Graph.scrolled_append]
  exact ⟨hpointer.trans hmode, hgraph.trans hrun⟩

theorem handleAll_canvasDrag (hearly : Jitter threshold 0 early)
    (hcross : ¬ (PointerInput.move e).travel (early.foldl PointerInput.travel 0) < threshold)
    (hlate : ∀ input ∈ late, input.isRelease = false) {p : PointerEvent}
    (htarget : targetAt g p.position = .canvas) :
    let r := handleAll ⟨threshold, .idle⟩ g (.press p :: (early ++ .move e :: late))
    r.1 = ⟨threshold, .panning⟩ ∧
      r.2.graph = { g with viewport :=
        ⟨(PointerInput.move e :: late).foldl PointerInput.pan
          (g.scrolled (turns early)).viewport.scroll⟩ } := by
  obtain ⟨hpointer, hgraph⟩ := handleAll_crossing hearly hcross g p late
  have hmoves : ∀ input ∈ PointerInput.move e :: late, input.isRelease = false :=
    List.forall_mem_cons.mpr ⟨rfl, hlate⟩
  obtain ⟨hmode, hrun⟩ := handleAll_panning threshold
    (g.scrolled (turns early)) hmoves
  rw [htarget] at hpointer hgraph
  exact ⟨hpointer.trans hmode, hgraph.trans hrun⟩

/--
A press, some movement that goes as far as the drag threshold, and a release, with the wheel and
further presses in between, on any patch. An output under the press gets a wire: until the release
the wheel scrolls and that is all, and the release binds the input under it, if there is one, to the
node of the output, whatever it was bound to. The body of a node, if no output is there, moves by
the delta that crosses the threshold and those after it. Otherwise the view scrolls by the wheel
and, from the crossing on, against the movements. Nothing else changes.
-/
theorem drag_effect (hg : g.Reachable) {s : Pointer} (hidle : s.mode = .idle)
    (hearly : Jitter s.dragThreshold 0 early)
    (hcross : ¬ (PointerInput.move e).travel (early.foldl PointerInput.travel 0) < s.dragThreshold)
    (hlate : ∀ input ∈ late, input.isRelease = false) (p q : PointerEvent) :
    let before := s.handleAll g (.press p :: (early ++ .move e :: late))
    let after := before.1.handle before.2.graph (.release q)
    let scrolled := g.scrolled (turns (early ++ .move e :: late))
    after.1 = s ∧
      (∀ id, g.outputAt? p.position = some id →
        before.2.graph = scrolled ∧
        (scrolled.inputAt? q.position = none →
          after.2.graph = scrolled ∧ after.2.result = .ignored) ∧
        ∀ hit, scrolled.inputAt? q.position = some hit →
          after.2.graph = scrolled.rebound hit.node hit.index (.reference id) ∧
            after.2.graph.binding? hit.node hit.index = some (.reference id) ∧
            after.2.result = .wireCompleted ⟨id, hit.node, hit.index⟩) ∧
      (g.outputAt? p.position = none → ∀ id, g.nodeAt? p.position = some id →
        after.2.graph = scrolled.displaced id (deltas (.move e :: late)) ∧
          after.2.result = .ignored) ∧
      (g.outputAt? p.position = none → g.nodeAt? p.position = none →
        after.2.graph = { g with viewport :=
            ⟨(.move e :: late).foldl PointerInput.pan
              (g.scrolled (turns early)).viewport.scroll⟩ } ∧
          after.2.result = .ignored) := by
  obtain ⟨threshold, mode⟩ := s
  obtain rfl : mode = .idle := hidle
  intro before after scrolled
  have hafter : after.1 = ⟨threshold, .idle⟩ :=
    congrArg (Pointer.mk · .idle) (dragThreshold_handleAll _ g _)
  refine ⟨hafter, fun id houtput => ?_, fun houtput id hnode => ?_, fun houtput hnode => ?_⟩
  · obtain ⟨⟨tip, hpointer⟩, hgraph⟩ := handleAll_wireDrag hearly hcross hlate
      (show targetAt g p.position = .output id by rw [targetAt, houtput])
    have hrelease : after.2 = dropWire scrolled id q.position := by
      simp only [after, before, hpointer, hgraph]
      rfl
    -- the drop is on what the release finds in the view as it is scrolled by then
    have hsound : scrolled.Sound := hg.sound.congr rfl rfl
    refine ⟨hgraph, fun hnone => ?_, fun hit hinput => ?_⟩
    · have hdrop : dropWire scrolled id q.position = noChange scrolled .ignored := by
        rw [dropWire, hnone]
      rw [hrelease, hdrop]
      exact ⟨rfl, rfl⟩
    · have hid : id ∈ g.ids := Graph.mem_ids_of_outputAt? houtput
      rw [hrelease]
      exact dropWire_eq hsound hid hinput
  · obtain ⟨hpointer, hgraph⟩ := handleAll_nodeDrag hearly hcross hlate
      (Graph.mem_ids_of_nodeAt? hnode)
      (show targetAt g p.position = .node id by rw [targetAt, houtput, hnode])
    have hrelease : after.2 = noChange before.2.graph .ignored := by
      simp only [after, before, hpointer]
      rfl
    rw [hrelease]
    exact ⟨hgraph, rfl⟩
  · obtain ⟨hpointer, hgraph⟩ := handleAll_canvasDrag hearly hcross hlate
      (show targetAt g p.position = .canvas by rw [targetAt, houtput, hnode])
    have hrelease : after.2 = noChange before.2.graph .ignored := by
      simp only [after, before, hpointer]
      rfl
    rw [hrelease]
    exact ⟨hgraph, rfl⟩

/--
One movement, with the wheel and a press in its course, from each of the three. The first of its
moves is below the threshold and counts for none of them.
-/
theorem drag_effect_each_target :
    let battery := { Node.ofType NodeKind.battery.nodeType (.ofNat 1) with
      position := ⟨100, 100⟩ }
    let logger := { Node.ofType NodeKind.logger.nodeType (.ofNat 2) with position := ⟨300, 100⟩ }
    let s : Pointer := ⟨5, .idle⟩
    let onOutput : PointerEvent := ⟨⟨145, 120⟩, .zero⟩
    let onBody : PointerEvent := ⟨⟨110, 110⟩, .zero⟩
    let onCanvas : PointerEvent := ⟨⟨10, 10⟩, .zero⟩
    let early : List PointerInput := [.move ⟨⟨147, 120⟩, ⟨2, 0⟩⟩, .wheel ⟨0, 30⟩]
    let e : PointerEvent := ⟨⟨150, 120⟩, ⟨3, 0⟩⟩
    let late : List PointerInput := [.press onBody, .move ⟨⟨295, 102⟩, ⟨145, -18⟩⟩]
    let g := ((Session.ofGraph (.blank {} (.ofSeed 7))).run
      [.edit (.add battery), .edit (.add logger),
        .edit (.setLiteral logger.id 1 (.text "old"))]).graph
    let drop (p : PointerEvent) : Change Gesture :=
      let before := s.handleAll g (.press p :: (early ++ .move e :: late))
      (before.1.handle before.2.graph (.release ⟨⟨295, 102⟩, .zero⟩)).2
    ((drop onOutput).result = .wireCompleted ⟨battery.id, logger.id, 1⟩ ∧
        (drop onOutput).graph.binding? logger.id 1 = some (.reference battery.id) ∧
        (drop onOutput).graph.places = [(battery.id, ⟨100, 100⟩), (logger.id, ⟨300, 100⟩)] ∧
        (drop onOutput).graph.viewport = ⟨⟨0, 30⟩⟩) ∧
      ((drop onBody).graph.places = [(battery.id, ⟨248, 82⟩), (logger.id, ⟨300, 100⟩)] ∧
        (drop onBody).graph.viewport = ⟨⟨0, 30⟩⟩) ∧
      (drop onCanvas).graph.places = [(battery.id, ⟨100, 100⟩), (logger.id, ⟨300, 100⟩)] ∧
        (drop onCanvas).graph.viewport = ⟨⟨-148, 48⟩⟩ := by
  intro battery logger s onOutput onBody onCanvas early e late g drop
  let q : PointerEvent := ⟨⟨295, 102⟩, .zero⟩
  have hearly : Jitter s.dragThreshold 0 early :=
    .move _ (by decide +kernel) (.wheel _ .nil)
  have hcross : ¬ (PointerInput.move e).travel (early.foldl PointerInput.travel 0) <
      s.dragThreshold := by decide +kernel
  have hlate : ∀ input ∈ late, input.isRelease = false := by decide +kernel
  have hg : g.Reachable := ⟨_, _, _, rfl⟩
  have hs : s.mode = .idle := rfl
  obtain ⟨-, hwire, -, -⟩ := drag_effect hg hs hearly hcross hlate onOutput q
  obtain ⟨-, -, hnode, -⟩ := drag_effect hg hs hearly hcross hlate onBody q
  obtain ⟨-, -, -, hcanvas⟩ := drag_effect hg hs hearly hcross hlate onCanvas q
  refine ⟨?_, ?_, ?_⟩
  · -- the drop is on the second input of the logger, which the wheel has brought under the point
    obtain ⟨-, -, hdrop⟩ := hwire battery.id (by decide +kernel)
    obtain ⟨hgraph, hbinding, hresult⟩ := hdrop ⟨logger.id, 1⟩ (by decide +kernel)
    refine ⟨hresult, hbinding, ?_, ?_⟩
    · exact (congrArg Graph.places hgraph).trans (by decide +kernel)
    · exact (congrArg Graph.viewport hgraph).trans (by decide +kernel)
  · obtain ⟨hgraph, -⟩ := hnode (by decide +kernel) battery.id (by decide +kernel)
    constructor
    · exact (congrArg Graph.places hgraph).trans (by decide +kernel)
    · exact (congrArg Graph.viewport hgraph).trans (by decide +kernel)
  · obtain ⟨hgraph, -⟩ := hcanvas (by decide +kernel) (by decide +kernel)
    constructor
    · exact (congrArg Graph.places hgraph).trans (by decide +kernel)
    · exact (congrArg Graph.viewport hgraph).trans (by decide +kernel)

end Pointer

end Patchbay
