import Patchbay.Proofs.Graph.Nodes
import Patchbay.Session

/-!
# Clicks

A press and a release with a little movement between them are a click. As long as the pointer has
not travelled as far as its drag threshold, its movements and further presses count for nothing: the
wheel alone scrolls the view, and the release does what it would do without them, wherever the press
was (`Pointer.jitter_is_click`).
-/

namespace Patchbay

namespace PointerInput

/-- Whether an input is one of the wheel. -/
def isWheel : PointerInput → Bool
  | .wheel _ => true
  | _ => false

/-- How far an input turns the wheel; to turn it by nothing is not to turn it. -/
def turn? : PointerInput → Option Offset
  | .wheel d => if d.x == 0 && d.y == 0 then none else some d
  | _ => none

/-- How far a pointer has travelled after an input, given how far it had before. -/
def travel (travelled : Float32) : PointerInput → Float32
  | .move e => travelled + e.delta.x.abs + e.delta.y.abs
  | _ => travelled

/-- The turns of the wheel among some inputs, in order. -/
def turns (inputs : List PointerInput) : List Offset := inputs.filterMap turn?

/-- What an input comes to if the wheel is all that counts. -/
def wheelGesture (input : PointerInput) : Gesture :=
  if input.turn?.isSome then .panned else .ignored

theorem wheelGesture_eq (input : PointerInput) :
    input.wheelGesture = .ignored ∨ input.wheelGesture = .panned := by
  unfold wheelGesture
  split
  · exact .inr rfl
  · exact .inl rfl

theorem turns_cons (input : PointerInput) (inputs : List PointerInput) :
    turns (input :: inputs) = input.turn?.toList ++ turns inputs := by
  unfold turns
  cases h : input.turn? with
  | none => exact List.filterMap_cons_none h
  | some d => exact List.filterMap_cons_some h

theorem turns_filter_isWheel (inputs : List PointerInput) :
    turns (inputs.filter (·.isWheel)) = turns inputs := by
  rw [turns, List.filterMap_filter]
  congr 1
  funext input
  cases input <;> rfl

end PointerInput

namespace Graph

/-- The patch with the view scrolled by one offset after the other, each coordinate on its own. -/
def scrolled (g : Graph) (turns : List Offset) : Graph :=
  { g with viewport :=
      ⟨⟨turns.foldl (fun x d => x + d.x) g.viewport.scroll.x,
        turns.foldl (fun y d => y + d.y) g.viewport.scroll.y⟩⟩ }

/-- Where the nodes are, in order. -/
def places (g : Graph) : List (NodeId × Point) := g.nodes.map fun n => (n.id, n.position)

theorem places_reselect (g : Graph) (selected : Option NodeId) :
    (g.reselect selected).places = g.places := g.map_nodes_reselect selected fun _ _ => rfl

theorem scrolled_append (g : Graph) (turns later : List Offset) :
    g.scrolled (turns ++ later) = (g.scrolled turns).scrolled later := by
  unfold scrolled
  rw [List.foldl_append, List.foldl_append]

end Graph

namespace Gesture

/-- Whether a gesture is part of dragging a node or a wire. -/
def isDrag : Gesture → Bool
  | .movedNode _ | .wireStarted _ | .wireCompleted _ => true
  | _ => false

end Gesture

namespace Pointer

/-! ## What a click leaves alone -/

/-- A change of a patch that is no drag: the view and the nodes stay where they are. -/
structure Stays (g : Graph) (c : Change Gesture) : Prop where
  places : c.graph.places = g.places
  viewport : c.graph.viewport = g.viewport
  gesture : c.result.isDrag = false

variable {g : Graph}

theorem stays_noChange {gesture : Gesture} (h : gesture.isDrag = false) :
    Stays g (noChange g gesture) := ⟨rfl, rfl, h⟩

theorem stays_attempt {α : Type} {edit : Except GraphError (Change α)} {gesture : Gesture}
    (hgesture : gesture.isDrag = false)
    (hedit : ∀ c, edit = .ok c → c.graph.places = g.places ∧ c.graph.viewport = g.viewport) :
    Stays g (attempt g edit gesture) := by
  cases edit with
  | error err => exact stays_noChange rfl
  | ok c =>
    obtain ⟨hplaces, hviewport⟩ := hedit c rfl
    exact ⟨hplaces, hviewport, hgesture⟩

theorem stays_deselect (g : Graph) :
    Stays g ⟨.deselected, g.deselect.graph, g.deselect.events⟩ := by
  unfold Graph.deselect
  split
  · exact ⟨rfl, rfl, rfl⟩
  · exact ⟨g.places_reselect none, g.viewport_reselect none, rfl⟩

theorem stays_clickNode (g : Graph) (p : Point) (input : Option InputHit) :
    Stays g (clickNode g p input) := by
  unfold clickNode
  split
  · rename_i id _
    split
    · exact stays_deselect g
    · refine stays_attempt rfl fun c hc => ?_
      unfold Graph.select at hc
      split at hc
      · cases hc
        exact ⟨g.places_reselect (some id), g.viewport_reselect (some id)⟩
      · cases hc
  · split
    · exact stays_noChange rfl
    · exact stays_deselect g

theorem stays_click (g : Graph) (p : Point) : Stays g (click g p) := by
  unfold click
  dsimp only
  split
  · rename_i w _
    refine stays_attempt rfl fun c hc => ?_
    obtain ⟨-, before, -, rfl⟩ := Graph.bind_eq_ok_iff.mp hc
    exact ⟨g.map_nodes_update w.target fun _ => rfl, rfl⟩
  · exact stays_clickNode g p _

/-! ## Runs -/

/-- What a pointer makes of one input after the other; the answers are the gestures in order. -/
def handleAll (s : Pointer) (g : Graph) : List PointerInput → Pointer × Change (List Gesture)
  | [] => (s, ⟨[], g, []⟩)
  | input :: inputs =>
    let (s, c) := s.handle g input
    let (s, r) := s.handleAll c.graph inputs
    (s, ⟨c.result :: r.result, r.graph, c.events ++ r.events⟩)

theorem handleAll_cons (s : Pointer) (g : Graph) (input : PointerInput)
    (inputs : List PointerInput) :
    s.handleAll g (input :: inputs) =
      let c := s.handle g input
      let r := c.1.handleAll c.2.graph inputs
      (r.1, ⟨c.2.result :: r.2.result, r.2.graph, c.2.events ++ r.2.events⟩) := rfl

theorem handleAll_append (s : Pointer) (g : Graph) (inputs later : List PointerInput) :
    s.handleAll g (inputs ++ later) =
      let r := s.handleAll g inputs
      let r' := r.1.handleAll r.2.graph later
      (r'.1, ⟨r.2.result ++ r'.2.result, r'.2.graph, r.2.events ++ r'.2.events⟩) := by
  induction inputs generalizing s g with
  | nil => rfl
  | cons input inputs ih => simp only [List.cons_append, handleAll, ih, List.append_assoc]

/--
Inputs of a pressed pointer in the course of which it stays below a threshold: there is no release
among them, and what it has travelled is less after each movement.
-/
inductive Jitter (threshold : Float32) : Float32 → List PointerInput → Prop where
  | nil {travelled : Float32} : Jitter threshold travelled []
  | press {travelled : Float32} (e : PointerEvent) {inputs : List PointerInput}
      (h : Jitter threshold travelled inputs) : Jitter threshold travelled (.press e :: inputs)
  | move {travelled : Float32} (e : PointerEvent) {inputs : List PointerInput}
      (hbelow : (PointerInput.move e).travel travelled < threshold)
      (h : Jitter threshold ((PointerInput.move e).travel travelled) inputs) :
      Jitter threshold travelled (.move e :: inputs)
  | wheel {travelled : Float32} (d : Offset) {inputs : List PointerInput}
      (h : Jitter threshold travelled inputs) : Jitter threshold travelled (.wheel d :: inputs)

variable {threshold travelled : Float32} {inputs : List PointerInput}

/-- The turns of the wheel alone are no movement. -/
theorem Jitter.filter_isWheel (h : Jitter threshold travelled inputs) (travelled' : Float32) :
    Jitter threshold travelled' (inputs.filter (·.isWheel)) := by
  induction h with
  | nil => exact .nil
  | press e _ ih | move e _ _ ih => exact ih
  | wheel d _ ih => exact .wheel d ih

/-- What an input of the wheel comes to, whatever the pointer is doing. -/
theorem wheel_eq (g : Graph) (d : Offset) :
    wheel g d =
      ⟨(PointerInput.wheel d).wheelGesture, g.scrolled (PointerInput.wheel d).turn?.toList,
        (PointerInput.wheel d).turn?.toList.map fun _ => .viewportChanged⟩ := by
  have hturn : (PointerInput.wheel d).turn? = if d.isZero then none else some d := rfl
  unfold wheel Graph.scrollBy PointerInput.wheelGesture
  rw [hturn]
  split
  · rfl
  · rfl

/-- A pressed pointer that does not travel far stays pressed, and the wheel alone counts. -/
theorem Jitter.handle_pressed {input : PointerInput}
    (h : Jitter threshold travelled (input :: inputs)) (origin : Point) (target : PressTarget) :
    Jitter threshold (input.travel travelled) inputs ∧ ∀ g,
      handle ⟨threshold, .pressed origin target travelled⟩ g input =
        (⟨threshold, .pressed origin target (input.travel travelled)⟩,
          ⟨input.wheelGesture, g.scrolled input.turn?.toList,
            input.turn?.toList.map fun _ => .viewportChanged⟩) := by
  cases h with
  | press e h => exact ⟨h, fun g => rfl⟩
  | move e hbelow h => exact ⟨h, fun g => if_pos hbelow⟩
  | wheel d h =>
    refine ⟨h, fun g => ?_⟩
    change (_, Pointer.wheel g d) = _
    rw [wheel_eq]
    rfl

/-- What a pressed pointer that does not travel far makes of all inputs before its release. -/
theorem Jitter.handleAll_pressed (h : Jitter threshold travelled inputs) (g : Graph)
    (origin : Point) (target : PressTarget) :
    handleAll ⟨threshold, .pressed origin target travelled⟩ g inputs =
      (⟨threshold, .pressed origin target (inputs.foldl PointerInput.travel travelled)⟩,
        ⟨inputs.map (·.wheelGesture), g.scrolled (PointerInput.turns inputs),
          (PointerInput.turns inputs).map fun _ => .viewportChanged⟩) := by
  induction inputs generalizing g travelled with
  | nil => rfl
  | cons input inputs ih =>
    obtain ⟨hrest, hinput⟩ := h.handle_pressed origin target
    rw [handleAll, hinput g]
    dsimp only
    rw [ih hrest, PointerInput.turns_cons, Graph.scrolled_append, List.map_append, List.map_cons,
      List.foldl_cons]

/-- What a pointer makes of a press and some movement that stays below the threshold. -/
theorem Jitter.handleAll_press (h : Jitter threshold 0 inputs) (g : Graph) (p : PointerEvent) :
    ∃ travelled, handleAll ⟨threshold, .idle⟩ g (.press p :: inputs) =
      (⟨threshold, .pressed p.position (targetAt g p.position) travelled⟩,
        ⟨.ignored :: inputs.map (·.wheelGesture), g.scrolled (PointerInput.turns inputs),
          (PointerInput.turns inputs).map fun _ => .viewportChanged⟩) := by
  refine ⟨inputs.foldl PointerInput.travel 0, ?_⟩
  have hpress : handle ⟨threshold, .idle⟩ g (.press p) =
      (⟨threshold, .pressed p.position (targetAt g p.position) 0⟩, ⟨.ignored, g, []⟩) := rfl
  rw [handleAll, hpress]
  dsimp only
  rw [h.handleAll_pressed, List.nil_append]

/-- The release after it is a click in the view as it is then. -/
theorem Jitter.handleAll_click (h : Jitter threshold 0 inputs) (g : Graph) (p q : PointerEvent) :
    let c := click (g.scrolled (PointerInput.turns inputs)) q.position
    handleAll ⟨threshold, .idle⟩ g (.press p :: inputs ++ [.release q]) =
      (⟨threshold, .idle⟩,
        ⟨.ignored :: inputs.map (·.wheelGesture) ++ [c.result], c.graph,
          ((PointerInput.turns inputs).map fun _ => .viewportChanged) ++ c.events⟩) := by
  intro c
  obtain ⟨travelled, hpress⟩ := h.handleAll_press g p
  rw [handleAll_append, hpress]
  simp only [handleAll, handle, release, List.append_nil]
  rfl

/--
A press, some movement below the drag threshold and a release, on any patch and with the wheel and
further presses in between, come to what the press, the wheel and the release come to, wherever the
press is: the same patch, the same notifications, the same gesture on the release and the pointer as
it was. Until the release the pointer is pressed and the wheel scrolls, and that is all; the release
leaves the view and the places of the nodes as they are.
-/
theorem jitter_is_click {s : Pointer} (hidle : s.mode = .idle) {inputs : List PointerInput}
    (hjitter : Jitter s.dragThreshold 0 inputs) (g : Graph) (p p' q : PointerEvent) :
    let before := s.handleAll g (.press p :: inputs)
    let jittery := s.handleAll g (.press p :: inputs ++ [.release q])
    let steady := s.handleAll g (.press p' :: inputs.filter (·.isWheel) ++ [.release q])
    (jittery.1 = s ∧ steady.1 = s ∧ jittery.2.graph = steady.2.graph ∧
        jittery.2.events = steady.2.events ∧
        jittery.2.result.getLast? = steady.2.result.getLast?) ∧
      ((∃ travelled, before.1.mode = .pressed p.position (targetAt g p.position) travelled) ∧
        before.2.graph = g.scrolled (PointerInput.turns inputs) ∧
        before.2.events = (PointerInput.turns inputs).map (fun _ => .viewportChanged) ∧
        ∀ gesture ∈ before.2.result, gesture = .ignored ∨ gesture = .panned) ∧
      jittery.2.graph.places = g.places ∧
      jittery.2.graph.viewport = before.2.graph.viewport ∧
      ∀ gesture ∈ jittery.2.result, gesture.isDrag = false := by
  obtain ⟨threshold, mode⟩ := s
  obtain rfl : mode = .idle := hidle
  intro before jittery steady
  let scrolled := g.scrolled (PointerInput.turns inputs)
  obtain ⟨travelled, hpress⟩ := hjitter.handleAll_press g p
  have hbefore : before = _ := hpress
  have hjittery : jittery = _ := hjitter.handleAll_click g p q
  -- the run with the wheel alone is another case of the same, with the same turns
  have hsteady : steady = _ := (hjitter.filter_isWheel 0).handleAll_click g p' q
  rw [PointerInput.turns_filter_isWheel] at hsteady
  have hclick : Stays scrolled (click scrolled q.position) := stays_click scrolled q.position
  have hgestures : ∀ gesture ∈ before.2.result, gesture = .ignored ∨ gesture = .panned := by
    rw [hbefore]
    intro gesture hmem
    obtain rfl | hmem := List.mem_cons.mp hmem
    · exact .inl rfl
    · obtain ⟨input, -, rfl⟩ := List.mem_map.mp hmem
      exact input.wheelGesture_eq
  have hdrag : ∀ gesture ∈ jittery.2.result, gesture.isDrag = false := by
    have hresult : jittery.2.result = before.2.result ++ [(click scrolled q.position).result] := by
      rw [hjittery, hbefore]
    rw [hresult]
    intro gesture hmem
    obtain hmem | hmem := List.mem_append.mp hmem
    · obtain rfl | rfl := hgestures gesture hmem
      · rfl
      · rfl
    · rw [List.mem_singleton.mp hmem]
      exact hclick.gesture
  refine ⟨?_, ⟨⟨travelled, ?_⟩, ?_, ?_, hgestures⟩, ?_, ?_, hdrag⟩
  · rw [hjittery, hsteady]
    simp only [List.getLast?_concat, and_self]
  · rw [hbefore]
  · rw [hbefore]
  · rw [hbefore]
  · rw [hjittery]
    exact hclick.places
  · rw [hjittery, hbefore]
    exact hclick.viewport

/-- A click that trembles, while the wheel turns, on the node that is under it afterwards. -/
theorem jitter_is_click_trembling :
    let battery := { Node.ofType NodeKind.battery.nodeType (.ofNat 1) with
      size := ⟨100, 60⟩, position := ⟨0, 40⟩ }
    let g := (Graph.blank {} (.ofSeed 7)).withNode battery
    let inputs : List PointerInput :=
      [.move ⟨⟨52, 49⟩, ⟨2, -1⟩⟩, .press ⟨⟨52, 49⟩, .zero⟩, .wheel ⟨0, 30⟩,
        .move ⟨⟨53, 49⟩, ⟨1, 0⟩⟩]
    let jittery := (ofConfig {}).handleAll g
      (.press ⟨⟨300, 300⟩, .zero⟩ :: inputs ++ [.release ⟨⟨53, 49⟩, .zero⟩])
    let steady := (ofConfig {}).handleAll g
      [.press ⟨⟨50, 50⟩, .zero⟩, .wheel ⟨0, 30⟩, .release ⟨⟨53, 49⟩, .zero⟩]
    jittery.1 = ofConfig {} ∧ jittery.2.graph.selected = some battery.id ∧
      jittery.2.graph.viewport = ⟨⟨0, 30⟩⟩ ∧ jittery.2.graph.places = g.places ∧
      steady.2.result = [.ignored, .panned, .selected battery.id] ∧
      jittery.2.events = steady.2.events := by
  intro battery g inputs jittery steady
  have hjitter : Jitter (ofConfig {}).dragThreshold 0 inputs :=
    .move _ (by decide +kernel) (.press _ (.wheel _ (.move _ (by decide +kernel) .nil)))
  have hselected : jittery.2.graph.selected = some battery.id := by decide +kernel
  have hviewport : jittery.2.graph.viewport = ⟨⟨0, 30⟩⟩ := by decide +kernel
  have hresult : steady.2.result = [.ignored, .panned, .selected battery.id] := by
    decide +kernel
  have hclick := jitter_is_click rfl hjitter g ⟨⟨300, 300⟩, .zero⟩ ⟨⟨50, 50⟩, .zero⟩
    ⟨⟨53, 49⟩, .zero⟩
  obtain ⟨⟨hpointer, -, -, hevents, -⟩, -, hplaces, -⟩ := hclick
  exact ⟨hpointer, hselected, hviewport, hplaces, hresult, hevents⟩

end Pointer

end Patchbay
