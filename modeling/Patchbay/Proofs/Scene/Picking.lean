import Patchbay.Proofs.Graph.Hits

/-!
# What is drawn is what is hit

Hit tests look through the nodes from the top, while a picture is drawn from the bottom. Both
compute the same rectangles and anchors, so that a hit is the last thing drawn under the point
(`Graph.hits_eq_picked`).
-/

namespace Patchbay

/-- A point strictly between two verticals and strictly between two horizontals. -/
def Point.Inside (p : Point) (left right top bottom : Float32) : Prop :=
  left < p.x ∧ p.x < right ∧ top < p.y ∧ p.y < bottom

instance (p : Point) (left right top bottom : Float32) :
    Decidable (p.Inside left right top bottom) :=
  inferInstanceAs (Decidable (_ ∧ _ ∧ _ ∧ _))

namespace Scene

variable (s : Scene) (width height : Float32) (p : Point)

/-- The last node drawn over a point. -/
def nodePicked? : Option NodeId :=
  ((s.nodes.filter fun n =>
    p.Inside n.rect.min.x n.rect.max.x n.rect.min.y n.rect.max.y).getLast?).map (·.id)

/-- The last node with a point in the hotspot that starts at its output jack. -/
def outputPicked? : Option NodeId :=
  ((s.nodes.filter fun n =>
    p.Inside n.outputAnchor.x (n.outputAnchor.x + width)
      (n.outputAnchor.y - height / 2) (n.outputAnchor.y + height / 2)).getLast?).map (·.id)

/-- All input jacks with their places, in the order of the nodes and then of their inputs. -/
def jacks : List (InputHit × Point) :=
  s.nodes.flatMap fun n => n.inputs.zipIdx.map fun (jack, index) => (⟨n.id, index⟩, jack.anchor)

/-- The last input with a point in the hotspot that ends at its jack. -/
def inputPicked? : Option InputHit :=
  ((s.jacks.filter fun i =>
    p.Inside (i.2.x - width) i.2.x (i.2.y - height / 2) (i.2.y + height / 2)).getLast?).map (·.1)

end Scene

/-- To search from the end for what is drawn is to take the last that is drawn. -/
theorem map_find?_reverse {α β γ : Type} (xs : List α) (draw : α → β) (get : β → γ)
    {test : α → Bool} {under : β → Bool} (h : ∀ x, test x = under (draw x)) :
    (xs.reverse.find? test).map (fun x => get (draw x)) =
      (((xs.map draw).filter under).getLast?).map get := by
  have htest : test = under ∘ draw := funext h
  rw [← List.head?_filter, List.filter_reverse, List.head?_reverse, List.filter_map,
    List.getLast?_map, Option.map_map, htest]
  rfl

theorem Rect.contains_eq_inside (r : Rect) (p : Point) :
    r.contains p = decide (p.Inside r.min.x r.max.x r.min.y r.max.y) := by
  rw [Bool.eq_iff_iff, decide_eq_true_iff, Rect.contains_iff, Point.Inside]

theorem outputHotspot_contains (size : Offset) (jack p : Point) :
    (outputHotspot size jack).contains p = decide
      (p.Inside jack.x (jack.x + size.x) (jack.y - size.y / 2) (jack.y + size.y / 2)) :=
  (outputHotspot size jack).contains_eq_inside p

theorem inputHotspot_contains (size : Offset) (jack p : Point) :
    (inputHotspot size jack).contains p = decide
      (p.Inside (jack.x - size.x) jack.x (jack.y - size.y / 2) (jack.y + size.y / 2)) :=
  (inputHotspot size jack).contains_eq_inside p

namespace Graph

/-- An input with the place of its jack. -/
def jack (g : Graph) (i : Node × Nat) : InputHit × Point :=
  (⟨i.1.id, i.2⟩, g.viewport.toScreen (i.1.inputAnchor i.2))

theorem jacks_scene (g : Graph) : g.scene.jacks = g.inputJacks.map g.jack := by
  unfold Scene.jacks scene inputJacks
  rw [List.flatMap_map, List.map_flatMap]
  congr 1
  funext n
  apply List.ext_getElem
  · simp [picture]
  · intro index h h'
    simp [picture, jack]

/--
What a point hits is the last that is drawn under it: a node by its body, an output by the hotspot
to the right of its jack, and an input by the hotspot to the left of its jack, both of the width and
the height that the configuration gives.
-/
theorem hits_eq_picked (g : Graph) (p : Point) :
    let width := g.config.hotspotSize.width.toFloat32
    let height := g.config.hotspotSize.height.toFloat32
    g.nodeAt? p = g.scene.nodePicked? p ∧
      g.outputAt? p = g.scene.outputPicked? width height p ∧
      g.inputAt? p = g.scene.inputPicked? width height p := by
  intro width height
  have hsize : g.hotspotSize = ⟨width, height⟩ := rfl
  refine ⟨?_, ?_, ?_⟩
  · exact map_find?_reverse g.nodes g.picture (·.id) fun n => Rect.contains_eq_inside _ p
  · unfold outputAt?
    rw [hsize]
    exact map_find?_reverse g.nodes g.picture (·.id) fun n => outputHotspot_contains _ _ p
  · unfold inputAt?
    rw [hsize, Scene.inputPicked?, jacks_scene]
    exact map_find?_reverse g.inputJacks g.jack (·.1) fun i => inputHotspot_contains _ _ p

/--
Two nodes in a view that is scrolled, with hotspots wider and lower than by default. The body, the
output of the one and the second input of the other are hit, the hotspots near their far ends.
-/
theorem hits_eq_picked_wide :
    let battery := { Node.ofType NodeKind.battery.nodeType (.ofNat 1) with
      position := ⟨100, 100⟩ }
    let logger := { Node.ofType NodeKind.logger.nodeType (.ofNat 2) with position := ⟨300, 100⟩ }
    let g := ((Session.ofGraph (.blank { hotspotSize := ⟨30, 8⟩ } (.ofSeed 7))).run
      [.edit (.add battery), .edit (.add logger), .edit (.scrollBy ⟨10, 20⟩)]).graph
    g.nodeAt? ⟨120, 100⟩ = some battery.id ∧
      g.outputAt? ⟨155, 103⟩ = some battery.id ∧ g.outputAt? ⟨155, 105⟩ = none ∧
      g.inputAt? ⟨265, 110⟩ = some ⟨logger.id, 1⟩ ∧ g.inputAt? ⟨255, 110⟩ = none := by
  intro battery logger g
  obtain ⟨hbody, -, -⟩ := hits_eq_picked g ⟨120, 100⟩
  obtain ⟨-, houtput, -⟩ := hits_eq_picked g ⟨155, 103⟩
  obtain ⟨-, hbelow, -⟩ := hits_eq_picked g ⟨155, 105⟩
  obtain ⟨-, -, hinput⟩ := hits_eq_picked g ⟨265, 110⟩
  obtain ⟨-, -, hbeyond⟩ := hits_eq_picked g ⟨255, 110⟩
  refine ⟨hbody.trans ?_, houtput.trans ?_, hbelow.trans ?_, hinput.trans ?_, hbeyond.trans ?_⟩
  all_goals decide +kernel

end Graph

end Patchbay
