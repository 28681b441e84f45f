import Patchbay.Proofs.Graph.Integrity

/-!
# The views of a patch agree

The wires, the picture, the view of an inspector and the value of an input are read off a patch in
four ways. Three of them leave out what they do not find. As every reference leads to a node, they
leave out nothing, and all say the same (`Graph.views_agree`).
-/

namespace Patchbay

/-- The sort of a binding that is shown. -/
def BindingView.kind : BindingView → BindingKind
  | literal _ => .literal
  | reference .. => .reference
  | unbound => .unbound

namespace Scene

/-- A wire is drawn from output jack to input jack, and lit by the output drawn. -/
def Draws (s : Scene) (w : Wire) (drawn : WirePicture) : Prop :=
  ∃ source target jack, s.node? w.source = some source ∧ s.node? w.target = some target ∧
    target.inputs[w.input]? = some jack ∧
    drawn = ⟨source.outputAnchor, jack.anchor, source.output.isTruthy⟩

/-- One wire and what is drawn at its other end feed an input that reads, and none any other. -/
def Fed (s : Scene) (jack : JackPicture) (into : List Wire) : Prop :=
  match jack.binding with
  | .reference => ∃ w source, into = [w] ∧ s.node? w.source = some source ∧
      jack.value = source.output
  | .literal | .unbound => into = []

end Scene

/-! ## Wires -/

theorem filter_zipIdx {α : Type} (xs : List α) (start index : Nat) :
    (xs.zipIdx start).filter (fun x => decide (x.2 = start + index)) =
      (xs[index]?.map fun x => (x, start + index)).toList := by
  induction xs generalizing start index with
  | nil => rfl
  | cons x xs ih =>
    rw [List.zipIdx_cons]
    cases index with
    | zero =>
      -- all entries after the first have greater indices
      have hlater : (xs.zipIdx (start + 1)).filter (fun x => decide (x.2 = start + 0)) = [] := by
        refine List.filter_eq_nil_iff.mpr fun y hy => ?_
        have hle : start + 1 ≤ y.2 := List.le_snd_of_mem_zipIdx hy
        rw [decide_eq_true_eq]
        omega
      rw [List.filter_cons_of_pos (by rw [Nat.add_zero, decide_eq_true_eq]), hlater]
      rfl
    | succ index =>
      have hnext : start + (index + 1) = start + 1 + index := by omega
      have hhead : ¬ start = start + (index + 1) := by omega
      rw [List.filter_cons_of_neg (by rwa [decide_eq_true_eq]), hnext, ih]
      rfl

/-- Where nothing is left out, what is found corresponds to what was looked for. -/
theorem forall₂_filterMap {α β : Type} {R : α → β → Prop} {find : α → Option β} {xs : List α}
    (h : ∀ x ∈ xs, ∃ y, find x = some y ∧ R x y) : List.Forall₂ R xs (xs.filterMap find) := by
  induction xs with
  | nil => exact .nil
  | cons x xs ih =>
    obtain ⟨⟨y, hfound, hrel⟩, hlater⟩ := List.forall_mem_cons.mp h
    rw [List.filterMap_cons_some hfound]
    exact .cons hrel (ih hlater)

namespace Node

theorem getElem?_bindings (n : Node) (index : Nat) : n.bindings[index]? = n.binding? index :=
  List.getElem?_map

theorem mem_wiresIn_iff {n : Node} {w : Wire} :
    w ∈ n.wiresIn ↔ n.id = w.target ∧ n.binding? w.input = some (.reference w.source) := by
  rw [wiresIn, List.mem_filterMap]
  constructor
  · rintro ⟨⟨b, index⟩, hmem, hwire⟩
    obtain ⟨source, hsource, rfl⟩ := Option.map_eq_some_iff.mp hwire
    rw [List.mem_zipIdx_iff_getElem?, getElem?_bindings] at hmem
    cases b with
    | reference s => exact ⟨rfl, Option.some.inj hsource ▸ hmem⟩
    | literal v | unbound => cases hsource
  · obtain ⟨source, target, index⟩ := w
    rintro ⟨rfl, hbinding⟩
    rw [← getElem?_bindings] at hbinding
    exact ⟨(.reference source, index), List.mem_zipIdx_iff_getElem?.mpr hbinding, rfl⟩

theorem filter_wiresIn (n : Node) (index : Nat) :
    n.wiresIn.filter (fun w => decide (w.input = index)) =
      (((n.binding? index).bind (·.source?)).map fun source =>
        (⟨source, n.id, index⟩ : Wire)).toList := by
  have hbefore : n.wiresIn.filter (fun w => decide (w.input = index)) =
      (n.bindings.zipIdx.filter (fun x => decide (x.2 = 0 + index))).filterMap fun x =>
        x.1.source?.map fun source => ⟨source, n.id, x.2⟩ := by
    rw [wiresIn, List.filter_filterMap, List.filterMap_filter]
    refine List.filterMap_congr fun x _ => ?_
    cases hsource : x.1.source? with
    | none => simp [hsource]
    | some source => by_cases hindex : x.2 = index <;> simp [hsource, hindex]
  rw [hbefore, filter_zipIdx, getElem?_bindings, Nat.zero_add]
  cases n.binding? index with
  | none => rfl
  | some b => cases b <;> rfl

end Node

namespace Graph

variable {g : Graph}

/-- The wires into an input. -/
def wiresInto (g : Graph) (id : NodeId) (index : Nat) : List Wire :=
  g.wires.filter fun w => w.target = id ∧ w.input = index

theorem Sound.node?_of_mem (hs : g.Sound) {n : Node} (hn : n ∈ g.nodes) :
    g.node? n.id = some n :=
  (node?_eq_some_iff hs.nodup).mpr ⟨hn, rfl⟩

/-- An input that reads has a source to read from. -/
theorem Sound.exists_source (hs : g.Sound) {n : Node} (hn : n ∈ g.nodes) {index : Nat} {i : Input}
    (hi : n.inputs[index]? = some i) {source : NodeId} (hreads : i.binding = .reference source) :
    ∃ m, g.node? source = some m := by
  have hmem : Binding.reference source ∈ n.bindings :=
    List.mem_map.mpr ⟨i, List.mem_of_getElem? hi, hreads⟩
  exact exists_node? (hs.closed n hn source (Node.mem_sources_iff.mpr hmem))

theorem wiresInto_eq (hs : g.Sound) {n : Node} (hn : n ∈ g.nodes) (index : Nat) :
    g.wiresInto n.id index =
      (((n.binding? index).bind (·.source?)).map fun source => ⟨source, n.id, index⟩).toList := by
  obtain ⟨before, after, hsplit⟩ := List.append_of_mem hn
  have hothers : ∀ m ∈ before ++ after, m.id ≠ n.id := by
    have hnodup : (g.nodes.map (·.id)).Nodup := hs.nodup
    rw [hsplit, List.map_append, List.map_cons, List.nodup_middle, ← List.map_append] at hnodup
    exact fun m hm heq => (List.nodup_cons.mp hnodup).1 (List.mem_map.mpr ⟨m, hm, heq⟩)
  have hnone : ∀ ms : List Node, (∀ m ∈ ms, m.id ≠ n.id) →
      (ms.flatMap Node.wiresIn).filter (fun w => w.target = n.id ∧ w.input = index) = [] := by
    intro ms hms
    refine List.filter_eq_nil_iff.mpr fun w hw => ?_
    obtain ⟨m, hm, hin⟩ := List.mem_flatMap.mp hw
    have htarget : w.target ≠ n.id := (Node.mem_wiresIn_iff.mp hin).1 ▸ hms m hm
    simp [htarget]
  have hself : n.wiresIn.filter (fun w => w.target = n.id ∧ w.input = index) =
      n.wiresIn.filter fun w => decide (w.input = index) := by
    refine List.filter_congr fun w hw => ?_
    simp [(Node.mem_wiresIn_iff.mp hw).1]
  rw [wiresInto, wires, hsplit, List.flatMap_append, List.flatMap_cons, List.filter_append,
    List.filter_append, hnone before fun m hm => hothers m (List.mem_append_left _ hm),
    hnone after fun m hm => hothers m (List.mem_append_right _ hm), hself, List.nil_append,
    List.append_nil, Node.filter_wiresIn]

/-! ## Pictures -/

/-- The picture of one input. -/
def jackPicture (g : Graph) (n : Node) (index : Nat) (i : Input) : JackPicture where
  label := i.slot.label
  anchor := g.viewport.toScreen (n.inputAnchor index)
  value := g.resolve i.binding
  binding := i.binding.kind

theorem inputs_picture (g : Graph) (n : Node) (index : Nat) :
    (g.picture n).inputs[index]? = n.inputs[index]?.map (g.jackPicture n index) := by
  simp only [picture, List.getElem?_map, List.getElem?_zipIdx, Option.map_map, Nat.zero_add]
  rfl

theorem node?_scene (g : Graph) (id : NodeId) :
    g.scene.node? id = (g.node? id).map g.picture :=
  List.find?_map

/-- The view of one input. -/
def inputView (g : Graph) (index : Nat) (i : Input) : InputView where
  index := index
  label := i.slot.label
  type := i.slot.type
  options := i.slot.options
  binding := .ofBinding g i.binding
  value := g.resolve i.binding

theorem inputs_ofNode (g : Graph) (n : Node) (index : Nat) :
    (NodeView.ofNode g n).inputs[index]? = n.inputs[index]?.map (g.inputView index) := by
  simp only [NodeView.ofNode, List.getElem?_map, List.getElem?_zipIdx, Option.map_map,
    Nat.zero_add]
  rfl

theorem kind_ofBinding (g : Graph) (b : Binding) : (BindingView.ofBinding g b).kind = b.kind := by
  cases b <;> rfl

/-- No wire of a sound patch is left out of its picture. -/
theorem draws_of_mem_wires (hs : g.Sound) {w : Wire} (hw : w ∈ g.wires) :
    ∃ drawn, g.wirePicture? w = some drawn ∧ g.scene.Draws w drawn := by
  obtain ⟨target, htarget, hw⟩ := List.mem_flatMap.mp hw
  obtain ⟨hid, hbinding⟩ := Node.mem_wiresIn_iff.mp hw
  obtain ⟨i, hi, hreads⟩ := Option.map_eq_some_iff.mp hbinding
  obtain ⟨source, hsource⟩ := hs.exists_source htarget hi hreads
  have hnode : g.node? w.target = some target := hid ▸ hs.node?_of_mem htarget
  have hdrawn : g.wirePicture? w = some ⟨(g.picture source).outputAnchor,
      (g.jackPicture target w.input i).anchor, (g.picture source).output.isTruthy⟩ := by
    rw [wirePicture?, hsource, hnode]
    rfl
  refine ⟨_, hdrawn, g.picture source, g.picture target, g.jackPicture target w.input i,
    ?_, ?_, ?_, rfl⟩
  · rw [node?_scene, hsource, Option.map_some]
  · rw [node?_scene, hnode, Option.map_some]
  · rw [inputs_picture, hi, Option.map_some]

/-- The wires are drawn in order. -/
theorem forall₂_wires_scene (hs : g.Sound) : List.Forall₂ g.scene.Draws g.wires g.scene.wires :=
  forall₂_filterMap fun _ hw => draws_of_mem_wires hs hw

/-- An input is fed by the wires into it. -/
theorem fed_of_mem (hs : g.Sound) {n : Node} (hn : n ∈ g.nodes) {index : Nat} {i : Input}
    (hi : n.inputs[index]? = some i) :
    g.scene.Fed (g.jackPicture n index i) (g.wiresInto n.id index) := by
  have hbinding : n.binding? index = some i.binding := by rw [Node.binding?, hi, Option.map_some]
  rw [wiresInto_eq hs hn, hbinding]
  unfold Scene.Fed
  cases hb : i.binding with
  | reference source =>
    obtain ⟨m, hm⟩ := hs.exists_source hn hi hb
    have hvalue : g.resolve i.binding = m.output := by
      rw [hb]
      change g.output source = _
      rw [output_eq, hm]
      rfl
    have hkind : (g.jackPicture n index i).binding = .reference := congrArg Binding.kind hb
    rw [hkind]
    refine ⟨_, g.picture m, rfl, ?_, hvalue⟩
    rw [node?_scene, hm, Option.map_some]
  | literal v | unbound =>
    have hkind : (g.jackPicture n index i).binding = _ := congrArg Binding.kind hb
    rw [hkind]
    rfl

/-! ## Views -/

theorem resolve_withSelection (g : Graph) (selected : Option NodeId) (b : Binding) :
    (g.withSelection selected).resolve b = g.resolve b := by
  cases b with
  | literal v | unbound => rfl
  | reference source =>
    change outputIn (g.nodes.map _) source = outputIn g.nodes source
    rw [outputIn, List.find?_map, Option.map_map]
    rfl

theorem ofBinding_withSelection (g : Graph) (selected : Option NodeId) (b : Binding) :
    BindingView.ofBinding (g.withSelection selected) b = .ofBinding g b := by
  cases b with
  | literal v | unbound => rfl
  | reference source =>
    have hname : ((g.withSelection selected).node? source).map (·.name) =
        (g.node? source).map (·.name) := by
      change ((g.nodes.map _).find? _).map _ = _
      rw [List.find?_map, Option.map_map]
      rfl
    rw [BindingView.ofBinding, BindingView.ofBinding, hname]

/-- Once a node is selected, a new inspector shows the view of that node. -/
theorem ofSelection_withSelection (hs : g.Sound) {n : Node} (hn : n ∈ g.nodes) :
    NodeView.ofSelection (g.withSelection (some n.id)) = some (NodeView.ofNode g n) := by
  have hfound : (g.withSelection (some n.id)).node? n.id = some { n with selected := true } := by
    change (g.nodes.map _).find? _ = _
    have hnode : g.nodes.find? (·.id == n.id) = some n := hs.node?_of_mem hn
    rw [List.find?_map]
    change (g.nodes.find? (·.id == n.id)).map _ = _
    rw [hnode]
    simp
  unfold NodeView.ofSelection
  change ((g.withSelection (some n.id)).node? n.id).map _ = _
  rw [hfound, Option.map_some, NodeView.ofNode, NodeView.ofNode]
  simp only [resolve_withSelection, ofBinding_withSelection]

theorem inputValue?_eq (hs : g.Sound) {n : Node} (hn : n ∈ g.nodes) (index : Nat) :
    g.inputValue? n.id index = n.inputs[index]?.map fun i => g.resolve i.binding := by
  rw [inputValue?, hs.node?_of_mem hn, Option.bind_some, Node.binding?, Option.map_map]
  rfl

/--
What is drawn of a patch, what an inspector shows and what the patch itself answers agree. Each wire
is drawn, in order, between the jacks drawn for its ends. An input drawn as a reference is the end
of exactly one wire and shows what is drawn as the output of its source; there are no other wires.
Every input has one label, one sort of binding and one value, and there is no value past the last.
-/
theorem views_agree (hg : g.Reachable) :
    List.Forall₂ g.scene.Draws g.wires g.scene.wires ∧
      (∀ drawn ∈ g.scene.nodes, ∀ (index : Nat) (jack : JackPicture),
        drawn.inputs[index]? = some jack →
          g.scene.Fed jack (g.wiresInto drawn.id index)) ∧
      ∀ n ∈ g.nodes, ∃ drawn, g.scene.node? n.id = some drawn ∧
        NodeView.ofSelection (g.withSelection (some n.id)) = some (NodeView.ofNode g n) ∧
        ∀ index : Nat,
          (drawn.inputs[index]?.map fun i => (i.label, i.binding, i.value)) =
            ((NodeView.ofNode g n).inputs[index]?.map fun i =>
              (i.label, i.binding.kind, i.value)) ∧
          drawn.inputs[index]?.map (·.value) = g.inputValue? n.id index ∧
          (g.inputValue? n.id index = none ↔ n.slots.length ≤ index) := by
  have hs := hg.sound
  refine ⟨forall₂_wires_scene hs, ?_, ?_⟩
  · intro drawn hdrawn index jack hjack
    obtain ⟨n, hn, rfl⟩ := List.mem_map.mp hdrawn
    rw [inputs_picture] at hjack
    obtain ⟨i, hi, rfl⟩ := Option.map_eq_some_iff.mp hjack
    exact fed_of_mem hs hn hi
  · intro n hn
    refine ⟨g.picture n, ?_, ofSelection_withSelection hs hn, ?_⟩
    · rw [node?_scene, hs.node?_of_mem hn, Option.map_some]
    · intro index
      rw [inputs_picture, inputs_ofNode, inputValue?_eq hs hn, Option.map_map, Option.map_map,
        Option.map_map]
      refine ⟨?_, rfl, ?_⟩
      · refine Option.map_congr fun i _ => ?_
        change (_, _, _) = (_, BindingView.kind (.ofBinding g i.binding), _)
        rw [kind_ofBinding]
        rfl
      · rw [Option.map_eq_none_iff, List.getElem?_eq_none_iff, Node.length_slots]

/--
An echoer and a logger that listens to itself are wired to one battery. The wire into the echoer
from a node that has been removed is gone.
-/
theorem views_agree_selfWired :
    let battery := Node.ofType NodeKind.battery.nodeType (.ofNat 1)
    let logger := Node.ofType NodeKind.logger.nodeType (.ofNat 2)
    let words := Node.ofType NodeKind.randomWordGenerator.nodeType (.ofNat 3)
    let echoer := Node.ofType NodeKind.echoer.nodeType (.ofNat 4)
    let g := ((Session.ofGraph (.blank {} (.ofSeed 7))).run
      ([battery, logger, words, echoer].map (.edit <| .add ·) ++
        [.edit (.connect battery.id logger.id 0), .edit (.connect logger.id logger.id 1),
          .edit (.connect battery.id echoer.id 0), .edit (.connect words.id echoer.id 1),
          .edit (.tick ⟨0⟩), .edit (.remove words.id)])).graph
    g.wires = [⟨battery.id, logger.id, 0⟩, ⟨logger.id, logger.id, 1⟩,
        ⟨battery.id, echoer.id, 0⟩] ∧
      g.scene.wires.map (·.powered) = [true, false, true] ∧
      List.Forall₂ g.scene.Draws g.wires g.scene.wires ∧
      ∀ drawn ∈ g.scene.nodes, ∀ (index : Nat) (jack : JackPicture),
        drawn.inputs[index]? = some jack →
          g.scene.Fed jack (g.wiresInto drawn.id index) := by
  intro battery logger words echoer g
  have hwires : g.wires = [⟨battery.id, logger.id, 0⟩, ⟨logger.id, logger.id, 1⟩,
      ⟨battery.id, echoer.id, 0⟩] := by decide +kernel
  have hpowered : g.scene.wires.map (·.powered) = [true, false, true] := by decide +kernel
  obtain ⟨hdrawn, hfed, -⟩ := views_agree (g := g) ⟨_, _, _, rfl⟩
  exact ⟨hwires, hpowered, hdrawn, hfed⟩

end Graph

end Patchbay
