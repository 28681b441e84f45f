import Patchbay.Proofs.Graph.TickOrder
import Patchbay.Proofs.Value.Canonical

/-!
# What an inspector shows

Views are compared with their values in canonical form. What is shown of the selected node depends
on the node and on the names and outputs of the nodes it reads from. A step without a notification
that concerns an inspector leaves all of this as it was (`Graph.Step.view_eq_of_quiet`): it adds or
moves a node, scrolls, or evaluates all nodes to the same values.
-/

namespace Patchbay

/-! ## Views up to the form of their values -/

namespace BindingView

def canonical : BindingView → BindingView
  | literal v => literal v.canonical
  | b => b

/-- Whether a constant is shown that is no number. -/
def isNaN : BindingView → Bool
  | literal v => v.isNaN
  | _ => false

theorem isNaN_canonical (b : BindingView) : b.canonical.isNaN = b.isNaN := by
  cases b with
  | literal v => exact v.isNaN_canonical
  | reference source name | unbound => rfl

theorem equal_iff {a b : BindingView} :
    a.equal b = true ↔ a.canonical = b.canonical ∧ a.isNaN = false := by
  cases a with
  | literal v => cases b <;> simp [equal, canonical, isNaN, Value.equal_iff]
  | reference source name | unbound => cases b <;> simp [equal, canonical, isNaN]

end BindingView

namespace InputView

def canonical (i : InputView) : InputView :=
  { i with
    options := i.options.map (List.map Value.canonical)
    binding := i.binding.canonical
    value := i.value.canonical }

/-- Whether a value is shown that is no number. -/
def showsNaN (i : InputView) : Bool :=
  i.options.any (·.any Value.isNaN) || i.binding.isNaN || i.value.isNaN

theorem showsNaN_canonical (i : InputView) : i.canonical.showsNaN = i.showsNaN := by
  simp [showsNaN, canonical, Option.any_map, Function.comp_def,
    BindingView.isNaN_canonical, Value.isNaN_canonical]

theorem equal_iff {a b : InputView} :
    a.equal b = true ↔ a.canonical = b.canonical ∧ a.showsNaN = false := by
  unfold equal canonical showsNaN
  -- options are compared only where both inputs have them
  cases a.options with
  | none =>
    cases b.options with
    | none =>
      simp [BindingView.equal_iff, Value.equal_iff]
      tauto
    | some ws => simp
  | some vs =>
    cases b.options with
    | none => simp
    | some ws =>
      simp [Value.equalAll_iff, BindingView.equal_iff, Value.equal_iff]
      tauto

theorem equalAll_iff {as bs : List InputView} :
    equalAll as bs = true ↔ as.map canonical = bs.map canonical ∧ as.any showsNaN = false := by
  induction as generalizing bs with
  | nil => cases bs <;> simp [equalAll]
  | cons a as ih =>
    cases bs with
    | nil => simp [equalAll]
    | cons b bs =>
      rw [equalAll, Bool.and_eq_true, equal_iff, ih, List.map_cons, List.map_cons,
        List.cons.injEq, List.any_cons, Bool.or_eq_false_iff]
      exact and_and_and_comm

end InputView

namespace NodeView

/-- The view with its values in canonical form. -/
def canonical (v : NodeView) : NodeView :=
  { v with output := v.output.canonical, inputs := v.inputs.map InputView.canonical }

/-- Whether a value is shown that is no number. -/
def showsNaN (v : NodeView) : Bool :=
  v.output.isNaN || v.inputs.any InputView.showsNaN

theorem showsNaN_canonical (v : NodeView) : v.canonical.showsNaN = v.showsNaN := by
  simp [showsNaN, canonical, Function.comp_def, Value.isNaN_canonical,
    InputView.showsNaN_canonical]

theorem equal_iff {a b : NodeView} :
    a.equal b = true ↔ a.canonical = b.canonical ∧ a.showsNaN = false := by
  simp only [equal, Bool.and_eq_true, beq_iff_eq, Value.equal_iff, InputView.equalAll_iff,
    canonical, NodeView.mk.injEq, showsNaN, Bool.or_eq_false_iff]
  tauto

end NodeView

/-- Views look the same if they are, and show no value that is no number. -/
theorem Inspector.sameView_iff {a b : Option NodeView} :
    sameView a b = true ↔
      a.map NodeView.canonical = b.map NodeView.canonical ∧ a.any NodeView.showsNaN = false := by
  cases a with
  | none => cases b <;> simp [sameView]
  | some a =>
    cases b with
    | none => simp [sameView]
    | some b => simpa [sameView] using NodeView.equal_iff

theorem NodeView.showsNaN_of_canonical {a b : Option NodeView}
    (h : a.map canonical = b.map canonical) : a.any showsNaN = b.any showsNaN := by
  have hany := congrArg (Option.any showsNaN) h
  simpa [Option.any_map, Function.comp_def, showsNaN_canonical] using hany

theorem Inspector.canonical_of_sameView {a b : Option NodeView} (h : sameView a b = true) :
    a.map NodeView.canonical = b.map NodeView.canonical :=
  (sameView_iff.mp h).1

/--
Whether an inspector shows what it would show if it made its view anew, values compared in canonical
form.
-/
def Inspector.Shows (i : Inspector) (g : Graph) : Prop :=
  i.view.map NodeView.canonical = (NodeView.ofSelection g).map NodeView.canonical

/-! ## What the view depends on -/

/-- What of a node an inspector can show, wherever it is shown. -/
def Node.face (n : Node) : NodeId × NodeKind × String × String × List Input × Value :=
  (n.id, n.kind, n.name, n.description, n.inputs, n.output.canonical)

namespace Graph

variable {g g' : Graph}

theorem name_of_face {id : NodeId}
    (h : (g'.node? id).map Node.face = (g.node? id).map Node.face) :
    (g'.node? id).map (·.name) = (g.node? id).map (·.name) := by
  have hname := congrArg (Option.map (·.2.2.1)) h
  rwa [Option.map_map, Option.map_map] at hname

theorem canonical_output_of_face {id : NodeId}
    (h : (g'.node? id).map Node.face = (g.node? id).map Node.face) :
    (g'.output id).canonical = (g.output id).canonical := by
  rw [output_eq, output_eq]
  cases hn : g.node? id with
  | none =>
    rw [hn, Option.map_none, Option.map_eq_none_iff] at h
    rw [h]
  | some n =>
    rw [hn, Option.map_some, Option.map_eq_some_iff] at h
    obtain ⟨n', hn', hface⟩ := h
    rw [hn', Option.map_some, Option.map_some]
    exact congrArg (·.2.2.2.2.2) hface

theorem inputView_of_face {b : Binding}
    (h : ∀ source ∈ b.source?, (g'.node? source).map Node.face = (g.node? source).map Node.face) :
    (BindingView.ofBinding g' b).canonical = (BindingView.ofBinding g b).canonical ∧
      (g'.resolve b).canonical = (g.resolve b).canonical := by
  cases b with
  | literal v => exact ⟨rfl, rfl⟩
  | unbound => exact ⟨rfl, rfl⟩
  | reference source =>
    have hsource := h source rfl
    refine ⟨?_, canonical_output_of_face hsource⟩
    simp only [BindingView.ofBinding, BindingView.canonical, name_of_face hsource]

/-- The selected node looks the same in a patch where every node is found as it was. -/
theorem view_eq_of_face (hs : g.Sound) (hselected : g'.selected = g.selected)
    (hface : ∀ id ∈ g.ids, (g'.node? id).map Node.face = (g.node? id).map Node.face) :
    (NodeView.ofSelection g').map NodeView.canonical =
      (NodeView.ofSelection g).map NodeView.canonical := by
  unfold NodeView.ofSelection
  rw [hselected]
  cases hsel : g.selected with
  | none => rfl
  | some id =>
    obtain ⟨n, hn⟩ := exists_node? (hs.selected_mem id hsel)
    have hid := hface id (hs.selected_mem id hsel)
    rw [hn, Option.map_some, Option.map_eq_some_iff] at hid
    obtain ⟨n', hn', hsame⟩ := hid
    simp only [Node.face, Prod.mk.injEq] at hsame
    obtain ⟨hid, hkind, hname, hdescription, hinputs, houtput⟩ := hsame
    simp only [Option.bind_some, hn, hn', Option.map_some, Option.some.injEq]
    unfold NodeView.ofNode NodeView.canonical
    simp only [hid, hkind, hname, hdescription, hinputs, houtput, NodeView.mk.injEq, true_and,
      List.map_map]
    apply List.map_congr_left
    intro i hi
    -- a source is in the patch, and so is found as it was
    have hsource : ∀ source ∈ i.1.binding.source?,
        (g'.node? source).map Node.face = (g.node? source).map Node.face := by
      intro source hsource
      have hmem : i.1.binding ∈ n.bindings :=
        List.mem_map_of_mem (List.fst_mem_of_mem_zipIdx hi)
      exact hface source (hs.closed n (mem_of_node? hn) source
        (List.mem_filterMap.mpr ⟨_, hmem, hsource⟩))
    have hlook := inputView_of_face hsource
    simp only [Function.comp, InputView.canonical, hlook.1, hlook.2]

theorem ofSelection_eq_none_iff (hs : g.Sound) :
    NodeView.ofSelection g = none ↔ g.selected = none := by
  unfold NodeView.ofSelection
  cases hsel : g.selected with
  | none => simp
  | some id =>
    have hfound := exists_node? (hs.selected_mem id hsel)
    simpa [Option.ne_none_iff_exists'] using hfound

/-! ## Steps that do not concern inspectors -/

theorem face_tick_of_quiet (hs : g.Sound) (now : Instant)
    (hquiet : (g.tick now).events.any Inspector.concerns = false) {id : NodeId}
    (hid : id ∈ g.ids) :
    ((g.tick now).graph.node? id).map Node.face = (g.node? id).map Node.face := by
  obtain ⟨n, hn⟩ := exists_node? hid
  obtain ⟨draws, e, he, hafter, hevent⟩ := exists_node?_tick hs (mem_of_node? hn) now
  rw [id_of_node? hn] at hafter hevent
  -- an output of another value would have been announced
  have hsame : e.output.equal n.output = true := by
    by_contra hother
    have hmem := hevent (Bool.eq_false_iff.mpr hother)
    rw [List.any_eq_false] at hquiet
    exact hquiet _ hmem rfl
  rw [hn, hafter, Option.map_some, Option.map_some]
  unfold Node.face Node.after
  rw [Value.canonical_of_equal hsame]

theorem Step.face_of_quiet {events : List Event} {log : List LogLine}
    (hstep : g.Step g' events log) (hs : g.Sound)
    (hquiet : events.any Inspector.concerns = false) :
    g'.selected = g.selected ∧
      ∀ id ∈ g.ids, (g'.node? id).map Node.face = (g.node? id).map Node.face := by
  cases hstep with
  | still | draw => exact ⟨rfl, fun _ _ => rfl⟩
  | add random n hnew =>
    refine ⟨rfl, fun id hid => ?_⟩
    have hfound := node?_withNode { g with random := random } n id hid
    rw [hfound]
    rfl
  | place id hid f =>
    refine ⟨rfl, fun other _ => ?_⟩
    rw [node?_update g id other (fun n => { n with position := f n.position }) fun _ => rfl,
      Option.map_map]
    congr 1
    funext n
    simp only [Function.comp]
    split <;> rfl
  | scroll d hd => exact ⟨rfl, fun _ _ => rfl⟩
  | tick now => exact ⟨rfl, fun _ hid => face_tick_of_quiet hs now hquiet hid⟩
  -- every other step tells inspectors
  | remove id hid => simp [removalEvents, Inspector.concerns] at hquiet
  | bind n index b hn hindex hsource => simp [Inspector.concerns] at hquiet
  | rename id hid name => simp [Inspector.concerns] at hquiet
  | describe id hid description => simp [Inspector.concerns] at hquiet
  | reselect selected hother hmem => simp [Inspector.concerns] at hquiet

/-- A step without a notification that concerns an inspector leaves the view as it was. -/
theorem Step.view_eq_of_quiet {events : List Event} {log : List LogLine}
    (hstep : g.Step g' events log) (hs : g.Sound)
    (hquiet : events.any Inspector.concerns = false) :
    (NodeView.ofSelection g').map NodeView.canonical =
      (NodeView.ofSelection g).map NodeView.canonical := by
  have hface := hstep.face_of_quiet hs hquiet
  exact view_eq_of_face hs hface.1 hface.2

end Graph

end Patchbay
