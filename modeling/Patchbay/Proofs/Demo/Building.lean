import Patchbay.Demo
import Patchbay.Proofs.Graph.Integrity

/-!
# Building the demonstration

Under names that are not in use every edit that builds the demonstration succeeds, and the patch is
what it was with six nodes on top (`Demo.exists_build`). What counts of these nodes in a tick is
listed by `Demo.parts`: who each of them is, what kind it is, and what its inputs are bound to.
-/

namespace Patchbay

namespace Node

/-- A node without its looks, its output and its state. -/
def part (n : Node) : NodeId × NodeKind × List Binding := (n.id, n.kind, n.bindings)

/-- The node with those of the inputs bound that are its own. -/
def bindAll (bs : List (NodeId × Nat × Binding)) (n : Node) : Node :=
  bs.foldl (fun n x => if n.id = x.1 then n.bind x.2.1 x.2.2 else n) n

/-- What no binding changes of a node. -/
theorem map_bindAll {α : Type} {f : Node → α} (h : ∀ n index b, f (n.bind index b) = f n)
    (bs : List (NodeId × Nat × Binding)) (n : Node) : f (n.bindAll bs) = f n := by
  induction bs generalizing n with
  | nil => rfl
  | cons x bs ih =>
    rw [bindAll, List.foldl_cons]
    refine (ih _).trans ?_
    split
    · exact h n x.2.1 x.2.2
    · rfl

theorem id_bindAll (bs : List (NodeId × Nat × Binding)) (n : Node) : (n.bindAll bs).id = n.id :=
  map_bindAll id_bind bs n

end Node

namespace Demo

/-- The names of the nodes in order. -/
def ids (d : Demo) : List NodeId :=
  [d.battery, d.words, d.cycler, d.comparison, d.pulse, d.logger]

/-- The nodes in order, each with its kind and with what its inputs are bound to. -/
def parts (d : Demo) : List (NodeId × NodeKind × List Binding) :=
  [(d.battery, .battery, []),
    (d.words, .randomWordGenerator, [.reference d.battery, .literal (.text wordList)]),
    (d.cycler, .numberCycler, [.reference d.battery, .literal (.number 0), .literal (.number 1),
      .literal (.number 0.5)]),
    (d.comparison, .comparison, [.literal (.text ">"), .reference d.cycler,
      .literal (.number 0.5)]),
    (d.pulse, .pulsifier, [.reference d.comparison]),
    (d.logger, .logger, [.reference d.pulse, .reference d.words])]

/-- The wires among the nodes. -/
def wires (d : Demo) : List Wire :=
  [⟨d.battery, d.words, 0⟩, ⟨d.battery, d.cycler, 0⟩, ⟨d.cycler, d.comparison, 1⟩,
    ⟨d.comparison, d.pulse, 0⟩, ⟨d.pulse, d.logger, 0⟩, ⟨d.words, d.logger, 1⟩]

end Demo

namespace Graph

/-- The patch with more nodes on top. -/
def topped (g : Graph) (own : List Node) : Graph := { g with nodes := g.nodes ++ own }

/-- The patch with inputs bound one after the other. -/
def bindAll (g : Graph) (bs : List (NodeId × Nat × Binding)) : Graph :=
  bs.foldl (fun g x => g.update x.1 (·.bind x.2.1 x.2.2)) g

variable {g : Graph}

@[simp] theorem ids_topped (g : Graph) (own : List Node) :
    (g.topped own).ids = g.ids ++ own.map (·.id) := List.map_append

theorem update_topped {id : NodeId} (hnew : id ∉ g.ids) (own : List Node) (f : Node → Node) :
    (g.topped own).update id f = g.topped (own.map fun n => if n.id = id then f n else n) := by
  have hsame : g.nodes.map (fun n => if n.id = id then f n else n) = g.nodes := by
    refine (List.map_congr_left fun n hn => ?_).trans (List.map_id _)
    exact if_neg fun hid => hnew (mem_ids.mpr ⟨n, hn, hid⟩)
  simp only [update, topped, List.map_append, hsame]

theorem mem_of_node?_topped {own : List Node} {id : NodeId} (hnew : id ∉ g.ids) {n : Node}
    (hn : (g.topped own).node? id = some n) : n ∈ own := by
  rcases List.mem_append.mp (mem_of_node? hn) with hmem | hmem
  · exact absurd (mem_ids.mpr ⟨n, hmem, id_of_node? hn⟩) hnew
  · exact hmem

theorem output_topped {own : List Node} {id : NodeId} (hnew : id ∉ g.ids)
    (hplain : ∀ n ∈ own, n.output = .unset) : (g.topped own).output id = .unset := by
  rw [output_eq]
  cases hn : (g.topped own).node? id with
  | none => rfl
  | some n => exact hplain n (mem_of_node?_topped hnew hn)

/-! ## Edits one after the other -/

theorem editAll_append {edits more : List (Graph → Except GraphError (Change Unit))}
    {c c' : Change Unit} (h : g.editAll edits = .ok c) (h' : c.graph.editAll more = .ok c') :
    g.editAll (edits ++ more) = .ok ⟨(), c'.graph, c.events ++ c'.events⟩ := by
  induction edits generalizing g c with
  | nil =>
    cases h
    exact h'
  | cons edit edits ih =>
    rw [List.cons_append, editAll]
    rw [editAll] at h
    cases hedit : edit g with
    | error err =>
      rw [hedit] at h
      cases h
    | ok a =>
      rw [hedit] at h
      obtain ⟨b, hb, rfl⟩ := ok_of_map_ok h
      dsimp only at h' ⊢
      rw [ih hb h', List.append_assoc]
      rfl

theorem Sound.editAll {edits : List (Graph → Except GraphError (Change Unit))}
    (hsteps : ∀ edit ∈ edits, ∀ g c, edit g = .ok c → g.Step c.graph c.events [])
    (hs : g.Sound) {c : Change Unit} (h : g.editAll edits = .ok c) : c.graph.Sound := by
  induction edits generalizing g c with
  | nil =>
    cases h
    exact hs
  | cons edit edits ih =>
    rw [Graph.editAll] at h
    cases hedit : edit g with
    | error err =>
      rw [hedit] at h
      cases h
    | ok a =>
      rw [hedit] at h
      obtain ⟨b, hb, rfl⟩ := ok_of_map_ok h
      have ha := hs.step (hsteps edit List.mem_cons_self g a hedit)
      have hrest : b.graph.Sound := ih (fun e he => hsteps e (List.mem_cons_of_mem _ he)) ha hb
      exact hrest

/-- New nodes that read from nobody are added as they are. -/
theorem editAll_add (own : List Node) (hnodup : (g.ids ++ own.map (·.id)).Nodup)
    (hplain : ∀ n ∈ own, n.sources = [] ∧ n.selected = false) :
    ∃ events, g.editAll (own.map fun n g => (g.add n).map fun c => ⟨(), c.graph, c.events⟩) =
      .ok ⟨(), g.topped own, events⟩ := by
  induction own generalizing g with
  | nil => exact ⟨[], by simp [editAll, topped]⟩
  | cons n own ih =>
    have hnew : g.contains n.id = false := by
      rw [Bool.eq_false_iff, ne_eq, contains_iff]
      exact fun hmem => List.disjoint_of_nodup_append hnodup hmem List.mem_cons_self
    obtain ⟨hsources, hmark⟩ := hplain n List.mem_cons_self
    have hadmitted : g.admitted n = n := by
      rw [admitted, Node.keepReferences_eq_self (by simp [hsources]), ← hmark]
    have hadd : g.add n = .ok ⟨n.id, g.topped [n], [.added n.id]⟩ := by
      rw [add, hnew, if_neg Bool.false_ne_true, withNode, hadmitted, topped]
    obtain ⟨events, hrest⟩ := ih (g := g.topped [n]) (by simpa using hnodup)
      fun m hm => hplain m (List.mem_cons_of_mem _ hm)
    refine ⟨.added n.id :: events, ?_⟩
    rw [List.map_cons, editAll, hadd]
    change Except.map _ ((g.topped [n]).editAll _) = _
    rw [hrest]
    simp [Except.map, topped]

theorem isSome_binding?_iff {id : NodeId} {index : Nat} :
    (g.binding? id index).isSome ↔ ∃ n, g.node? id = some n ∧ index < n.inputs.length := by
  unfold binding?
  cases g.node? id <;> simp [Node.binding?]

/-- Inputs that are there, bound one after the other to nodes that are there. -/
theorem editAll_bind {bs : List (NodeId × Nat × Binding)}
    (h : ∀ x ∈ bs, (∀ source ∈ x.2.2.source?, source ∈ g.ids) ∧
      (g.binding? x.1 x.2.1).isSome) :
    ∃ events, g.editAll (bs.map fun (id, index, b) g =>
        (g.bind id index b).map fun c => ⟨(), c.graph, c.events⟩) =
      .ok ⟨(), g.bindAll bs, events⟩ := by
  induction bs generalizing g with
  | nil => exact ⟨[], rfl⟩
  | cons x bs ih =>
    obtain ⟨id, index, b⟩ := x
    obtain ⟨hsource, hsome⟩ := h _ List.mem_cons_self
    obtain ⟨before, hbefore⟩ := Option.isSome_iff_exists.mp hsome
    have hbind := bind_eq_ok_iff.mpr ⟨hsource, before, hbefore, rfl⟩
    -- the inputs that are still to be bound stay there
    obtain ⟨events, hrest⟩ := ih (g := g.update id (·.bind index b)) fun y hy => by
      obtain ⟨hsource', hsome'⟩ := h y (List.mem_cons_of_mem _ hy)
      refine ⟨fun source hs => ?_, ?_⟩
      · rw [g.ids_update id (·.bind index b) fun _ => rfl]
        exact hsource' source hs
      · obtain ⟨n, hn, hindex⟩ := isSome_binding?_iff.mp hsome'
        rw [isSome_binding?_iff, node?_update g id y.1 (·.bind index b) fun _ => rfl, hn]
        refine ⟨_, rfl, ?_⟩
        dsimp only
        split <;> simpa [Node.bind] using hindex
    refine ⟨.updated id (.input index) :: events, ?_⟩
    rw [List.map_cons, editAll]
    dsimp only at hbind ⊢
    rw [hbind]
    change Except.map _ ((g.update id (·.bind index b)).editAll _) = _
    rw [hrest]
    rfl

/-- New nodes are bound as if there were no others. -/
theorem bindAll_topped {bs : List (NodeId × Nat × Binding)} (hnew : ∀ x ∈ bs, x.1 ∉ g.ids)
    (own : List Node) : (g.topped own).bindAll bs = g.topped (own.map (·.bindAll bs)) := by
  induction bs generalizing own with
  | nil => simp [bindAll, Node.bindAll]
  | cons x bs ih =>
    rw [bindAll, List.foldl_cons, update_topped (hnew x List.mem_cons_self)]
    refine (ih (fun y hy => hnew y (List.mem_cons_of_mem _ hy)) _).trans ?_
    rw [List.map_map]
    rfl

theorem wires_topped (g : Graph) (own : List Node) :
    (g.topped own).wires = g.wires ++ own.flatMap Node.wiresIn := List.flatMap_append

end Graph

namespace Demo

open Patchbay.Graph

variable {d : Demo} {g : Graph}

/-- The nodes of the demonstration once their inputs are bound and the logger has its name. -/
def bound (d : Demo) (size : Offset) : List Node :=
  ((d.nodes size).map (·.bindAll d.bindings)).map fun n =>
    if n.id = d.logger then { n with name := "Word Logger" } else n

theorem map_part_bound (hd : d.ids.Nodup) (size : Offset) :
    (d.bound size).map Node.part = d.parts := by
  obtain ⟨battery, words, cycler, comparison, pulse, logger⟩ := d
  simp only [ids, List.nodup_cons, List.mem_cons, List.not_mem_nil, or_false, not_or] at hd
  obtain ⟨⟨h₁, h₂, h₃, h₄, h₅⟩, ⟨h₆, h₇, h₈, h₉⟩, ⟨h₁₀, h₁₁, h₁₂⟩, ⟨h₁₃, h₁₄⟩, h₁₅, -⟩ := hd
  simp [bound, nodes, bindings, parts, Node.part, Node.ofType, Node.bindAll, Node.bind,
    Node.bindings, NodeKind.nodeType, NodeKind.slots, Slot.withChoices, *, Ne.symm]

theorem plain_of_mem_bound {size : Offset} {n : Node} (hn : n ∈ d.bound size) :
    n.output = .unset ∧ n.state = {} := by
  simp only [bound, List.mem_map] at hn
  obtain ⟨-, ⟨m, hm, rfl⟩, rfl⟩ := hn
  have hplain : (m.output, m.state) = (.unset, {}) := by
    simp only [nodes, List.mem_cons, List.not_mem_nil, or_false] at hm
    rcases hm with rfl | rfl | rfl | rfl | rfl | rfl <;> rfl
  have hbound := Node.map_bindAll (f := fun n => (n.output, n.state)) (fun _ _ _ => rfl)
    d.bindings m
  generalize m.bindAll d.bindings = n at hbound ⊢
  rw [hplain, Prod.mk.injEq] at hbound
  split <;> exact hbound

theorem flatMap_wiresIn {own : List Node} (hparts : own.map Node.part = d.parts) :
    own.flatMap Node.wiresIn = d.wires := by
  have hwires : own.flatMap Node.wiresIn = (own.map Node.part).flatMap fun x =>
      x.2.2.zipIdx.filterMap fun y => y.1.source?.map fun source => ⟨source, x.1, y.2⟩ := by
    rw [List.flatMap_map]
    rfl
  rw [hwires, hparts]
  rfl

theorem ids_topped_nodes (d : Demo) (g : Graph) (size : Offset) :
    (g.topped (d.nodes size)).ids = g.ids ++ d.ids := ids_topped ..

/-- The inputs that get bound are there, and so are the nodes that they read from. -/
theorem editAll_bindings (hd : (g.ids ++ d.ids).Nodup) (size : Offset) :
    ∃ events, (g.topped (d.nodes size)).editAll (d.bindings.map fun (id, index, b) g =>
        (g.bind id index b).map fun c => ⟨(), c.graph, c.events⟩) =
      .ok ⟨(), g.topped ((d.nodes size).map (·.bindAll d.bindings)), events⟩ := by
  have hbindings : ∀ x ∈ d.bindings, x.1 ∈ d.ids ∧ (∀ source ∈ x.2.2.source?, source ∈ d.ids) ∧
      ∃ n ∈ d.nodes size, n.id = x.1 ∧ x.2.1 < n.inputs.length := by
    simp [bindings, nodes, ids, Binding.source?, Node.ofType, NodeKind.nodeType, NodeKind.slots]
  rw [← bindAll_topped fun x hx hmem => List.disjoint_of_nodup_append hd hmem (hbindings x hx).1]
  refine editAll_bind fun x hx => ?_
  obtain ⟨-, hsource, n, hn, hid, hindex⟩ := hbindings x hx
  refine ⟨fun source hs => ?_, isSome_binding?_iff.mpr ⟨n, ?_, hindex⟩⟩
  · rw [ids_topped_nodes]
    exact List.mem_append_right _ (hsource source hs)
  · rw [← ids_topped_nodes d g size] at hd
    exact (node?_eq_some_iff hd).mpr ⟨List.mem_append_right _ hn, hid⟩

theorem step_of_mem_edits {size : Offset} :
    ∀ edit ∈ d.edits size, ∀ g c, edit g = .ok c → g.Step c.graph c.events [] := by
  intro edit hedit g c h
  simp only [edits, List.mem_append, List.mem_map, List.mem_singleton] at hedit
  obtain (⟨n, -, rfl⟩ | ⟨⟨id, index, b⟩, -, rfl⟩) | rfl := hedit
  · obtain ⟨a, ha, rfl⟩ := ok_of_map_ok h
    exact step_of_add g.random ha
  · obtain ⟨a, ha, rfl⟩ := ok_of_map_ok h
    exact step_of_bind ha
  · exact step_of_rename h

/-- Under names that are not in use the edits succeed, and the nodes are those of the parts. -/
theorem exists_build (hs : g.Sound) (hd : d.ids.Nodup) (hnew : ∀ id ∈ d.ids, id ∉ g.ids) :
    ∃ c own, d.build g = .ok c ∧ c.graph = g.topped own ∧ c.graph.Sound ∧
      own.map Node.part = d.parts ∧
      ∀ n ∈ own, n.output = .unset ∧ n.state = {} := by
  have hall : (g.ids ++ d.ids).Nodup :=
    List.nodup_append'.mpr ⟨hs.nodup, hd, fun id hid hmem => hnew id hmem hid⟩
  let size := g.config.nodeSize.toOffset
  have hplain : ∀ n ∈ d.nodes size, n.sources = [] ∧ n.selected = false := by
    simp [nodes, Node.sources, Node.bindings, Node.ofType, NodeKind.nodeType, NodeKind.slots,
      Binding.source?]
  obtain ⟨added, hadd⟩ := editAll_add (d.nodes size) hall hplain
  obtain ⟨updated, hbind⟩ := editAll_bindings hall size
  have hrename : (g.topped ((d.nodes size).map (·.bindAll d.bindings))).editAll
      [fun g => g.rename d.logger "Word Logger"] =
        .ok ⟨(), g.topped (d.bound size), [.updated d.logger .name]⟩ := by
    have hlogger : d.logger ∈ (g.topped ((d.nodes size).map (·.bindAll d.bindings))).ids := by
      simp only [ids_topped, List.map_map, Function.comp_def, Node.id_bindAll]
      exact List.mem_append_right _ (by simp [nodes, Node.ofType])
    have hnamed := update_topped (hnew d.logger (by simp [ids]))
      ((d.nodes size).map (·.bindAll d.bindings)) ({ · with name := "Word Logger" })
    simp only [editAll, rename, editNode, if_pos ((contains_iff _ _).mpr hlogger), hnamed]
    rfl
  have hbuild : d.build g = .ok ⟨(), g.topped (d.bound size), _⟩ :=
    editAll_append (editAll_append hadd hbind) hrename
  exact ⟨_, d.bound size, hbuild, rfl, hs.editAll step_of_mem_edits hbuild, map_part_bound hd size,
    fun n => plain_of_mem_bound⟩

end Demo

end Patchbay
