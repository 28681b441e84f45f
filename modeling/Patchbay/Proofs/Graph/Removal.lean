import Patchbay.Proofs.Graph.Integrity

/-!
# Nodes that are removed and put back

A removal takes a node out as it is, with its bindings, its output and what it remembers, and leaves
the other nodes as they were but for the inputs that read from it. What was taken out can be put
back. It keeps its own references, also those to itself, and comes last in the order; the references
of the others and the selection are lost (`Graph.remove_add`).
-/

namespace Patchbay

/-- The node with those inputs unbound that read from another. -/
def Node.detached (n : Node) (source : NodeId) : Node :=
  { n with inputs := n.inputs.map fun i =>
      if i.binding = .reference source then { i with binding := .unbound } else i }

namespace Node

theorem refersTo_iff {b : Binding} {id : NodeId} : b.refersTo id = true ↔ b = .reference id := by
  cases b with
  | reference source => simp [Binding.refersTo, Binding.source?]
  | literal v | unbound => simp [Binding.refersTo, Binding.source?]

theorem keepReferences_eq_detached (n : Node) (id : NodeId) :
    n.keepReferences (· != id) = n.detached id := by
  have hinputs : n.inputs.map (fun i =>
        if i.binding.source?.all (· != id) then i else { i with binding := .unbound }) =
      n.inputs.map fun i =>
        if i.binding = .reference id then { i with binding := .unbound } else i := by
    refine List.map_congr_left fun i _ => ?_
    rw [all_ne_source?]
    by_cases hreads : i.binding = .reference id
    · rw [if_pos hreads, refersTo_iff.mpr hreads]
      rfl
    · rw [if_neg hreads, Bool.eq_false_iff.mpr fun h => hreads (refersTo_iff.mp h)]
      rfl
  rw [keepReferences, hinputs, detached]

/-- The inputs that read from a node are the ends of the wires that come from it. -/
theorem map_indicesReading (n : Node) (source : NodeId) :
    (n.indicesReading source).map (fun index => Event.updated n.id (.input index)) =
      (n.wiresIn.filter fun w => w.source = source).map fun w =>
        .updated w.target (.input w.input) := by
  have hwires : n.wiresIn = n.inputs.zipIdx.filterMap fun x =>
      x.1.binding.source?.map fun source => ⟨source, n.id, x.2⟩ := by
    rw [wiresIn, bindings, List.zipIdx_map, List.filterMap_map]
    rfl
  rw [hwires, indicesReading]
  -- input by input: one is in both lists or in neither
  generalize n.inputs.zipIdx = inputs
  induction inputs with
  | nil => rfl
  | cons x inputs ih =>
    obtain ⟨i, index⟩ := x
    obtain ⟨slot, b⟩ := i
    cases b with
    | reference s =>
      by_cases hs : s = source
      · subst hs
        simpa [Binding.refersTo, Binding.source?] using ih
      · simpa [Binding.refersTo, Binding.source?, hs] using ih
    | literal v | unbound => simpa [Binding.refersTo, Binding.source?] using ih

end Node

namespace Graph

variable {g : Graph} {n : Node}

/-- The wires from a node to others. -/
def wiresFrom (g : Graph) (id : NodeId) : List Wire :=
  g.wires.filter fun w => w.source = id ∧ w.target ≠ id

/-- What is told of a removal besides the selection and the node are the wires that it cuts. -/
theorem map_wiresFrom (g : Graph) (id : NodeId) :
    (g.nodes.filter (·.id ≠ id)).flatMap (fun n =>
        (n.indicesReading id).map fun index => Event.updated n.id (.input index)) =
      (g.wiresFrom id).map fun w => .updated w.target (.input w.input) := by
  unfold wiresFrom wires
  induction g.nodes with
  | nil => rfl
  | cons n nodes ih =>
    have htargets : ∀ w ∈ n.wiresIn, w.target = n.id := by
      intro w hw
      obtain ⟨x, -, hx⟩ := List.mem_filterMap.mp hw
      obtain ⟨source, -, rfl⟩ := Option.map_eq_some_iff.mp hx
      rfl
    rw [List.flatMap_cons, List.filter_append, List.map_append]
    by_cases hid : n.id = id
    · -- the wires of the node to itself go with it
      have hnone : n.wiresIn.filter (fun w => w.source = id ∧ w.target ≠ id) = [] := by
        refine List.filter_eq_nil_iff.mpr fun w hw => ?_
        rw [htargets w hw, decide_eq_true_eq]
        exact fun h => h.2 hid
      rw [List.filter_cons_of_neg (by simpa using hid), ih, hnone]
      rfl
    · have hall : n.wiresIn.filter (fun w => w.source = id ∧ w.target ≠ id) =
          n.wiresIn.filter fun w => w.source = id := by
        refine List.filter_congr fun w hw => ?_
        rw [htargets w hw, decide_eq_decide]
        exact and_iff_left hid
      rw [List.filter_cons_of_pos (by simpa using hid), List.flatMap_cons, ih, hall,
        Node.map_indicesReading]

/-- A node of a patch is admitted again as it was, but for its mark. -/
theorem Sound.admitted_without (hs : g.Sound) (hn : n ∈ g.nodes) :
    (g.without n.id).admitted n = { n with selected := false } := by
  have hkept : n.keepReferences (fun source =>
      source == n.id || (g.without n.id).contains source) = n := by
    refine Node.keepReferences_eq_self fun source hsource => ?_
    rw [Bool.or_eq_true, beq_iff_eq, contains_iff, ids_without, List.mem_filter, decide_eq_true_eq]
    -- it reads from itself, or from another node, which is still there
    by_cases hself : source = n.id
    · exact .inl hself
    · exact .inr ⟨hs.closed n hn source hsource, hself⟩
  rw [admitted, hkept]

theorem without_eq (g : Graph) (id : NodeId) :
    g.without id =
      { g with
        nodes := (g.nodes.filter (·.id ≠ id)).map (·.detached id)
        selected := if g.selected = some id then none else g.selected } := by
  have hnodes : (g.nodes.filter (·.id ≠ id)).map (·.keepReferences (· != id)) =
      (g.nodes.filter (·.id ≠ id)).map (·.detached id) :=
    List.map_congr_left fun n _ => n.keepReferences_eq_detached id
  rw [without, hnodes]

theorem add_without (hs : g.Sound) (hn : n ∈ g.nodes) :
    (g.without n.id).add n =
      .ok ⟨n.id, { g.without n.id with
        nodes := (g.without n.id).nodes ++ [{ n with selected := false }] }, [.added n.id]⟩ := by
  have hgone : (g.without n.id).contains n.id = false := by
    rw [Bool.eq_false_iff, ne_eq, contains_iff, ids_without, List.mem_filter, decide_eq_true_eq]
    exact fun h => h.2 rfl
  rw [add, hgone, withNode, hs.admitted_without hn]
  rfl

/--
A node of a patch is given back as it was when it is removed. The others stay in their order, with
exactly those of their inputs unbound that read from it, and it is no longer selected. To add it then
succeeds: it comes last, not marked, with all of its own bindings. What is sent are a change of
selection if it was selected, the removal, each wire cut in order, and the addition.
-/
theorem remove_add (hg : g.Reachable) (hn : n ∈ g.nodes) :
    let others := (g.nodes.filter (·.id ≠ n.id)).map (·.detached n.id)
    let selected := if g.selected = some n.id then none else g.selected
    let removal := g.remove n.id
    removal.result = some n ∧
      removal.graph = { g with nodes := others, selected := selected } ∧
      ∃ addition, removal.graph.add n = .ok addition ∧ addition.result = n.id ∧
        addition.graph =
          { g with nodes := others ++ [{ n with selected := false }], selected := selected } ∧
        removal.events ++ addition.events =
          (if g.selected = some n.id then [.selectionChanged none] else []) ++
            .removed n.id :: (g.wiresFrom n.id).map (fun w => .updated w.target (.input w.input)) ++
            [.added n.id] := by
  intro others selected removal
  have hs := hg.sound
  have hremoval : removal = ⟨some n, g.without n.id, g.removalEvents n.id⟩ := by
    have hfound : g.node? n.id = some n := (node?_eq_some_iff hs.nodup).mpr ⟨hn, rfl⟩
    simp only [removal, remove, hfound]
  rw [hremoval]
  refine ⟨rfl, g.without_eq n.id, _, add_without hs hn, rfl, ?_, ?_⟩
  · rw [without_eq]
  · rw [removalEvents, map_wiresFrom]

/--
An echoer that reads from itself and is read twice by a comparison is selected, removed and put
back. It still reads from itself, and the comparison reads from nothing any more.
-/
theorem remove_add_selfWired :
    let echoer := ((Node.ofType NodeKind.echoer.nodeType (.ofNat 1)).bind 0
      (.literal (.bool true))).bind 1 (.reference (.ofNat 1))
    let comparison := ((Node.ofType NodeKind.comparison.nodeType (.ofNat 2)).bind 1
      (.reference echoer.id)).bind 2 (.reference echoer.id)
    let g := ((Session.ofGraph (blank {} (.ofSeed 7))).run
      [.edit (.add echoer), .edit (.add comparison), .edit (.select echoer.id)]).graph
    let marked := { echoer with selected := true }
    let removal := g.remove echoer.id
    g.Reachable ∧ marked ∈ g.nodes ∧ removal.result = some marked ∧
      ∃ addition, removal.graph.add marked = .ok addition ∧
        addition.graph.nodes =
          [Node.ofType NodeKind.comparison.nodeType comparison.id, echoer] ∧
        removal.events ++ addition.events =
          [.selectionChanged none, .removed echoer.id, .updated comparison.id (.input 1),
            .updated comparison.id (.input 2), .added echoer.id] := by
  intro echoer comparison g marked removal
  have hg : g.Reachable := ⟨_, _, _, rfl⟩
  have hmarked : marked ∈ g.nodes := by decide +kernel
  obtain ⟨hresult, -, addition, hadd, -, hgraph, hevents⟩ := remove_add hg hmarked
  refine ⟨hg, hmarked, hresult, addition, hadd, ?_, hevents.trans (by decide +kernel)⟩
  rw [hgraph]
  decide +kernel

end Graph

end Patchbay
