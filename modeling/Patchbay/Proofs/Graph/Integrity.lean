import Patchbay.Proofs.Graph.Transition

/-!
# Integrity of a patch

A patch that a session comes to hold, by edits, pointers and inspectors in any order and whether
they are refused or not, is sound (`Graph.sound_run`): its nodes have distinct identities, no input
refers to an absent node, and the selected node is there and is the only one that is marked. Nodes
may be added in any state, for instance as they were removed, marked and with references to nodes
that have gone since.
-/

namespace Patchbay

namespace Graph

/-- What every patch in use satisfies. -/
structure Sound (g : Graph) : Prop where
  /-- No two nodes have the same identity. -/
  nodup : g.ids.Nodup
  /-- A reference leads to a node of the patch. -/
  closed : ∀ n ∈ g.nodes, ∀ source ∈ n.sources, source ∈ g.ids
  /-- The selected node is in the patch. -/
  selected_mem : ∀ id ∈ g.selected, id ∈ g.ids
  /-- A node is marked when it is the selected one. -/
  marked_iff : ∀ n ∈ g.nodes, n.selected = true ↔ g.selected = some n.id

theorem sound_blank (config : Config) (random : Random) : (blank config random).Sound where
  nodup := List.nodup_nil
  closed _ hn := nomatch hn
  selected_mem _ hid := nomatch hid
  marked_iff _ hn := nomatch hn

/-- The patch with another selection, and with every mark as it says. -/
def withSelection (g : Graph) (selected : Option NodeId) : Graph :=
  { g with
    nodes := g.nodes.map fun n => { n with selected := decide (selected = some n.id) }
    selected := selected }

namespace Sound

variable {g : Graph}

/-! ## Steps -/

-- the view and the source of draws are no part of it
theorem congr {g' : Graph} (h : g.Sound) (hnodes : g'.nodes = g.nodes)
    (hselected : g'.selected = g.selected) : g'.Sound := by
  have hids : g'.ids = g.ids := by rw [ids, ids, hnodes]
  refine ⟨?_, ?_, ?_, ?_⟩
  · rw [hids]; exact h.nodup
  · rw [hids, hnodes]; exact h.closed
  · rw [hids, hselected]; exact h.selected_mem
  · rw [hnodes, hselected]; exact h.marked_iff

theorem withNode (h : g.Sound) {n : Node} (hnew : n.id ∉ g.ids) : (g.withNode n).Sound := by
  refine ⟨?_, ?_, ?_, ?_⟩
  · rw [ids_withNode]
    rw [← List.concat_eq_append]
    exact h.nodup.concat hnew
  · intro m hm source hs
    rw [ids_withNode, List.mem_append, List.mem_singleton]
    rcases List.mem_append.mp hm with hm | hm
    · exact .inl (h.closed m hm source hs)
    · obtain rfl := List.mem_singleton.mp hm
      -- what is left of the references of the new node passed the test of `admitted`
      have hkeep := (Node.mem_sources_keepReferences hs).2
      rw [Bool.or_eq_true, beq_iff_eq, contains_iff] at hkeep
      exact hkeep.symm
  · intro id hid
    rw [ids_withNode]
    exact List.mem_append_left _ (h.selected_mem id hid)
  · intro m hm
    rcases List.mem_append.mp hm with hm | hm
    · exact h.marked_iff m hm
    · obtain rfl := List.mem_singleton.mp hm
      constructor
      · exact fun hmark => nomatch hmark
      · exact fun hsel => absurd (h.selected_mem _ hsel) hnew

theorem without (h : g.Sound) (id : NodeId) : (g.without id).Sound := by
  -- what is left are other nodes, none of which refers to the removed one any more
  have hmem : ∀ m ∈ (g.without id).nodes,
      ∃ n ∈ g.nodes, n.id ≠ id ∧ m = n.keepReferences (· != id) := by
    intro m hm
    obtain ⟨n, hn, rfl⟩ := List.mem_map.mp hm
    obtain ⟨hn, hne⟩ := List.mem_filter.mp hn
    exact ⟨n, hn, of_decide_eq_true hne, rfl⟩
  refine ⟨?_, ?_, ?_, ?_⟩
  · rw [ids_without]
    exact h.nodup.filter _
  · intro m hm source hs
    obtain ⟨n, hn, -, rfl⟩ := hmem m hm
    obtain ⟨hs, hkeep⟩ := Node.mem_sources_keepReferences hs
    rw [ids_without, List.mem_filter]
    exact ⟨h.closed n hn source hs, by simpa using hkeep⟩
  · intro other hother
    simp only [Graph.without] at hother
    split at hother
    · cases hother
    · rename_i hne
      rw [ids_without, List.mem_filter]
      refine ⟨h.selected_mem other hother, decide_eq_true ?_⟩
      rintro rfl
      exact hne hother
  · intro m hm
    obtain ⟨n, hn, hne, rfl⟩ := hmem m hm
    change n.selected = true ↔ (if g.selected = some id then none else g.selected) = some n.id
    rw [h.marked_iff n hn]
    split
    · rename_i hsel
      simp [hsel, Ne.symm hne]
    · rfl

theorem update (h : g.Sound) (id : NodeId) (f : Node → Node) (hid : ∀ n, (f n).id = n.id)
    (hmark : ∀ n, (f n).selected = n.selected)
    (hsources : ∀ n, ∀ source ∈ (f n).sources, source ∈ n.sources ∨ source ∈ g.ids) :
    (g.update id f).Sound := by
  have hids := g.ids_update id f hid
  refine ⟨?_, ?_, ?_, ?_⟩
  · rw [hids]; exact h.nodup
  · intro m hm source hs
    obtain ⟨n, hn, rfl⟩ := mem_nodes_update hm
    rw [hids]
    split at hs
    · exact (hsources n source hs).elim (h.closed n hn source) fun hs => hs
    · exact h.closed n hn source hs
  · rw [hids]; exact h.selected_mem
  · intro m hm
    obtain ⟨n, hn, rfl⟩ := mem_nodes_update hm
    change _ ↔ g.selected = _
    split
    · rw [hmark, hid]; exact h.marked_iff n hn
    · exact h.marked_iff n hn

theorem bind (h : g.Sound) (id : NodeId) (index : Nat) {b : Binding}
    (hsource : ∀ source ∈ b.source?, source ∈ g.ids) : (g.update id (·.bind index b)).Sound := by
  apply h.update id (·.bind index b) (fun _ => rfl) (fun _ => rfl)
  intro n source hs
  exact (Node.mem_sources_bind hs).imp_right (hsource source)

/-- To move the mark from the node before to the node now is to mark by the selection. -/
theorem reselect_eq (h : g.Sound) (selected : Option NodeId) :
    g.reselect selected = g.withSelection selected := by
  have hother : ∀ n ∈ g.nodes, g.selected ≠ some n.id → n = { n with selected := false } := by
    intro n hn hne
    have hmark : n.selected = false := by
      rw [Bool.eq_false_iff, ne_eq, h.marked_iff n hn]
      exact hne
    rw [← hmark]
  -- first the mark is taken away, so that no node is left with one
  have hunmarked : (g.selected.elim g fun id => g.mark id false).nodes =
      g.nodes.map fun n => { n with selected := false } := by
    cases hsel : g.selected with
    | none =>
      refine (List.map_id g.nodes).symm.trans (List.map_congr_left fun n hn => hother n hn ?_)
      rw [hsel]
      exact fun hid => nomatch hid
    | some id =>
      refine List.map_congr_left fun n hn => ?_
      split
      · rfl
      · rename_i hne
        refine hother n hn ?_
        rw [hsel]
        exact fun hid => hne (Option.some.inj hid).symm
  have hnodes : (g.reselect selected).nodes = (g.withSelection selected).nodes := by
    unfold Graph.reselect
    cases selected with
    | none => exact hunmarked
    | some id =>
      change (g.selected.elim g fun id => g.mark id false).nodes.map _ = _
      rw [hunmarked, Graph.withSelection, List.map_map]
      refine List.map_congr_left fun n _ => ?_
      simp only [Function.comp, Option.some.injEq, eq_comm (a := id)]
      split <;> simp [*]
  have hrest : g.reselect selected =
      { g with nodes := (g.reselect selected).nodes, selected := selected } := by
    unfold Graph.reselect
    cases selected <;> cases g.selected <;> rfl
  rw [hrest, hnodes]
  rfl

/-- The mark of a node follows the selection. -/
theorem mem_nodes_reselect (h : g.Sound) {selected : Option NodeId} {n : Node}
    (hn : n ∈ (g.reselect selected).nodes) :
    ∃ m ∈ g.nodes, n = { m with selected := decide (selected = some m.id) } := by
  rw [h.reselect_eq] at hn
  obtain ⟨m, hm, rfl⟩ := List.mem_map.mp hn
  exact ⟨m, hm, rfl⟩

theorem reselect (h : g.Sound) {selected : Option NodeId}
    (hmem : ∀ id ∈ selected, id ∈ g.ids) : (g.reselect selected).Sound := by
  refine ⟨?_, ?_, ?_, ?_⟩
  · rw [ids_reselect]; exact h.nodup
  · intro m hm source hs
    obtain ⟨n, hn, rfl⟩ := h.mem_nodes_reselect hm
    rw [ids_reselect]
    exact h.closed n hn source hs
  · rw [ids_reselect]; exact hmem
  · intro m hm
    obtain ⟨n, hn, rfl⟩ := h.mem_nodes_reselect hm
    exact decide_eq_true_iff

theorem tick (h : g.Sound) (now : Instant) : (g.tick now).graph.Sound := by
  refine ⟨?_, ?_, ?_, ?_⟩
  · rw [ids_tick]; exact h.nodup
  · intro m hm source hs
    obtain ⟨n, hn, e, rfl⟩ := mem_nodes_tick hm
    rw [ids_tick]
    exact h.closed n hn source hs
  · rw [ids_tick]; exact h.selected_mem
  · intro m hm
    obtain ⟨n, hn, e, rfl⟩ := mem_nodes_tick hm
    exact h.marked_iff n hn

theorem step (h : g.Sound) {g' : Graph} {events : List Event} {log : List LogLine}
    (hstep : g.Step g' events log) : g'.Sound := by
  cases hstep with
  | still => exact h
  | draw random => exact h.congr rfl rfl
  | add random n hnew =>
    have hdrawn : ({ g with random := random } : Graph).Sound := h.congr rfl rfl
    exact hdrawn.withNode hnew
  | remove id => exact h.without id
  | bind n index b hn hindex hsource => exact h.bind n.id index hsource
  | place id hid f => exact h.update id _ (fun _ => rfl) (fun _ => rfl) fun _ _ => .inl
  | rename id hid name => exact h.update id _ (fun _ => rfl) (fun _ => rfl) fun _ _ => .inl
  | describe id hid text => exact h.update id _ (fun _ => rfl) (fun _ => rfl) fun _ _ => .inl
  | reselect selected hother hmem => exact h.reselect hmem
  | scroll d hd => exact h.congr rfl rfl
  | tick now => exact h.tick now

end Sound

/-- A patch that some session comes to hold, which starts without nodes. -/
def Reachable (g : Graph) : Prop :=
  ∃ (config : Config) (random : Random) (actions : List Action),
    ((Session.ofGraph (blank config random)).run actions).graph = g

theorem Reachable.sound {g : Graph} (h : g.Reachable) : g.Sound := by
  obtain ⟨config, random, actions, rfl⟩ := h
  exact Session.run_invariant (fun _ _ _ _ h hstep => h.step hstep) _ actions
    (sound_blank config random)

/--
Whatever is done in a session that starts without nodes, the identities of the nodes are distinct
and each node is found under its own, every reference leads to a node of the patch, every node has
one binding for each of its slots, the selected node is in the patch, and a node is marked exactly
when it is the selected one.
-/
theorem sound_run (config : Config) (random : Random) (actions : List Action) :
    let g := ((Session.ofGraph (blank config random)).run actions).graph
    g.ids.Nodup ∧
      (∀ id n, g.node? id = some n ↔ n ∈ g.nodes ∧ n.id = id) ∧
      (∀ n ∈ g.nodes, ∀ source, Binding.reference source ∈ n.bindings → source ∈ g.ids) ∧
      (∀ n ∈ g.nodes, n.bindings.length = n.slots.length) ∧
      (∀ id, g.selected = some id → id ∈ g.ids) ∧
      ∀ n ∈ g.nodes, n.selected = true ↔ g.selected = some n.id := by
  intro g
  have h : g.Sound := Reachable.sound ⟨config, random, actions, rfl⟩
  refine ⟨h.nodup, fun _ _ => node?_eq_some_iff h.nodup, ?_, ?_, h.selected_mem, h.marked_iff⟩
  · exact fun n hn source hs => h.closed n hn source (Node.mem_sources_iff.mpr hs)
  · exact fun n _ => by rw [Node.length_bindings, Node.length_slots]

end Graph

end Patchbay
