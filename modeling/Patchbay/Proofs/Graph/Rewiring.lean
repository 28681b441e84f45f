import Mathlib.Data.Set.Insert
import Patchbay.Proofs.Graph.Announcement
import Patchbay.Proofs.Graph.Refusal
import Patchbay.Proofs.Pointer.Report
import Patchbay.Proofs.Scene.Agreement

/-!
# What happens to the wires

Wires are not stored but read off the bindings. They behave as a set of edges all the same, of which
at most one enters an input (`Graph.eq_of_mem_wires`). Every action that succeeds does one thing to
this set: it plugs a wire into an input in place of the one there, unplugs an input, severs a node,
adds what a new node brings along, or leaves the set alone (`Session.wireSet_perform`).
-/

namespace Patchbay

namespace Wire

/-- Some wires without the one into an input. -/
def unplugged (W : Set Wire) (target : NodeId) (input : Nat) : Set Wire :=
  {w ∈ W | ¬ (w.target = target ∧ w.input = input)}

/-- Some wires with one more, in place of the one into the same input. -/
def plugged (W : Set Wire) (w : Wire) : Set Wire :=
  insert w (unplugged W w.target w.input)

/-- Some wires without those that have a node at either end. -/
def severed (W : Set Wire) (id : NodeId) : Set Wire :=
  {w ∈ W | w.source ≠ id ∧ w.target ≠ id}

/-- The wires that a node brings along which is added to a patch of some nodes. -/
def broughtBy (n : Node) (ids : List NodeId) : Set Wire :=
  {w | w.target = n.id ∧ n.binding? w.input = some (.reference w.source) ∧
    (w.source = n.id ∨ w.source ∈ ids)}

end Wire

/-- The wires of a patch as a set. -/
def Graph.wireSet (g : Graph) : Set Wire := {w | w ∈ g.wires}

/-- The wires after an edit that succeeds, given the nodes and the wires before it. -/
def Edit.rewire (ids : List NodeId) (W : Set Wire) : Edit → Set Wire
  | add n => W ∪ Wire.broughtBy n ids
  | remove id => Wire.severed W id
  | bind id index (.reference source) => Wire.plugged W ⟨source, id, index⟩
  | bind id index (.literal _) | bind id index .unbound => Wire.unplugged W id index
  | connect source target index => Wire.plugged W ⟨source, target, index⟩
  | setLiteral id index _ | clearInput id index => Wire.unplugged W id index
  | spawn .. | moveNode .. | setPosition .. | rename .. | describe .. | select _ | deselect
  | scrollBy _ | tick _ => W

/-- The wires after an input of a pointer that came to a gesture. -/
def Gesture.rewire (W : Set Wire) : Gesture → Set Wire
  | wireCompleted w => Wire.plugged W w
  | wireDeleted w => W \ {w}
  | ignored | selected _ | deselected | movedNode _ | panned | wireStarted _ => W

/-- The wires after an edit of the selected node that succeeds. -/
def InspectorEdit.rewire (selected : NodeId) (W : Set Wire) : InspectorEdit → Set Wire
  | setLiteral index _ | setText index _ | clearInput index => Wire.unplugged W selected index
  | rename _ => W
  | remove => Wire.severed W selected

/-- The wires after an action, by how it was answered. -/
def Action.rewire (g : Graph) (W : Set Wire) : Action → Except GraphError Reply → Set Wire
  | edit e, .ok _ => e.rewire g.ids W
  | inspect _ e, .ok _ => g.selected.elim W fun id => e.rewire id W
  | pointer _ _, .ok (.gesture gesture) => gesture.rewire W
  | _, _ => W

namespace Node

theorem mem_wiresIn_bind {n : Node} {index : Nat} {b : Binding} {w : Wire} :
    w ∈ (n.bind index b).wiresIn ↔ n.id = w.target ∧
      if w.input = index then index < n.inputs.length ∧ b = .reference w.source
      else n.binding? w.input = some (.reference w.source) := by
  rw [mem_wiresIn_iff, id_bind]
  refine and_congr_right fun _ => ?_
  split
  · rename_i hinput
    rw [hinput, binding?, bind, List.getElem?_modify_eq, Option.map_eq_map, Option.map_map,
      Option.map_eq_some_iff]
    constructor
    · rintro ⟨i, hi, hb⟩
      exact ⟨(List.getElem?_eq_some_iff.mp hi).1, hb⟩
    · rintro ⟨hlt, hb⟩
      exact ⟨_, List.getElem?_eq_getElem hlt, hb⟩
  · rename_i hother
    rw [n.binding?_bind_of_ne b hother]

theorem mem_wiresIn_keepReferences {n : Node} {keep : NodeId → Bool} {w : Wire} :
    w ∈ (n.keepReferences keep).wiresIn ↔ w ∈ n.wiresIn ∧ keep w.source = true := by
  rw [mem_wiresIn_iff, mem_wiresIn_iff, id_keepReferences, ← getElem?_bindings,
    bindings_keepReferences, List.getElem?_map, getElem?_bindings, and_assoc]
  refine and_congr_right fun _ => ?_
  rw [Option.map_eq_some_iff]
  constructor
  · rintro ⟨b, hb, hkept⟩
    split at hkept
    · rename_i hkeep
      rw [hkept] at hb hkeep
      exact ⟨hb, hkeep⟩
    · cases hkept
  · rintro ⟨hb, hkeep⟩
    exact ⟨_, hb, if_pos hkeep⟩

end Node

namespace Graph

variable {g g' : Graph}

theorem mem_wires_iff {w : Wire} : w ∈ g.wires ↔ ∃ n ∈ g.nodes, w ∈ n.wiresIn :=
  List.mem_flatMap

/-- Distinct identities leave one binding for the input that a wire enters. -/
theorem Sound.binding?_of_mem_wires (hs : g.Sound) {w : Wire} (hw : w ∈ g.wires) :
    g.binding? w.target w.input = some (.reference w.source) := by
  obtain ⟨n, hn, hin⟩ := mem_wires_iff.mp hw
  obtain ⟨hid, hbinding⟩ := Node.mem_wiresIn_iff.mp hin
  rw [binding?, ← hid, hs.node?_of_mem hn]
  exact hbinding

theorem mem_wires_of_binding? {source target : NodeId} {index : Nat}
    (h : g.binding? target index = some (.reference source)) :
    ⟨source, target, index⟩ ∈ g.wires := by
  obtain ⟨n, hn, hbinding⟩ := Option.bind_eq_some_iff.mp h
  exact mem_wires_iff.mpr
    ⟨n, mem_of_node? hn, Node.mem_wiresIn_iff.mpr ⟨id_of_node? hn, hbinding⟩⟩

/-- No two wires enter the same input. -/
theorem eq_of_mem_wires (hs : g.Sound) {w w' : Wire} (hw : w ∈ g.wires) (hw' : w' ∈ g.wires)
    (htarget : w.target = w'.target) (hinput : w.input = w'.input) : w = w' := by
  have hreads := hs.binding?_of_mem_wires hw
  rw [htarget, hinput, hs.binding?_of_mem_wires hw'] at hreads
  obtain ⟨source, target, input⟩ := w
  obtain ⟨source', target', input'⟩ := w'
  obtain rfl : target = target' := htarget
  obtain rfl : input = input' := hinput
  obtain rfl : source' = source := by simpa using hreads
  rfl

theorem nodup_wires (hs : g.Sound) : g.wires.Nodup := by
  rw [List.nodup_iff_count_le_one]
  intro w
  by_cases hw : w ∈ g.wires
  · obtain ⟨n, hn, hin⟩ := mem_wires_iff.mp hw
    have hid : n.id = w.target := (Node.mem_wiresIn_iff.mp hin).1
    -- among the wires into its input there is one at most
    have hcount : (g.wiresInto w.target w.input).count w = g.wires.count w :=
      List.count_filter (by simp)
    have hlength : (g.wiresInto w.target w.input).length ≤ 1 := by
      rw [← hid, wiresInto_eq hs hn]
      exact Option.length_toList_le
    exact hcount ▸ List.count_le_length.trans hlength
  · rw [List.count_eq_zero_of_not_mem hw]
    exact Nat.zero_le 1

/-- A wire has a node of the patch at either end. -/
theorem Sound.mem_ids_of_mem_wires (hs : g.Sound) {w : Wire} (hw : w ∈ g.wires) :
    w.source ∈ g.ids ∧ w.target ∈ g.ids := by
  obtain ⟨n, hn, hin⟩ := mem_wires_iff.mp hw
  obtain ⟨hid, hbinding⟩ := Node.mem_wiresIn_iff.mp hin
  rw [← Node.getElem?_bindings] at hbinding
  have hsource := Node.mem_sources_iff.mpr (List.mem_of_getElem? hbinding)
  exact ⟨hs.closed n hn w.source hsource, hid ▸ id_mem_ids hn⟩

/-! ## Edits -/

/-- Wires are a matter of the wiring alone. -/
theorem wireSet_congr (h : g'.wiring = g.wiring) : g'.wireSet = g.wireSet := by
  have hwires (g : Graph) : g.wires = g.wiring.flatMap fun x =>
      x.2.zipIdx.filterMap fun y => y.1.source?.map fun source => ⟨source, x.1, y.2⟩ := by
    rw [wiring, List.flatMap_map]
    rfl
  rw [wireSet, wireSet, hwires g', hwires g, h]

theorem wireSet_update {id : NodeId} {f : Node → Node}
    (h : ∀ n, ((f n).id, (f n).bindings) = (n.id, n.bindings)) :
    (g.update id f).wireSet = g.wireSet :=
  wireSet_congr (g.map_nodes_update id h)

theorem mem_wires_rebound {id : NodeId} {index : Nat} {b : Binding}
    (hthere : (g.binding? id index).isSome) {w : Wire} :
    w ∈ (g.rebound id index b).wires ↔
      if w.target = id ∧ w.input = index then b = .reference w.source else w ∈ g.wires := by
  have hnodes : w ∈ (g.rebound id index b).wires ↔
      ∃ n ∈ g.nodes, w ∈ (if n.id = id then n.bind index b else n).wiresIn := by
    rw [rebound_eq_update]
    change w ∈ (g.nodes.map _).flatMap Node.wiresIn ↔ _
    rw [List.flatMap_map, List.mem_flatMap]
  rw [hnodes]
  -- into the input bound there is what the binding says, into others what was there
  split
  · rename_i hinto
    obtain ⟨rfl, rfl⟩ := hinto
    constructor
    · rintro ⟨n, -, hin⟩
      split at hin
      · obtain ⟨-, hbound⟩ := Node.mem_wiresIn_bind.mp hin
        rw [if_pos rfl] at hbound
        exact hbound.2
      · rename_i hid
        exact absurd (Node.mem_wiresIn_iff.mp hin).1 hid
    · intro hb
      obtain ⟨before, hbefore⟩ := Option.isSome_iff_exists.mp hthere
      obtain ⟨n, hn, hindex⟩ := Option.bind_eq_some_iff.mp hbefore
      obtain ⟨i, hi, -⟩ := Option.map_eq_some_iff.mp hindex
      have hlt : w.input < n.inputs.length := (List.getElem?_eq_some_iff.mp hi).1
      refine ⟨n, mem_of_node? hn, ?_⟩
      rw [if_pos (id_of_node? hn), Node.mem_wiresIn_bind, if_pos rfl]
      exact ⟨id_of_node? hn, hlt, hb⟩
  · rename_i hother
    rw [mem_wires_iff]
    refine exists_congr fun n => and_congr_right fun _ => ?_
    split
    · rename_i hid
      rw [Node.mem_wiresIn_bind, Node.mem_wiresIn_iff]
      refine and_congr_right fun htarget => ?_
      rw [if_neg fun hinput => hother ⟨htarget ▸ hid, hinput⟩]
    · rfl

theorem wireSet_rebound_reference {source id : NodeId} {index : Nat}
    (hthere : (g.binding? id index).isSome) :
    (g.rebound id index (.reference source)).wireSet =
      Wire.plugged g.wireSet ⟨source, id, index⟩ := by
  ext w
  change w ∈ (g.rebound id index (.reference source)).wires ↔ w = ⟨source, id, index⟩ ∨
    (w ∈ g.wires ∧ ¬ (w.target = id ∧ w.input = index))
  rw [mem_wires_rebound hthere]
  obtain ⟨s, t, i⟩ := w
  by_cases hinto : t = id ∧ i = index
  · simp [hinto, eq_comm]
  · rw [if_neg hinto]
    simp only [hinto, Wire.mk.injEq, and_false, not_false_eq_true, and_true, false_or]

theorem wireSet_rebound_of_source?_eq_none {id : NodeId} {index : Nat} {b : Binding}
    (hthere : (g.binding? id index).isSome) (hsource : b.source? = none) :
    (g.rebound id index b).wireSet = Wire.unplugged g.wireSet id index := by
  ext w
  change w ∈ (g.rebound id index b).wires ↔
    w ∈ g.wires ∧ ¬ (w.target = id ∧ w.input = index)
  rw [mem_wires_rebound hthere]
  have hb : b ≠ .reference w.source := by
    rintro rfl
    cases hsource
  by_cases hinto : w.target = id ∧ w.input = index
  · simp [hinto, hb]
  · simp [hinto]

theorem wireSet_withNode (n : Node) :
    (g.withNode n).wireSet = g.wireSet ∪ Wire.broughtBy n g.ids := by
  have hkept : (g.admitted n).wiresIn =
    (n.keepReferences fun source => source == n.id || g.contains source).wiresIn := rfl
  ext w
  change w ∈ (g.withNode n).wires ↔ w ∈ g.wires ∨ w.target = n.id ∧
    n.binding? w.input = some (.reference w.source) ∧ (w.source = n.id ∨ w.source ∈ g.ids)
  rw [wires, withNode, List.flatMap_append, List.mem_append, List.flatMap_singleton, hkept,
    Node.mem_wiresIn_keepReferences, Node.mem_wiresIn_iff, Bool.or_eq_true, beq_iff_eq,
    contains_iff, and_assoc, eq_comm (a := n.id)]
  rfl

/-- Nothing is left to cut at a node that is not there. -/
theorem wireSet_without (g : Graph) (id : NodeId) :
    (g.without id).wireSet = Wire.severed g.wireSet id := by
  ext w
  change w ∈ (g.without id).wires ↔ w ∈ g.wires ∧ w.source ≠ id ∧ w.target ≠ id
  have hnodes : w ∈ (g.without id).wires ↔
      ∃ n ∈ g.nodes.filter (·.id ≠ id), w ∈ (n.keepReferences (· != id)).wiresIn := by
    change w ∈ ((g.nodes.filter _).map _).flatMap Node.wiresIn ↔ _
    rw [List.flatMap_map, List.mem_flatMap]
  rw [hnodes, mem_wires_iff]
  constructor
  · rintro ⟨n, hn, hin⟩
    obtain ⟨hn, hne⟩ := List.mem_filter.mp hn
    obtain ⟨hin, hkeep⟩ := Node.mem_wiresIn_keepReferences.mp hin
    refine ⟨⟨n, hn, hin⟩, bne_iff_ne.mp hkeep, ?_⟩
    rw [← (Node.mem_wiresIn_iff.mp hin).1]
    exact of_decide_eq_true hne
  · rintro ⟨⟨n, hn, hin⟩, hsource, htarget⟩
    rw [← (Node.mem_wiresIn_iff.mp hin).1] at htarget
    refine ⟨n, List.mem_filter.mpr ⟨hn, decide_eq_true htarget⟩, ?_⟩
    exact Node.mem_wiresIn_keepReferences.mpr ⟨hin, bne_iff_ne.mpr hsource⟩

theorem wireSet_remove (hs : g.Sound) (id : NodeId) :
    (g.remove id).graph.wireSet = Wire.severed g.wireSet id := by
  unfold remove
  split
  · rename_i hnone
    have habsent : id ∉ g.ids := fun hid => by
      obtain ⟨n, hn⟩ := exists_node? hid
      rw [hnone] at hn
      cases hn
    -- no wire has an end that is not in the patch
    refine (Set.sep_eq_self_iff_mem_true.mpr fun w hw => ?_).symm
    obtain ⟨hsource, htarget⟩ := hs.mem_ids_of_mem_wires hw
    exact ⟨fun h => habsent (h ▸ hsource), fun h => habsent (h ▸ htarget)⟩
  · exact g.wireSet_without id

theorem wireSet_of_bind {id : NodeId} {index : Nat} {b : Binding} {c : Change Binding}
    (h : g.bind id index b = .ok c) :
    c.graph.wireSet = (Edit.bind id index b).rewire g.ids g.wireSet := by
  obtain ⟨-, before, hbefore, rfl⟩ := bind_eq_ok_iff.mp h
  have hthere := Option.isSome_of_mem hbefore
  cases b with
  | reference source => exact wireSet_rebound_reference hthere
  | literal v => exact wireSet_rebound_of_source?_eq_none hthere rfl
  | unbound => exact wireSet_rebound_of_source?_eq_none hthere rfl

theorem wireSet_of_editNode {id : NodeId} {field : NodeField} {f : Node → Node} {c : Change Unit}
    (h : g.editNode id field f = .ok c)
    (hf : ∀ n, ((f n).id, (f n).bindings) = (n.id, n.bindings)) :
    c.graph.wireSet = g.wireSet := by
  unfold editNode at h
  split at h
  · cases h
    exact wireSet_update hf
  · cases h

theorem wireSet_of_add {n : Node} {c : Change NodeId} (h : g.add n = .ok c) :
    c.graph.wireSet = g.wireSet ∪ Wire.broughtBy n g.ids := by
  unfold add at h
  split at h
  · cases h
  · cases h
    exact wireSet_withNode n

/-- A spawned node has no wires, as its inputs are unbound. -/
theorem broughtBy_spawned (g : Graph) (kind : NodeKind) (id : NodeId) (ids : List NodeId) :
    Wire.broughtBy (g.spawned kind id).1 ids = ∅ := by
  refine Set.eq_empty_of_forall_notMem ?_
  rintro w ⟨-, hbinding, -⟩
  obtain ⟨i, hi, hreads⟩ := Option.map_eq_some_iff.mp hbinding
  obtain ⟨slot, -, rfl⟩ := List.mem_map.mp (List.mem_of_getElem? hi)
  cases hreads

theorem wireSet_of_spawn {kind : NodeKind} {id : NodeId} {c : Change NodeId}
    (h : g.spawn kind id = .ok c) : c.graph.wireSet = g.wireSet := by
  let placed : Graph := { g with random := (g.spawned kind id).2 }
  have hadded : c.graph.wireSet = g.wireSet ∪ Wire.broughtBy (g.spawned kind id).1 g.ids :=
    wireSet_of_add (g := placed) h
  rw [hadded, broughtBy_spawned, Set.union_empty]

theorem wireSet_reselect (g : Graph) (selected : Option NodeId) :
    (g.reselect selected).wireSet = g.wireSet :=
  wireSet_congr (g.map_nodes_reselect selected fun _ _ => rfl)

theorem wireSet_of_select {id : NodeId} {c : Change Unit} (h : g.select id = .ok c) :
    c.graph.wireSet = g.wireSet := by
  unfold select at h
  split at h
  · split at h
    · cases h
      rfl
    · cases h
      exact wireSet_reselect g _
  · cases h

end Graph

/-! ## Actions -/

theorem Edit.wireSet_of_apply {g : Graph} (hs : g.Sound) {e : Edit} {r : Edit.Result}
    (h : e.apply g = .ok r) : r.graph.wireSet = e.rewire g.ids g.wireSet := by
  cases e with
  | add n =>
    obtain ⟨c, hc, rfl⟩ := ok_of_map_ok h
    exact Graph.wireSet_of_add hc
  | spawn kind id =>
    obtain ⟨c, hc, rfl⟩ := ok_of_map_ok h
    exact Graph.wireSet_of_spawn hc
  | remove id =>
    cases h
    exact Graph.wireSet_remove hs id
  | bind id index b =>
    obtain ⟨c, hc, rfl⟩ := ok_of_map_ok h
    exact Graph.wireSet_of_bind hc
  | connect source target index =>
    obtain ⟨c, hc, rfl⟩ := ok_of_map_ok h
    obtain ⟨d, hd, rfl⟩ := ok_of_map_ok hc
    exact Graph.wireSet_of_bind hd
  | setLiteral id index v =>
    obtain ⟨c, hc, rfl⟩ := ok_of_map_ok h
    exact Graph.wireSet_of_bind hc
  | clearInput id index =>
    obtain ⟨c, hc, rfl⟩ := ok_of_map_ok h
    exact Graph.wireSet_of_bind hc
  | moveNode id d =>
    obtain ⟨c, hc, rfl⟩ := ok_of_map_ok h
    exact Graph.wireSet_of_editNode hc fun _ => rfl
  | setPosition id p =>
    obtain ⟨c, hc, rfl⟩ := ok_of_map_ok h
    exact Graph.wireSet_of_editNode hc fun _ => rfl
  | rename id name =>
    obtain ⟨c, hc, rfl⟩ := ok_of_map_ok h
    exact Graph.wireSet_of_editNode hc fun _ => rfl
  | describe id description =>
    obtain ⟨c, hc, rfl⟩ := ok_of_map_ok h
    exact Graph.wireSet_of_editNode hc fun _ => rfl
  | select id =>
    obtain ⟨c, hc, rfl⟩ := ok_of_map_ok h
    exact Graph.wireSet_of_select hc
  | deselect =>
    cases h
    unfold Graph.deselect
    split
    · rfl
    · exact Graph.wireSet_reselect g none
  | scrollBy d =>
    cases h
    unfold Graph.scrollBy
    split <;> rfl
  | tick now =>
    cases h
    exact Graph.wireSet_congr (g.map_nodes_tick now fun _ _ => rfl)

/-- A gesture that cuts a wire cuts one that is there. -/
theorem Pointer.Reported.mem_wires {g : Graph} {input : PointerInput} {c : Change Gesture}
    (h : Reported g input c) {w : Wire} (hcut : c.result = .wireDeleted w) : w ∈ g.wires := by
  unfold Reported at h
  rw [hcut] at h
  exact Graph.mem_wires_of_binding? h.1

theorem Pointer.Reported.wireSet_eq {g : Graph} (hs : g.Sound) {input : PointerInput}
    {c : Change Gesture} (h : Reported g input c) :
    c.graph.wireSet = c.result.rewire g.wireSet := by
  obtain ⟨result, graph, events⟩ := c
  cases result with
  | ignored | wireStarted id =>
    obtain ⟨rfl, -⟩ := h
    rfl
  | selected id =>
    obtain ⟨-, -, rfl, -⟩ := h
    exact Graph.wireSet_congr (g.keeps_withSelection (some id) .wiring nofun)
  | deselected =>
    obtain ⟨rfl, -⟩ := h
    exact Graph.wireSet_congr (g.keeps_withSelection none .wiring nofun)
  | movedNode id =>
    obtain ⟨-, e, -, rfl, -⟩ := h
    exact Graph.wireSet_congr (g.keeps_moved id e.delta .wiring nofun)
  | panned =>
    obtain ⟨d, -, -, rfl, -⟩ := h
    rfl
  | wireCompleted w =>
    obtain ⟨-, hthere, rfl, -⟩ := h
    exact Graph.wireSet_rebound_reference hthere
  | wireDeleted w =>
    have hw : w ∈ g.wires := h.mem_wires rfl
    obtain ⟨hreads, rfl, -⟩ := h
    refine (Graph.wireSet_rebound_of_source?_eq_none (Option.isSome_of_mem hreads) rfl).trans ?_
    -- the input cut has no other wire
    ext k
    change (k ∈ g.wires ∧ ¬ (k.target = w.target ∧ k.input = w.input)) ↔ k ∈ g.wires ∧ k ≠ w
    refine and_congr_right fun hk => not_congr ⟨fun hinto => ?_, fun heq => ?_⟩
    · exact Graph.eq_of_mem_wires hs hk hw hinto.1 hinto.2
    · rw [heq]
      exact ⟨rfl, rfl⟩

theorem InspectorEdit.wireSet_of_apply {g : Graph} (hs : g.Sound) {e : InspectorEdit}
    {c : Change Reply} (h : e.apply g = .ok c) :
    c.graph.wireSet = g.selected.elim g.wireSet fun id => e.rewire id g.wireSet := by
  cases hselected : g.selected with
  | none =>
    -- such an edit is refused
    exfalso
    have hrefused := (apply_eq_error_iff_of_none (e := e) hselected).mpr rfl
    rw [h] at hrefused
    cases hrefused
  | some id =>
    cases e with
    | setLiteral index v =>
      obtain ⟨d, hd, rfl⟩ := ok_of_map_ok h
      rw [Graph.setSelectedLiteral, hselected] at hd
      obtain ⟨b, hb, rfl⟩ := ok_of_map_ok hd
      exact Graph.wireSet_of_bind hb
    | setText index text =>
      obtain ⟨d, hd, rfl⟩ := ok_of_map_ok h
      rw [Graph.setSelectedText, hselected] at hd
      dsimp only at hd
      split at hd
      · cases hd
      · split at hd
        · cases hd
        · obtain ⟨b, hb, rfl⟩ := ok_of_map_ok hd
          exact Graph.wireSet_of_bind hb
    | clearInput index =>
      obtain ⟨d, hd, rfl⟩ := ok_of_map_ok h
      rw [Graph.clearSelectedInput, hselected] at hd
      obtain ⟨b, hb, rfl⟩ := ok_of_map_ok hd
      exact Graph.wireSet_of_bind hb
    | rename name =>
      obtain ⟨d, hd, rfl⟩ := ok_of_map_ok h
      rw [Graph.renameSelected, hselected] at hd
      exact Graph.wireSet_of_editNode hd fun _ => rfl
    | remove =>
      obtain ⟨d, hd, rfl⟩ := ok_of_map_ok h
      rw [Graph.removeSelected, hselected] at hd
      dsimp only at hd
      split at hd
      · cases hd
        exact Graph.wireSet_remove hs id
      · cases hd

namespace Session

variable {s : Session}

theorem wireSet_perform_eq (hs : s.graph.Sound) (a : Action) :
    (s.perform a).session.graph.wireSet =
      a.rewire s.graph s.graph.wireSet (s.perform a).reply := by
  cases a with
  | edit e =>
    simp only [perform]
    split
    · -- a refused edit leaves the nodes alone
      have hwiring : (e.leave s.graph).wiring = s.graph.wiring := by
        rw [Graph.wiring, e.nodes_leave, Graph.wiring]
      exact Graph.wireSet_congr hwiring
    · rename_i r hr
      exact Edit.wireSet_of_apply hs hr
  | pointer index input => exact (Pointer.reported_handle hs (s.pointer index) input).wireSet_eq hs
  | inspect index e =>
    simp only [perform]
    split
    · rfl
    · rename_i c hc
      rw [graph_syncInspector]
      exact InspectorEdit.wireSet_of_apply hs hc
  | sync index =>
    simp only [perform, graph_syncInspector]
    rfl
  | detach index =>
    simp only [perform]
    split <;> rfl
  | drain subscriber | hangUp subscriber =>
    simp only [perform]
    split <;> rfl
  | setPointer index p | attach | subscribe => rfl

/--
Whatever has been done in a session, no wire is listed twice and no two enter the same input, and
the wires of a node are those with the node at either end. An action changes the set of wires by
what it was and how it was answered, and leaves it alone if it is refused; a wire that is cut by a
click was there.
-/
theorem wireSet_perform (config : Config) (random : Random) (before : List Action) (a : Action) :
    let s := (ofGraph (.blank config random)).run before
    let p := s.perform a
    s.graph.wires.Nodup ∧
      (∀ w ∈ s.graph.wires, ∀ w' ∈ s.graph.wires,
        w.target = w'.target → w.input = w'.input → w = w') ∧
      (∀ id, (s.graph.wiresOf id).Nodup ∧
        ∀ w, w ∈ s.graph.wiresOf id ↔ w ∈ s.graph.wires ∧ (w.source = id ∨ w.target = id)) ∧
      p.session.graph.wireSet = a.rewire s.graph s.graph.wireSet p.reply ∧
      ∀ index input w, a = .pointer index input →
        p.reply = .ok (.gesture (.wireDeleted w)) → w ∈ s.graph.wires := by
  intro s p
  have hs : s.graph.Sound := Graph.Reachable.sound ⟨config, random, before, rfl⟩
  have hnodup := Graph.nodup_wires hs
  refine ⟨hnodup, fun w hw w' hw' => Graph.eq_of_mem_wires hs hw hw', fun id => ?_,
    wireSet_perform_eq hs a, ?_⟩
  · refine ⟨hnodup.filter _, fun w => ?_⟩
    rw [Graph.wiresOf, List.mem_filter, Wire.involves, Bool.or_eq_true, beq_iff_eq, beq_iff_eq]
  · rintro index input w rfl hreply
    have hreported := Pointer.reported_handle hs (s.pointer index) input
    exact hreported.mem_wires (Reply.gesture.inj (Except.ok.inj hreply))

end Session

end Patchbay
