import Mathlib.Data.List.Nodup
import Patchbay.Session

/-!
# The nodes of a patch

What the edits do to the identities, the look-up and the references of the nodes.
-/

namespace Patchbay

namespace Node

@[simp] theorem id_bind (n : Node) (index : Nat) (b : Binding) : (n.bind index b).id = n.id := rfl

@[simp] theorem id_keepReferences (n : Node) (keep : NodeId → Bool) :
    (n.keepReferences keep).id = n.id := rfl

theorem binding?_bind_of_ne (n : Node) {index other : Nat} (b : Binding) (h : other ≠ index) :
    (n.bind index b).binding? other = n.binding? other := by
  have hinputs : (n.bind index b).inputs[other]? = n.inputs[other]? :=
    List.getElem?_modify_ne _ _ h.symm
  rw [binding?, hinputs, binding?]

theorem mem_sources_iff {n : Node} {source : NodeId} :
    source ∈ n.sources ↔ Binding.reference source ∈ n.bindings := by
  rw [sources, List.mem_filterMap]
  constructor
  · rintro ⟨b, hb, hs⟩
    cases b with
    | reference s => rwa [← Option.some.inj hs]
    | literal v => cases hs
    | unbound => cases hs
  · exact fun h => ⟨_, h, rfl⟩

theorem bindings_keepReferences (n : Node) (keep : NodeId → Bool) :
    (n.keepReferences keep).bindings =
      n.bindings.map fun b => if b.source?.all keep then b else .unbound := by
  simp only [bindings, keepReferences, List.map_map]
  apply List.map_congr_left
  intro i _
  simp only [Function.comp]
  split <;> rfl

theorem mem_sources_keepReferences {n : Node} {keep : NodeId → Bool} {source : NodeId}
    (h : source ∈ (n.keepReferences keep).sources) : source ∈ n.sources ∧ keep source := by
  rw [mem_sources_iff, bindings_keepReferences, List.mem_map] at h
  obtain ⟨b, hb, heq⟩ := h
  split at heq
  · rename_i hkeep
    rw [heq] at hb hkeep
    exact ⟨mem_sources_iff.mpr hb, by simpa [Binding.source?] using hkeep⟩
  · cases heq

theorem all_ne_source? (b : Binding) (id : NodeId) :
    b.source?.all (· != id) = !b.refersTo id := by
  cases b with
  | reference source =>
    rw [Bool.eq_iff_iff]
    simp [Binding.source?, Binding.refersTo]
  | literal v | unbound => rfl

theorem keepReferences_eq_self {n : Node} {keep : NodeId → Bool}
    (h : ∀ source ∈ n.sources, keep source = true) : n.keepReferences keep = n := by
  have hinputs : n.inputs.map (fun i =>
      if i.binding.source?.all keep then i else { i with binding := .unbound }) = n.inputs := by
    refine (List.map_congr_left fun i hi => ?_).trans (List.map_id _)
    refine if_pos (Option.all_eq_true _ _ |>.mpr fun source hsource => h source ?_)
    exact List.mem_filterMap.mpr ⟨i.binding, List.mem_map_of_mem hi, hsource⟩
  rw [keepReferences, hinputs]

/-- Binding an input adds no reference but the one bound. -/
theorem mem_sources_bind {n : Node} {index : Nat} {b : Binding} {source : NodeId}
    (h : source ∈ (n.bind index b).sources) : source ∈ n.sources ∨ b.source? = some source := by
  rw [mem_sources_iff, bindings, List.mem_map] at h
  obtain ⟨i, hi, heq⟩ := h
  obtain ⟨k, hk⟩ := List.mem_iff_getElem?.mp hi
  simp only [bind, List.getElem?_modify] at hk
  cases hn : n.inputs[k]? with
  | none => rw [hn] at hk; split at hk <;> cases hk
  | some j =>
    rw [hn] at hk
    split at hk
    · cases hk
      right
      rw [show b = .reference source from heq]
      rfl
    · cases hk
      left
      rw [mem_sources_iff, bindings, List.mem_map]
      exact ⟨j, List.mem_of_getElem? hn, heq⟩

end Node

/-- What stands in the second of two lists that match place by place matches one of the first. -/
theorem exists_of_mem_right {α β : Type} {R : α → β → Prop} {as : List α} {bs : List β}
    (h : List.Forall₂ R as bs) {b : β} (hb : b ∈ bs) : ∃ a ∈ as, R a b := by
  induction h with
  | nil => cases hb
  | cons hr _ ih =>
    rcases List.mem_cons.mp hb with rfl | hb
    · exact ⟨_, List.mem_cons_self, hr⟩
    · obtain ⟨a, ha, hr⟩ := ih hb
      exact ⟨a, List.mem_cons_of_mem _ ha, hr⟩

namespace Graph

variable {g : Graph} {id : NodeId} {n : Node}

/-! ## Look-up -/

theorem mem_ids : id ∈ g.ids ↔ ∃ n ∈ g.nodes, n.id = id := List.mem_map

theorem id_mem_ids (h : n ∈ g.nodes) : n.id ∈ g.ids := mem_ids.mpr ⟨n, h, rfl⟩

theorem mem_of_node? (h : g.node? id = some n) : n ∈ g.nodes :=
  List.mem_of_find?_eq_some h

theorem id_of_node? (h : g.node? id = some n) : n.id = id := by
  simpa using List.find?_some h

theorem mem_ids_of_node? (h : g.node? id = some n) : id ∈ g.ids :=
  mem_ids.mpr ⟨n, mem_of_node? h, id_of_node? h⟩

theorem exists_node? (h : id ∈ g.ids) : ∃ n, g.node? id = some n := by
  rw [← Option.isSome_iff_exists, node?_isSome, contains_iff]
  exact h

theorem node?_eq_none (h : id ∉ g.ids) : g.node? id = none := by
  rwa [← Option.not_isSome_iff_eq_none, node?_isSome, contains_iff]

/-- Patches in which the same is read off a node are alike in whether they have it. -/
theorem mem_ids_iff_of_map_eq {α : Type} {g g' : Graph} {read : Node → α} {id : NodeId}
    (h : (g.node? id).map read = (g'.node? id).map read) : id ∈ g.ids ↔ id ∈ g'.ids := by
  have hsome := congrArg Option.isSome h
  rw [Option.isSome_map, Option.isSome_map, node?_isSome, node?_isSome] at hsome
  rw [← contains_iff, ← contains_iff, hsome]

/-- A node that has the identity of another is that node. -/
theorem eq_of_id_eq (h : g.ids.Nodup) {m : Node} (hn : n ∈ g.nodes) (hm : m ∈ g.nodes)
    (hid : m.id = n.id) : m = n :=
  List.inj_on_of_nodup_map h hm hn hid

/-- With distinct identities, the node found under an identity is the one that has it. -/
theorem node?_eq_some_iff (h : g.ids.Nodup) :
    g.node? id = some n ↔ n ∈ g.nodes ∧ n.id = id := by
  constructor
  · exact fun hn => ⟨mem_of_node? hn, id_of_node? hn⟩
  · rintro ⟨hn, rfl⟩
    obtain ⟨m, hm⟩ := exists_node? (id_mem_ids hn)
    rw [hm, eq_of_id_eq h hn (mem_of_node? hm) (id_of_node? hm)]

theorem output_eq (g : Graph) (id : NodeId) :
    g.output id = ((g.node? id).map (·.output)).getD .unset := rfl

/-! ## Edits of one node -/

theorem mem_nodes_update {f : Node → Node} (h : n ∈ (g.update id f).nodes) :
    ∃ m ∈ g.nodes, n = if m.id = id then f m else m := by
  obtain ⟨m, hm, rfl⟩ := List.mem_map.mp h
  exact ⟨m, hm, rfl⟩

theorem node?_update (g : Graph) (id other : NodeId) (f : Node → Node)
    (hf : ∀ n, (f n).id = n.id) :
    (g.update id f).node? other =
      (g.node? other).map fun n => if n.id = id then f n else n := by
  simp only [node?, update, List.find?_map]
  congr 2
  funext n
  simp only [Function.comp]
  split <;> simp [hf]

/-- What the change of a node keeps of it, is kept of all nodes. -/
theorem map_nodes_update {α : Type} (g : Graph) (id : NodeId) {f : Node → Node} {get : Node → α}
    (h : ∀ n, get (f n) = get n) : (g.update id f).nodes.map get = g.nodes.map get := by
  unfold update
  rw [List.map_map]
  refine List.map_congr_left fun n _ => ?_
  by_cases hid : n.id = id
  · simp [hid, h n]
  · simp [hid]

/-! ## Bindings -/

/-- The binding of an input of a patch. -/
def binding? (g : Graph) (id : NodeId) (index : Nat) : Option Binding :=
  (g.node? id).bind (·.binding? index)

/-- To bind an input takes the input and the node to read from, and nothing else. -/
theorem bind_eq_ok_iff {index : Nat} {b : Binding} {c : Change Binding} :
    g.bind id index b = .ok c ↔ (∀ source ∈ b.source?, source ∈ g.ids) ∧
      ∃ before, g.binding? id index = some before ∧
        c = ⟨before, g.update id (·.bind index b), [.updated id (.input index)]⟩ := by
  have hsources : (∀ source ∈ b.source?, source ∈ g.ids) ↔
      b.source?.filter (!g.contains ·) = none := by
    simp [Option.filter_eq_none_iff, contains_iff]
  rw [hsources]
  unfold bind binding?
  cases b.source?.filter (!g.contains ·) with
  | some source => simp
  | none =>
    cases g.node? id with
    | none => simp
    | some n => cases hbefore : n.binding? index <;> simp [hbefore, eq_comm]

/-- An input has its binding once it is bound. -/
theorem binding?_update_bind {index : Nat} (h : (g.binding? id index).isSome) (b : Binding) :
    (g.update id (·.bind index b)).binding? id index = some b := by
  obtain ⟨before, hbefore⟩ := Option.isSome_iff_exists.mp h
  obtain ⟨n, hn, hindex⟩ := Option.bind_eq_some_iff.mp hbefore
  obtain ⟨i, hi, -⟩ := Option.map_eq_some_iff.mp hindex
  have hnode : (g.update id (·.bind index b)).node? id = some (n.bind index b) := by
    rw [node?_update g id id (·.bind index b) fun _ => rfl, hn, Option.map_some,
      if_pos (id_of_node? hn)]
  have hinput : (n.bind index b).inputs[index]? = some { i with binding := b } := by
    rw [Node.bind, List.getElem?_modify_eq, hi]
    rfl
  rw [binding?, hnode, Option.bind_some, Node.binding?, hinput, Option.map_some]

/-- All other inputs keep their bindings, those of the same node too. -/
theorem binding?_update_bind_of_ne (g : Graph) {index : Nat} {other : NodeId × Nat}
    (h : other ≠ (id, index)) (b : Binding) :
    (g.update id (·.bind index b)).binding? other.1 other.2 = g.binding? other.1 other.2 := by
  rw [binding?, binding?, node?_update g id other.1 (·.bind index b) fun _ => rfl]
  cases hn : g.node? other.1 with
  | none => rfl
  | some n =>
    rw [Option.map_some, Option.bind_some, Option.bind_some]
    by_cases hid : n.id = id
    · -- it is the node bound, so that the index is another
      have hother : other.1 = id := (id_of_node? hn).symm.trans hid
      have hindex : other.2 ≠ index := fun heq => h (Prod.ext hother heq)
      rw [if_pos hid, n.binding?_bind_of_ne b hindex]
    · rw [if_neg hid]

/-! ## Selection -/

/-- What is read off the nodes apart from their marks stays as it is. -/
theorem map_nodes_reselect {α : Type} (g : Graph) (selected : Option NodeId) {get : Node → α}
    (h : ∀ n on, get { n with selected := on } = get n) :
    (g.reselect selected).nodes.map get = g.nodes.map get := by
  have hmark (g : Graph) (id : NodeId) (on : Bool) :
      (g.mark id on).nodes.map get = g.nodes.map get := g.map_nodes_update id fun n => h n on
  have hunmarked : (g.selected.elim g fun id => g.mark id false).nodes.map get =
      g.nodes.map get := by
    cases g.selected with
    | none => rfl
    | some id => exact hmark g id false
  unfold reselect
  cases selected with
  | none => exact hunmarked
  | some id => exact (hmark _ id true).trans hunmarked

@[simp] theorem ids_reselect (g : Graph) (selected : Option NodeId) :
    (g.reselect selected).ids = g.ids := g.map_nodes_reselect selected fun _ _ => rfl

@[simp] theorem viewport_reselect (g : Graph) (selected : Option NodeId) :
    (g.reselect selected).viewport = g.viewport := by
  unfold reselect
  cases selected <;> cases g.selected <;> rfl

/-! ## Nodes that come and go -/

@[simp] theorem ids_withNode (g : Graph) (n : Node) : (g.withNode n).ids = g.ids ++ [n.id] := by
  simp [ids, withNode, admitted]

theorem ids_without (g : Graph) (id : NodeId) :
    (g.without id).ids = g.ids.filter (· ≠ id) := by
  simp [ids, without, List.map_map, List.filter_map, Function.comp_def]

theorem node?_withNode (g : Graph) (n : Node) (id : NodeId) (h : id ∈ g.ids) :
    (g.withNode n).node? id = g.node? id := by
  obtain ⟨m, hm⟩ := exists_node? h
  rw [hm]
  unfold node? at hm ⊢
  rw [withNode, List.find?_append, hm, Option.some_or]

/-! ## Ticks -/

/-- A tick evaluates the next node and goes on with it among those passed. -/
theorem tickNodes_cons (now : Instant) (passed : List Node) (n : Node) (rest : List Node)
    (random : Random) :
    let e := n.evaluate (outputIn (passed ++ n :: rest)) now random
    let t := tickNodes now (passed ++ [n.after e]) rest e.random
    tickNodes now passed (n :: rest) random =
      (t.1, t.2.1, if e.output.equal n.output then t.2.2.1 else .updated n.id .output :: t.2.2.1,
        (e.log.map (LogLine.mk n.id)).toList ++ t.2.2.2) := by
  intro e t
  rw [tickNodes]
  refine congrArg (t.1, t.2.1, if e.output.equal n.output then t.2.2.1
    else .updated n.id .output :: t.2.2.1, ·) ?_
  split
  · rename_i text htext
    rw [htext]
    rfl
  · rename_i hnone
    rw [hnone]
    rfl

/-- A tick puts one evaluated node in the place of each. -/
theorem tickNodes_eq_append (now : Instant) (passed rest : List Node) (random : Random) :
    ∃ after, (tickNodes now passed rest random).1 = passed ++ after ∧
      List.Forall₂ (fun n m => ∃ e, m = n.after e) rest after := by
  induction rest generalizing passed random with
  | nil => exact ⟨[], by simp [tickNodes], .nil⟩
  | cons n rest ih =>
    -- the node joins those passed, as it is after its evaluation
    let e := n.evaluate (outputIn (passed ++ n :: rest)) now random
    obtain ⟨after, hnodes, hafter⟩ := ih (passed ++ [n.after e]) e.random
    refine ⟨n.after e :: after, ?_, .cons ⟨e, rfl⟩ hafter⟩
    simpa [tickNodes] using hnodes

theorem forall₂_nodes_tick (g : Graph) (now : Instant) :
    List.Forall₂ (fun n m => ∃ e, m = n.after e) g.nodes (g.tick now).graph.nodes := by
  obtain ⟨after, hnodes, hafter⟩ := tickNodes_eq_append now [] g.nodes g.random
  rwa [show (g.tick now).graph.nodes = after from hnodes]

theorem mem_nodes_tick {now : Instant} (h : n ∈ (g.tick now).graph.nodes) :
    ∃ m ∈ g.nodes, ∃ e, n = m.after e :=
  exists_of_mem_right (g.forall₂_nodes_tick now) h

/-- What is read off the nodes apart from their outputs and states stays as it is. -/
theorem map_nodes_tick {α : Type} (g : Graph) (now : Instant) {get : Node → α}
    (h : ∀ n e, get (n.after e) = get n) :
    (g.tick now).graph.nodes.map get = g.nodes.map get := by
  have hsame : List.Forall₂ (· = ·) (g.nodes.map get) ((g.tick now).graph.nodes.map get) := by
    rw [List.forall₂_map_left_iff, List.forall₂_map_right_iff]
    refine (g.forall₂_nodes_tick now).imp fun n m hm => ?_
    obtain ⟨e, rfl⟩ := hm
    exact (h n e).symm
  rw [List.forall₂_eq_eq_eq] at hsame
  exact hsame.symm

@[simp] theorem ids_tick (g : Graph) (now : Instant) : (g.tick now).graph.ids = g.ids :=
  g.map_nodes_tick now fun _ _ => rfl

end Graph

end Patchbay
