import Patchbay.Proofs.Geometry.Opposite
import Patchbay.Proofs.Graph.Nodes

/-!
# What a hit test finds

A hit is a node of the patch, or an input of one, that is shown under the point. The body of a node
lies to the right of its left edge and the hotspots of its inputs to the left, so that no point is
in both (`Graph.nodeAt?_ne_of_inputAt?`). Those of different nodes may overlap.
-/

namespace Patchbay

theorem Rect.contains_iff {r : Rect} {p : Point} :
    r.contains p = true ↔
      r.min.x < p.x ∧ p.x < r.max.x ∧ r.min.y < p.y ∧ p.y < r.max.y := by
  simp only [contains, Bool.and_eq_true, decide_eq_true_eq, and_assoc]

/-- What is in the hotspot of an input is not in the body of its node. -/
theorem Node.not_body_of_inputHotspot {n : Node} {v : Viewport} {size : Offset} {index : Nat}
    {p : Point} (h : (inputHotspot size (v.toScreen (n.inputAnchor index))).contains p = true) :
    (v.rectToScreen n.rect).contains p = false := by
  rw [Bool.eq_false_iff]
  intro hbody
  have hleft : p.x < n.position.x - v.scroll.x := (Rect.contains_iff.mp h).2.1
  have hright : n.position.x + -v.scroll.x < p.x := (Rect.contains_iff.mp hbody).1
  rw [Coordinate.sub_eq_add_neg] at hleft
  exact Coordinate.not_lt_of_lt hleft hright

namespace Graph

variable {g : Graph} {p : Point}

theorem exists_of_nodeAt? {id : NodeId} (h : g.nodeAt? p = some id) :
    ∃ n ∈ g.nodes, n.id = id ∧ (g.viewport.rectToScreen n.rect).contains p = true := by
  obtain ⟨n, hn, rfl⟩ := Option.map_eq_some_iff.mp h
  have hcontains := List.find?_some hn
  exact ⟨n, List.mem_reverse.mp (List.mem_of_find?_eq_some hn), rfl, hcontains⟩

theorem mem_ids_of_nodeAt? {id : NodeId} (h : g.nodeAt? p = some id) : id ∈ g.ids := by
  obtain ⟨n, hn, rfl, -⟩ := exists_of_nodeAt? h
  exact id_mem_ids hn

theorem exists_of_outputAt? {id : NodeId} (h : g.outputAt? p = some id) :
    ∃ n ∈ g.nodes, n.id = id ∧
      (outputHotspot g.hotspotSize (g.viewport.toScreen n.outputAnchor)).contains p = true := by
  obtain ⟨n, hn, rfl⟩ := Option.map_eq_some_iff.mp h
  have hcontains := List.find?_some hn
  exact ⟨n, List.mem_reverse.mp (List.mem_of_find?_eq_some hn), rfl, hcontains⟩

theorem mem_ids_of_outputAt? {id : NodeId} (h : g.outputAt? p = some id) : id ∈ g.ids := by
  obtain ⟨n, hn, rfl, -⟩ := exists_of_outputAt? h
  exact id_mem_ids hn

theorem exists_of_inputAt? {hit : InputHit} (h : g.inputAt? p = some hit) :
    ∃ n ∈ g.nodes, n.id = hit.node ∧ hit.index < n.inputs.length ∧
      (inputHotspot g.hotspotSize
        (g.viewport.toScreen (n.inputAnchor hit.index))).contains p = true := by
  obtain ⟨⟨n, index⟩, hjack, rfl⟩ := Option.map_eq_some_iff.mp h
  have hcontains := List.find?_some hjack
  obtain ⟨m, hm, hindices⟩ :=
    List.mem_flatMap.mp (List.mem_reverse.mp (List.mem_of_find?_eq_some hjack))
  obtain ⟨i, hi, heq⟩ := List.mem_map.mp hindices
  obtain ⟨rfl, rfl⟩ := Prod.mk.inj heq
  exact ⟨_, hm, rfl, List.mem_range.mp hi, hcontains⟩

/-- With distinct identities, a hit on an input names an input of the patch. -/
theorem isSome_binding?_of_inputAt? (hnodup : g.ids.Nodup) {hit : InputHit}
    (h : g.inputAt? p = some hit) : (g.binding? hit.node hit.index).isSome := by
  obtain ⟨n, hn, hid, hindex, -⟩ := exists_of_inputAt? h
  have hnode : g.node? hit.node = some n := (node?_eq_some_iff hnodup).mpr ⟨hn, hid⟩
  rw [binding?, hnode, Option.bind_some, Node.binding?, List.getElem?_eq_getElem hindex]
  rfl

/-- With distinct identities, the body under a point is not that of the node whose input is. -/
theorem nodeAt?_ne_of_inputAt? (hnodup : g.ids.Nodup) {hit : InputHit}
    (h : g.inputAt? p = some hit) : g.nodeAt? p ≠ some hit.node := by
  intro hbody
  obtain ⟨n, hn, hid, -, hhotspot⟩ := exists_of_inputAt? h
  obtain ⟨m, hm, hid', hcontains⟩ := exists_of_nodeAt? hbody
  obtain rfl : m = n := eq_of_id_eq hnodup hn hm (hid'.trans hid.symm)
  rw [Node.not_body_of_inputHotspot hhotspot] at hcontains
  cases hcontains

end Graph

end Patchbay
