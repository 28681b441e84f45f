import Patchbay.Proofs.Graph.Reordering

/-!
# Isolation

Nodes that read only from each other are not touched by the rest of the patch, as long as nobody
else draws. A tick of the whole patch does to them what a tick of the patch without the others does
(`Graph.Isolated.tick_only`), so that they have the same outputs and states and log the same lines
for ever (`Graph.isolated_ticks`).
-/

namespace Patchbay

namespace Node

/-- Whether a node is one of those named. -/
def among (S : Finset NodeId) (n : Node) : Bool := n.id ∈ S

/-- An evaluation depends only on the outputs of the nodes that are read. -/
theorem evaluate_congr {n : Node} {output output' : NodeId → Value}
    (h : ∀ source ∈ n.sources, output source = output' source) (now : Instant)
    (random : Random) : n.evaluate output now random = n.evaluate output' now random := by
  have hreads : n.bindings.map (·.resolve output) = n.bindings.map (·.resolve output') := by
    refine List.map_congr_left fun b hb => ?_
    cases b with
    | literal v | unbound => rfl
    | reference source => exact h source (mem_sources_iff.mpr hb)
  rw [evaluate, evaluate, hreads]

end Node

namespace Graph

/-- The patch with only some of its nodes, in the same order and with the same draws to come. -/
def only (g : Graph) (S : Finset NodeId) : Graph :=
  { g with
    nodes := g.nodes.filter (Node.among S)
    selected := g.selected.filter (· ∈ S) }

/-- Nodes that read only from each other, while no other node draws. -/
structure Isolated (g : Graph) (S : Finset NodeId) : Prop where
  closed : ∀ n ∈ g.nodes, n.id ∈ S → ∀ source ∈ n.sources, source ∈ S
  draws : ∀ n ∈ g.nodes, n.id ∉ S → n.draws = false

variable {g : Graph} {S : Finset NodeId}

/-! ## The patch without the others -/

theorem only_eq_self (hs : g.Sound) (h : ∀ id ∈ g.ids, id ∈ S) : g.only S = g := by
  have hnodes : g.nodes.filter (Node.among S) = g.nodes :=
    List.filter_eq_self.mpr fun n hn => decide_eq_true (h n.id (id_mem_ids hn))
  have hselected : g.selected.filter (· ∈ S) = g.selected := by
    cases hsel : g.selected with
    | none => rfl
    | some id => exact Option.filter_some_pos (decide_eq_true (h id (hs.selected_mem id hsel)))
  rw [only, hnodes, hselected]

/-- To remove another node is felt by none of those that are isolated. -/
theorem Isolated.only_without (h : g.Isolated S) {id : NodeId} (hid : id ∉ S) :
    (g.without id).only S = g.only S := by
  have hothers : (g.nodes.filter (·.id ≠ id)).filter (Node.among S) =
      g.nodes.filter (Node.among S) := by
    rw [List.filter_filter]
    refine List.filter_congr fun n _ => ?_
    rw [Node.among, ← Bool.decide_and, decide_eq_decide]
    exact and_iff_left_of_imp fun hn heq => hid (heq ▸ hn)
  have hnodes : (g.without id).nodes.filter (Node.among S) = g.nodes.filter (Node.among S) := by
    change ((g.nodes.filter (·.id ≠ id)).map (·.keepReferences (· != id))).filter _ = _
    rw [List.filter_map]
    change ((g.nodes.filter (·.id ≠ id)).filter (Node.among S)).map _ = _
    rw [hothers]
    refine (List.map_congr_left fun n hn => ?_).trans (List.map_id _)
    obtain ⟨hn, hmem⟩ := List.mem_filter.mp hn
    refine Node.keepReferences_eq_self fun source hsource => ?_
    have hread := h.closed n hn (of_decide_eq_true hmem) source hsource
    exact bne_iff_ne.mpr fun heq => hid (heq ▸ hread)
  have hselected : (g.without id).selected.filter (· ∈ S) = g.selected.filter (· ∈ S) := by
    change (if g.selected = some id then none else g.selected).filter _ = _
    split
    · rename_i hsel
      rw [hsel, Option.filter_some_neg (by simpa using hid)]
      rfl
    · rfl
  unfold only
  rw [hnodes, hselected]
  rfl

theorem Isolated.without (h : g.Isolated S) (id : NodeId) : (g.without id).Isolated S where
  closed n hn hmem source hsource := by
    obtain ⟨m, hm, rfl⟩ := List.mem_map.mp hn
    refine h.closed m (List.mem_filter.mp hm).1 hmem source ?_
    exact (Node.mem_sources_keepReferences hsource).1
  draws n hn hmem := by
    obtain ⟨m, hm, rfl⟩ := List.mem_map.mp hn
    exact h.draws m (List.mem_filter.mp hm).1 hmem

theorem Reachable.without (hg : g.Reachable) {id : NodeId} (hid : id ∈ g.ids) :
    (g.without id).Reachable := by
  obtain ⟨config, random, actions, hrun⟩ := hg
  refine ⟨config, random, actions ++ [.edit (.remove id)], ?_⟩
  obtain ⟨n, hn⟩ := exists_node? hid
  have hremove : g.remove id = ⟨some n, g.without id, g.removalEvents id⟩ := by
    unfold Graph.remove
    rw [hn]
  rw [Session.run, List.foldl_append]
  change (Graph.remove (Session.run _ actions).graph id).graph = _
  rw [hrun, hremove]

/-- The patch without the others is what is left when they are removed. -/
theorem Isolated.reachable_only (h : g.Isolated S) (hg : g.Reachable) : (g.only S).Reachable := by
  induction hothers : g.ids.filter (· ∉ S) generalizing g with
  | nil =>
    have hall : ∀ id ∈ g.ids, id ∈ S := by
      simpa [List.filter_eq_nil_iff] using hothers
    rw [only_eq_self hg.sound hall]
    exact hg
  | cons id rest ih =>
    have hmem : id ∈ g.ids.filter (· ∉ S) := hothers ▸ List.mem_cons_self
    obtain ⟨hid, hout⟩ := List.mem_filter.mp hmem
    rw [← h.only_without (of_decide_eq_true hout)]
    refine ih (h.without id) (hg.without hid) ?_
    -- the identities are distinct, so that one is gone and the rest are still to go
    have hnew : id ∉ rest := by
      have hnodup : (g.ids.filter (· ∉ S)).Nodup := hg.sound.nodup.filter _
      rw [hothers] at hnodup
      exact (List.nodup_cons.mp hnodup).1
    rw [ids_without, List.filter_comm, hothers, List.filter_cons_of_neg (by simp),
      List.filter_eq_self]
    exact fun other hother => decide_eq_true fun heq => hnew (heq ▸ hother)

/-! ## Ticks -/

theorem outputIn_filter {source : NodeId} (h : source ∈ S) (nodes : List Node) :
    outputIn (nodes.filter (Node.among S)) source = outputIn nodes source := by
  have hfound : (nodes.filter (Node.among S)).find? (·.id == source) =
      nodes.find? (·.id == source) := by
    rw [List.find?_filter]
    congr 1
    funext n
    by_cases hid : n.id = source <;> simp [Node.among, hid, h]
  rw [outputIn, outputIn, hfound]

theorem filter_line (id : NodeId) (text : Option String) :
    (text.map (LogLine.mk id)).toList.filter (·.node ∈ S) =
      if id ∈ S then (text.map (LogLine.mk id)).toList else [] := by
  cases text with
  | none => simp
  | some text => simp [List.filter_cons]

/--
The rest of a tick, of which the patch without the others does its part: the nodes passed and those
to come are those of the whole patch that are isolated.
-/
theorem tickNodes_filter (now : Instant) {rest : List Node}
    (hclosed : ∀ n ∈ rest, n.id ∈ S → ∀ source ∈ n.sources, source ∈ S)
    (hdraws : ∀ n ∈ rest, n.id ∉ S → n.draws = false) (passed : List Node) (random : Random) :
    let whole := tickNodes now passed rest random
    let part := tickNodes now (passed.filter (Node.among S)) (rest.filter (Node.among S)) random
    part.1 = whole.1.filter (Node.among S) ∧ part.2.1 = whole.2.1 ∧
      part.2.2.2 = whole.2.2.2.filter (·.node ∈ S) := by
  induction rest generalizing passed random with
  | nil => exact ⟨rfl, rfl, rfl⟩
  | cons n rest ih =>
    obtain ⟨hread, hclosed⟩ := List.forall_mem_cons.mp hclosed
    obtain ⟨hdraw, hdraws⟩ := List.forall_mem_cons.mp hdraws
    let e := n.evaluate (outputIn (passed ++ n :: rest)) now random
    obtain ⟨hnodes, hrandom, hlog⟩ := ih hclosed hdraws (passed ++ [n.after e]) e.random
    rw [List.filter_append] at hnodes hrandom hlog
    dsimp only
    rw [tickNodes_cons now passed n rest random, List.filter_append, filter_line]
    by_cases hid : n.id ∈ S
    · have hmem : n.among S = true := decide_eq_true hid
      have hafter : [n.after e].filter (Node.among S) = [n.after e] :=
        List.filter_cons_of_pos hmem
      -- all that it reads is isolated too
      have he : n.evaluate (outputIn (passed.filter (Node.among S) ++
          n :: rest.filter (Node.among S))) now random = e := by
        refine Node.evaluate_congr (fun source hsource => ?_) now random
        rw [← List.filter_cons_of_pos hmem, ← List.filter_append]
        exact outputIn_filter (hread hid source hsource) _
      rw [hafter] at hnodes hrandom hlog
      rw [List.filter_cons_of_pos hmem, tickNodes_cons, he, if_pos hid, ← hlog]
      exact ⟨hnodes, hrandom, rfl⟩
    · have hmem : ¬ n.among S = true := fun h => hid (of_decide_eq_true h)
      have hafter : [n.after e].filter (Node.among S) = [] := List.filter_cons_of_neg hmem
      -- one of the others takes no draw from those to come
      have hkind : n.kind ≠ .randomWordGenerator := of_decide_eq_false (hdraw hid)
      have hhanded : e.random = random :=
        congrArg Evaluation.random (NodeKind.evaluate_of_not_draws hkind _ now random random _ _)
      rw [hafter, List.append_nil, hhanded] at hnodes hrandom hlog
      rw [List.filter_cons_of_neg hmem, if_neg hid, List.nil_append]
      change _ = (tickNodes now (passed ++ [n.after e]) rest e.random).1.filter _ ∧
        _ = (tickNodes now (passed ++ [n.after e]) rest e.random).2.1 ∧
        _ = (tickNodes now (passed ++ [n.after e]) rest e.random).2.2.2.filter _
      rw [hhanded]
      exact ⟨hnodes, hrandom, hlog⟩

theorem Isolated.tick (h : g.Isolated S) (now : Instant) : (g.tick now).graph.Isolated S where
  closed n hn := by
    obtain ⟨m, hm, e, rfl⟩ := mem_nodes_tick hn
    exact h.closed m hm
  draws n hn := by
    obtain ⟨m, hm, e, rfl⟩ := mem_nodes_tick hn
    exact h.draws m hm

/-- A tick of the patch without the others is the tick of the whole patch, as far as they go. -/
theorem Isolated.tick_only (h : g.Isolated S) (now : Instant) :
    ((g.only S).tick now).graph = (g.tick now).graph.only S ∧
      ((g.only S).tick now).log = (g.tick now).log.filter (·.node ∈ S) := by
  obtain ⟨hnodes, hrandom, hlog⟩ := tickNodes_filter now h.closed h.draws [] g.random
  refine ⟨?_, hlog⟩
  unfold Graph.tick only
  dsimp only
  rw [← hnodes, ← hrandom]
  rfl

theorem Isolated.ticks_only (h : g.Isolated S) (times : List Instant) :
    (g.only S).ticks times = (g.ticks times).only S ∧
      (g.only S).ticksLog times = (g.ticksLog times).filter (·.node ∈ S) := by
  induction times generalizing g with
  | nil => exact ⟨rfl, rfl⟩
  | cons now times ih =>
    obtain ⟨hgraph, hlog⟩ := h.tick_only now
    obtain ⟨hlater, hlines⟩ := ih (h.tick now)
    refine ⟨?_, ?_⟩
    · change ((g.only S).tick now).graph.ticks times = _
      rw [hgraph]
      exact hlater
    · rw [ticksLog, ticksLog, List.filter_append, hlog, hgraph, hlines]

/--
Nodes of a patch that read only from each other, while no other node draws, do in any ticks what
they would do in the patch that is left when the others are removed: they have the same outputs and
states and log the same lines in the same order, whatever the others are.
-/
theorem isolated_ticks (hg : g.Reachable) (h : g.Isolated S) (times : List Instant) :
    (g.only S).Reachable ∧ (g.only S).ticks times = (g.ticks times).only S ∧
      (g.only S).ticksLog times = (g.ticksLog times).filter (·.node ∈ S) :=
  ⟨h.reachable_only hg, h.ticks_only times⟩

/--
An echoer that reads from a word generator puts its lines between those of a logger, which do not
change.
-/
theorem isolated_ticks_echoed :
    let battery := Node.ofType NodeKind.battery.nodeType (.ofNat 1)
    let words := ((Node.ofType NodeKind.randomWordGenerator.nodeType (.ofNat 2)).bind 0
      (.reference battery.id)).bind 1 (.literal (.text "a,b,c"))
    let echoer := ((Node.ofType NodeKind.echoer.nodeType (.ofNat 3)).bind 0
      (.reference battery.id)).bind 1 (.reference words.id)
    let logger := ((Node.ofType NodeKind.logger.nodeType (.ofNat 4)).bind 0
      (.reference battery.id)).bind 1 (.reference words.id)
    let g := ((Session.ofGraph (.blank {} (.ofSeed 7))).run
      ([battery, words, echoer, logger].map (.edit <| .add ·))).graph
    let S : Finset NodeId := {battery.id, words.id, logger.id}
    let times : List Instant := [⟨0⟩, ⟨5⟩]
    (g.ticksLog times).map (·.node) = [echoer.id, logger.id, echoer.id, logger.id] ∧
      (g.only S).ids = [battery.id, words.id, logger.id] ∧
      (g.only S).ticks times = (g.ticks times).only S ∧
      (g.only S).ticksLog times = (g.ticksLog times).filter (·.node ∈ S) := by
  intro battery words echoer logger g S times
  have hlines : (g.ticksLog times).map (·.node) =
      [echoer.id, logger.id, echoer.id, logger.id] := by decide +kernel
  have hids : (g.only S).ids = [battery.id, words.id, logger.id] := by decide +kernel
  have hisolated : g.Isolated S := ⟨by decide +kernel, by decide +kernel⟩
  exact ⟨hlines, hids, (isolated_ticks ⟨_, _, _, rfl⟩ hisolated times).2⟩

end Graph

end Patchbay
