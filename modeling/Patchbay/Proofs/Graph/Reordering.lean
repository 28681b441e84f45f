import Patchbay.Proofs.Graph.Settling

/-!
# What the order of the nodes counts for

The nodes of a patch are evaluated in the order in which they were added. That order counts for
three things only: whether an input reads the output of this tick or of the one before, which
generator draws first, and how the lines of different loggers are mixed. Where two patches hold the
same nodes and agree on the first two, every node has the same outputs and states and logs the same
lines in both for ever (`Graph.ticks_reordered`).
-/

namespace Patchbay

/-- What of a node counts in a tick. -/
def Node.core (n : Node) : NodeKind × List Binding × Value × NodeState :=
  (n.kind, n.bindings, n.output, n.state)

/-- Whether a node draws in its evaluation. -/
def Node.draws (n : Node) : Bool := n.kind = .randomWordGenerator

namespace NodeKind

/-- All kinds but one leave the draws alone, and do the same whatever they are. -/
theorem evaluate_of_not_draws {kind : NodeKind} (h : kind ≠ .randomWordGenerator)
    (inputs : List Value) (now : Instant) (random random' : Random) (output : Value)
    (state : NodeState) :
    kind.evaluate inputs now random output state =
      { kind.evaluate inputs now random' output state with random := random } := by
  cases kind with
  | randomWordGenerator => exact absurd rfl h
  | echoer =>
    unfold evaluate
    by_cases hon : isOn inputs = true
    · simp only [hon, if_true]
    · simp only [hon]
      rfl
  | battery | pulsifier | memory | logger | calculator | comparison | conditionalPicker
  | numberCycler => rfl

end NodeKind

namespace Node

theorem core_eq_iff {n n' : Node} :
    n.core = n'.core ↔ n.kind = n'.kind ∧ n.bindings = n'.bindings ∧ n.output = n'.output ∧
      n.state = n'.state := by
  simp only [core, Prod.mk.injEq]

/-- Like nodes that read and, if they draw, draw the same, are alike afterwards. -/
theorem core_after_eq {n n' : Node} (h : n.core = n'.core) (inputs : List Value) (now : Instant)
    {random random' : Random} (hrandom : n.draws = true → random = random') :
    (n.after (n.kind.evaluate inputs now random n.output n.state)).core =
      (n'.after (n'.kind.evaluate inputs now random' n'.output n'.state)).core := by
  obtain ⟨hkind, hbindings, houtput, hstate⟩ := core_eq_iff.mp h
  rw [core_eq_iff]
  refine ⟨hkind, hbindings, ?_⟩
  change (n.kind.evaluate inputs now random n.output n.state).output = _ ∧
    (n.kind.evaluate inputs now random n.output n.state).state = _
  rw [← hkind, ← houtput, ← hstate]
  by_cases hdraws : n.kind = .randomWordGenerator
  · rw [hrandom (decide_eq_true hdraws)]
    exact ⟨rfl, rfl⟩
  · rw [NodeKind.evaluate_of_not_draws hdraws inputs now random random']
    exact ⟨rfl, rfl⟩

end Node

namespace Graph

/-- The nodes that draw, in order. -/
def drawers (g : Graph) : List NodeId := (g.nodes.filter (·.draws)).map (·.id)

/-- Two patches of the same nodes that agree on what counts of the order. -/
structure Reordered (g g' : Graph) : Prop where
  /-- The nodes are the same. -/
  nodes : ∀ id, (g.node? id).map Node.core = (g'.node? id).map Node.core
  /-- The draws to come are the same. -/
  random : g.random = g'.random
  /-- Of a node and another that it reads from, the same one comes first. -/
  reads : ∀ n ∈ g.nodes, ∀ source ∈ n.sources, source ≠ n.id →
    (g.ids.idxOf source < g.ids.idxOf n.id ↔ g'.ids.idxOf source < g'.ids.idxOf n.id)
  /-- The nodes that draw come in the same order. -/
  drawers : g.drawers = g'.drawers

/-- The lines that are logged in one tick after the other. -/
def ticksLog (g : Graph) : List Instant → List LogLine
  | [] => []
  | now :: times => (g.tick now).log ++ ((g.tick now).graph.ticksLog times)

variable {g g' : Graph}

/-! ## The draws of a tick -/

theorem evaluateAll_congr (now : Instant) {inputs inputs' : Node → List Value}
    {nodes nodes' : List Node} (hids : nodes.map (·.id) = nodes'.map (·.id))
    (h : ∀ n ∈ nodes, ∀ n' ∈ nodes', n.id = n'.id →
      n.core = n'.core ∧ inputs n = inputs' n') (random : Random) :
    evaluateAll now inputs nodes random = evaluateAll now inputs' nodes' random := by
  induction nodes generalizing nodes' random with
  | nil =>
    obtain rfl : nodes' = [] := List.map_eq_nil_iff.mp hids.symm
    rfl
  | cons n rest ih =>
    cases nodes' with
    | nil => cases hids
    | cons n' rest' =>
      obtain ⟨hid, hrest⟩ := List.cons.inj hids
      obtain ⟨hcore, hinputs⟩ := h n List.mem_cons_self n' List.mem_cons_self hid
      obtain ⟨hkind, -, houtput, hstate⟩ := Node.core_eq_iff.mp hcore
      have htail := ih hrest fun m hm m' hm' =>
        h m (List.mem_cons_of_mem _ hm) m' (List.mem_cons_of_mem _ hm')
      simp only [evaluateAll, hkind, hinputs, houtput, hstate, htail]

theorem evaluateAll_append (now : Instant) (inputs : Node → List Value) (nodes rest : List Node)
    (random : Random) :
    let pass := evaluateAll now inputs nodes random
    let pass' := evaluateAll now inputs rest pass.2
    evaluateAll now inputs (nodes ++ rest) random = (pass.1 ++ pass'.1, pass'.2) := by
  induction nodes generalizing random with
  | nil => rfl
  | cons n nodes ih => simp only [List.cons_append, evaluateAll, ih]

theorem random_evaluateAll (now : Instant) (inputs : Node → List Value) (nodes : List Node)
    (random : Random) :
    (evaluateAll now inputs nodes random).2 =
      (evaluateAll now inputs (nodes.filter (·.draws)) random).2 := by
  induction nodes generalizing random with
  | nil => rfl
  | cons n nodes ih =>
    by_cases hdraws : n.draws = true
    · rw [List.filter_cons_of_pos hdraws]
      exact ih _
    · -- a node of any other kind hands the draws on as they are
      have hkind : n.kind ≠ .randomWordGenerator := fun h => hdraws (decide_eq_true h)
      rw [List.filter_cons_of_neg hdraws]
      change (evaluateAll now inputs nodes (n.kind.evaluate _ now random _ _).random).2 = _
      rw [NodeKind.evaluate_of_not_draws hkind _ now random random]
      exact ih random

theorem node?_tick_of_split (hs : g.Sound) {early rest : List Node} {n : Node}
    (hsplit : g.nodes = early ++ n :: rest) (now : Instant) :
    let inputs := inputsIn g.nodes (g.tick now).graph.nodes
    let draws := (evaluateAll now inputs (early.filter (·.draws)) g.random).2
    (g.tick now).graph.node? n.id =
      some (n.after (n.kind.evaluate (inputs n) now draws n.output n.state)) := by
  intro inputs draws
  refine node?_tick_of_mem_zip hs now ?_
  change _ ∈ g.nodes.zip (evaluateAll now inputs g.nodes g.random).1
  -- its evaluation is the first after those of the nodes in front of it
  rw [hsplit, evaluateAll_append, random_evaluateAll]
  dsimp only
  rw [List.zip_append (length_evaluateAll now inputs early g.random).symm]
  exact List.mem_append_right _ List.mem_cons_self

/-! ## The same nodes in another order -/

theorem node?_eq_of_perm (hnodup : g.ids.Nodup) (h : g.nodes.Perm g'.nodes) (id : NodeId) :
    g.node? id = g'.node? id := by
  have hnodup' : g'.ids.Nodup := (h.map _).nodup_iff.mp hnodup
  refine Option.ext fun n => ?_
  rw [node?_eq_some_iff hnodup, node?_eq_some_iff hnodup', h.mem_iff]

theorem Reordered.mem_ids_iff (h : g.Reordered g') (id : NodeId) :
    id ∈ g.ids ↔ id ∈ g'.ids := mem_ids_iff_of_map_eq (h.nodes id)

theorem Reordered.core_eq (h : g.Reordered g') (hs : g.Sound) (hs' : g'.Sound) {n n' : Node}
    (hn : n ∈ g.nodes) (hn' : n' ∈ g'.nodes) (hid : n.id = n'.id) : n.core = n'.core := by
  have hcore := h.nodes n.id
  rw [(node?_eq_some_iff hs.nodup).mpr ⟨hn, rfl⟩,
    (node?_eq_some_iff hs'.nodup).mpr ⟨hn', hid.symm⟩] at hcore
  exact Option.some.inj hcore

theorem output_eq_of_core_eq {id : NodeId}
    (h : (g.node? id).map Node.core = (g'.node? id).map Node.core) :
    g.output id = g'.output id := by
  have houtput := congrArg (Option.map (·.2.2.1)) h
  rw [Option.map_map, Option.map_map] at houtput
  rw [output_eq, output_eq]
  exact congrArg (·.getD .unset) houtput

theorem Reordered.inputsIn_eq (h : g.Reordered g') (now : Instant) {n n' : Node}
    (hn : n ∈ g.nodes) (hid : n.id = n'.id) (hcore : n.core = n'.core)
    (hafter : ∀ source, g.ids.idxOf source < g.ids.idxOf n.id →
      (g.tick now).graph.output source = (g'.tick now).graph.output source) :
    inputsIn g.nodes (g.tick now).graph.nodes n =
      inputsIn g'.nodes (g'.tick now).graph.nodes n' := by
  obtain ⟨-, hbindings, -⟩ := Node.core_eq_iff.mp hcore
  rw [Graph.inputsIn_eq, Graph.inputsIn_eq, ← hbindings, ← hid]
  apply List.map_congr_left
  intro b hb
  cases b with
  | literal v => rfl
  | unbound => rfl
  | reference source =>
    change (if g.ids.idxOf source < g.ids.idxOf n.id then (g.tick now).graph.output source
        else g.output source) =
      if g'.ids.idxOf source < g'.ids.idxOf n.id then (g'.tick now).graph.output source
        else g'.output source
    by_cases hself : source = n.id
    · -- a node reads its own output of the tick before
      subst hself
      rw [if_neg (Nat.lt_irrefl _), if_neg (Nat.lt_irrefl _)]
      exact output_eq_of_core_eq (h.nodes n.id)
    · -- this tick's output or the one before, and in both patches the same of the two
      have hiff := h.reads n hn source (Node.mem_sources_iff.mpr hb) hself
      by_cases hlt : g.ids.idxOf source < g.ids.idxOf n.id
      · rw [if_pos hlt, if_pos (hiff.mp hlt)]
        exact hafter source hlt
      · rw [if_neg hlt, if_neg fun hlt' => hlt (hiff.mpr hlt')]
        exact output_eq_of_core_eq (h.nodes source)

theorem idxOf_lt_of_split (hs : g.Sound) {n m : Node} {early rest : List Node}
    (hsplit : g.nodes = early ++ n :: rest) (hm : m ∈ early) :
    g.ids.idxOf m.id < g.ids.idxOf n.id := by
  have hids : g.ids = early.map (·.id) ++ n.id :: rest.map (·.id) := by
    rw [ids, hsplit, List.map_append, List.map_cons]
  have hnodup := hs.nodup
  rw [hids] at hnodup ⊢
  have hnew : n.id ∉ early.map (·.id) := fun hmem =>
    List.disjoint_of_nodup_append hnodup hmem List.mem_cons_self
  exact (idxOf_lt_iff_mem hnew).mpr (List.mem_map_of_mem hm)

theorem Reordered.drawers_before (h : g.Reordered g') (hs : g.Sound) {n n' : Node}
    {early rest early' rest' : List Node} (hsplit : g.nodes = early ++ n :: rest)
    (hsplit' : g'.nodes = early' ++ n' :: rest') (hid : n.id = n'.id) (hdraws : n.draws = true)
    (hdraws' : n'.draws = true) :
    (early.filter (·.draws)).map (·.id) = (early'.filter (·.draws)).map (·.id) := by
  have hdrawers := h.drawers
  unfold Graph.drawers at hdrawers
  have hnodup : (g.nodes.map (·.id)).Nodup := hs.nodup
  rw [hsplit, List.map_append, List.map_cons] at hnodup
  have hsub (nodes : List Node) :
      ((nodes.filter (·.draws)).map (·.id)).Sublist (nodes.map (·.id)) :=
    List.filter_sublist.map _
  obtain ⟨-, hnew, hdisjoint⟩ := List.nodup_append'.mp hnodup
  rw [hsplit, hsplit', List.filter_append, List.filter_append, List.filter_cons_of_pos hdraws,
    List.filter_cons_of_pos hdraws', List.map_append, List.map_append, List.map_cons,
    List.map_cons] at hdrawers
  -- the node is there only once, so both lists of drawers are split at the same place
  refine ((List.append_cons_inj_of_notMem ?_ ?_).mp hdrawers).1
  · rw [← hid]
    exact fun hmem => hdisjoint ((hsub early).subset hmem) List.mem_cons_self
  · rw [← hid]
    exact fun hmem => (List.nodup_cons.mp hnew).1 ((hsub rest).subset hmem)

/-- Every node is the same after a tick. -/
theorem Reordered.core_tick_eq (h : g.Reordered g') (hs : g.Sound) (hs' : g'.Sound)
    (now : Instant) {n n' : Node} (hn : n ∈ g.nodes) (hn' : n' ∈ g'.nodes) (hid : n.id = n'.id) :
    ((g.tick now).graph.node? n.id).map Node.core =
      ((g'.tick now).graph.node? n.id).map Node.core := by
  -- along the first order: the nodes in front are the same in both patches already
  induction hplace : g.ids.idxOf n.id using Nat.strong_induction_on generalizing n n' with
  | _ place ih =>
    have hafter : ∀ source, g.ids.idxOf source < place →
        (g.tick now).graph.output source = (g'.tick now).graph.output source := by
      intro source hlt
      have hmem : source ∈ g.ids := by
        rw [← List.idxOf_lt_length_iff]
        exact Nat.lt_of_lt_of_le hlt (hplace ▸ List.idxOf_le_length)
      obtain ⟨m, hm, rfl⟩ := mem_ids.mp hmem
      obtain ⟨m', hm', hid'⟩ := mem_ids.mp ((h.mem_ids_iff m.id).mp hmem)
      exact output_eq_of_core_eq (ih _ hlt hm hm' hid'.symm rfl)
    have hinputs : ∀ m ∈ g.nodes, ∀ m' ∈ g'.nodes, m.id = m'.id → g.ids.idxOf m.id ≤ place →
        inputsIn g.nodes (g.tick now).graph.nodes m =
          inputsIn g'.nodes (g'.tick now).graph.nodes m' := by
      intro m hm m' hm' hid' hle
      exact h.inputsIn_eq now hm hid' (h.core_eq hs hs' hm hm' hid')
        fun source hlt => hafter source (Nat.lt_of_lt_of_le hlt hle)
    obtain ⟨early, rest, hsplit⟩ := List.append_of_mem hn
    obtain ⟨early', rest', hsplit'⟩ := List.append_of_mem hn'
    have hcore := h.core_eq hs hs' hn hn' hid
    have hfound := node?_tick_of_split hs hsplit now
    have hfound' := node?_tick_of_split hs' hsplit' now
    rw [hfound, hid, hfound', ← hinputs n hn n' hn' hid hplace.le]
    refine congrArg some (Node.core_after_eq hcore _ now fun hdraws => ?_)
    -- the nodes that have drawn before it are the same, and have read the same
    have hdraws' : n'.draws = true := by
      rwa [Node.draws, ← (Node.core_eq_iff.mp hcore).1]
    rw [h.random]
    refine congrArg Prod.snd (evaluateAll_congr now
      (h.drawers_before hs hsplit hsplit' hid hdraws hdraws') (fun m hm m' hm' hid' => ?_) _)
    obtain ⟨hearly, -⟩ := List.mem_filter.mp hm
    obtain ⟨hearly', -⟩ := List.mem_filter.mp hm'
    have hm : m ∈ g.nodes := hsplit ▸ List.mem_append_left _ hearly
    have hm' : m' ∈ g'.nodes := hsplit' ▸ List.mem_append_left _ hearly'
    have hlt : g.ids.idxOf m.id < place := hplace ▸ idxOf_lt_of_split hs hsplit hearly
    exact ⟨h.core_eq hs hs' hm hm' hid', hinputs m hm m' hm' hid' hlt.le⟩

/-! ## One tick -/

theorem Reordered.nodes_tick (h : g.Reordered g') (hs : g.Sound) (hs' : g'.Sound) (now : Instant)
    (id : NodeId) :
    ((g.tick now).graph.node? id).map Node.core =
      ((g'.tick now).graph.node? id).map Node.core := by
  by_cases hid : id ∈ g.ids
  · obtain ⟨n, hn, rfl⟩ := mem_ids.mp hid
    obtain ⟨n', hn', hid'⟩ := mem_ids.mp ((h.mem_ids_iff n.id).mp hid)
    exact h.core_tick_eq hs hs' now hn hn' hid'.symm
  · have hid' : id ∉ g'.ids := fun hmem => hid ((h.mem_ids_iff id).mpr hmem)
    rw [← ids_tick g now] at hid
    rw [← ids_tick g' now] at hid'
    rw [node?_eq_none hid, node?_eq_none hid']

theorem Reordered.inputsIn_tick_eq (h : g.Reordered g') (hs : g.Sound) (hs' : g'.Sound)
    (now : Instant) {n n' : Node} (hn : n ∈ g.nodes) (hn' : n' ∈ g'.nodes) (hid : n.id = n'.id) :
    inputsIn g.nodes (g.tick now).graph.nodes n =
      inputsIn g'.nodes (g'.tick now).graph.nodes n' :=
  h.inputsIn_eq now hn hid (h.core_eq hs hs' hn hn' hid) fun source _ =>
    output_eq_of_core_eq (h.nodes_tick hs hs' now source)

theorem Reordered.random_tick (h : g.Reordered g') (hs : g.Sound) (hs' : g'.Sound)
    (now : Instant) : (g.tick now).graph.random = (g'.tick now).graph.random := by
  have hleft {g : Graph} (hs : g.Sound) : (g.tick now).graph.random =
      (evaluateAll now (inputsIn g.nodes (g.tick now).graph.nodes) (g.nodes.filter (·.draws))
        g.random).2 := by
    rw [← random_evaluateAll]
    exact congrArg (·.graph.random) (tick_eq hs.nodup now)
  rw [hleft hs, hleft hs', h.random]
  refine congrArg Prod.snd (evaluateAll_congr now h.drawers (fun n hn n' hn' hid => ?_) _)
  obtain ⟨hn, -⟩ := List.mem_filter.mp hn
  obtain ⟨hn', -⟩ := List.mem_filter.mp hn'
  exact ⟨h.core_eq hs hs' hn hn' hid, h.inputsIn_tick_eq hs hs' now hn hn' hid⟩

theorem drawers_tick (g : Graph) (now : Instant) : (g.tick now).graph.drawers = g.drawers := by
  have hdrawers (g : Graph) : g.drawers =
      ((g.nodes.map fun n => (n.id, n.draws)).filter (·.2)).map (·.1) := by
    rw [drawers, List.filter_map, List.map_map]
    rfl
  rw [hdrawers, hdrawers, g.map_nodes_tick now fun _ _ => rfl]

/-- What counts of the order counts for ever. -/
theorem Reordered.tick (h : g.Reordered g') (hs : g.Sound) (hs' : g'.Sound) (now : Instant) :
    (g.tick now).graph.Reordered (g'.tick now).graph where
  nodes := h.nodes_tick hs hs' now
  random := h.random_tick hs hs' now
  reads n hn source hsource hother := by
    obtain ⟨m, hm, e, rfl⟩ := mem_nodes_tick hn
    rw [ids_tick, ids_tick]
    exact h.reads m hm source hsource hother
  drawers := by rw [drawers_tick, drawers_tick, h.drawers]

/-! ## The lines of one node -/

theorem node_of_logLine? {n : Node} {inputs : List Value} {line : LogLine}
    (h : n.logLine? inputs = some line) : line.node = n.id := by
  unfold Node.logLine? at h
  split at h
  · obtain rfl := Option.some.inj h
    rfl
  · cases h

theorem filter_id_eq {nodes : List Node} (hnodup : (nodes.map (·.id)).Nodup) (id : NodeId) :
    nodes.filter (·.id == id) = (nodes.find? (·.id == id)).toList := by
  induction nodes with
  | nil => rfl
  | cons n rest ih =>
    obtain ⟨hnew, hrest⟩ := List.nodup_cons.mp hnodup
    by_cases hid : n.id = id
    · -- the identities are distinct, so that no other node has this one
      have hothers : rest.filter (·.id == id) = [] := by
        rw [List.filter_eq_nil_iff]
        intro m hm hmid
        exact hnew (List.mem_map.mpr ⟨m, hm, (beq_iff_eq.mp hmid).trans hid.symm⟩)
      have hfound : (n.id == id) = true := beq_iff_eq.mpr hid
      rw [List.filter_cons, if_pos hfound, hothers, List.find?_cons, hfound]
      rfl
    · have hnot : (n.id == id) = false := beq_eq_false_iff_ne.mpr hid
      rw [List.filter_cons, hnot, List.find?_cons, hnot]
      exact ih hrest

theorem filter_lines {nodes : List Node} (hnodup : (nodes.map (·.id)).Nodup)
    (inputs : Node → List Value) (id : NodeId) :
    (nodes.filterMap fun n => n.logLine? (inputs n)).filter (·.node = id) =
      (nodes.find? (·.id == id)).toList.filterMap fun n => n.logLine? (inputs n) := by
  rw [← filter_id_eq hnodup, List.filter_filterMap, List.filterMap_filter]
  refine List.filterMap_congr fun n _ => ?_
  cases hline : n.logLine? (inputs n) with
  | none => simp
  | some line => simp [Option.filter, node_of_logLine? hline]

/-- The lines of one node in a tick are those that its inputs call for. -/
theorem Sound.filter_log_tick (hs : g.Sound) (now : Instant) (id : NodeId) :
    (g.tick now).log.filter (·.node = id) = (g.node? id).toList.filterMap fun n =>
      n.logLine? (inputsIn g.nodes (g.tick now).graph.nodes n) := by
  have hlines := congrArg Ticked.log (tick_eq hs.nodup now)
  dsimp only at hlines
  rw [hlines, linesOf_evaluateAll, filter_lines hs.nodup]
  rfl

theorem Reordered.log_tick (h : g.Reordered g') (hs : g.Sound) (hs' : g'.Sound) (now : Instant)
    (id : NodeId) :
    (g.tick now).log.filter (·.node = id) = (g'.tick now).log.filter (·.node = id) := by
  rw [hs.filter_log_tick, hs'.filter_log_tick]
  by_cases hid : id ∈ g.ids
  · obtain ⟨n, hn, rfl⟩ := mem_ids.mp hid
    obtain ⟨n', hn', hid'⟩ := mem_ids.mp ((h.mem_ids_iff n.id).mp hid)
    rw [(node?_eq_some_iff hs.nodup).mpr ⟨hn, rfl⟩,
      (node?_eq_some_iff hs'.nodup).mpr ⟨hn', hid'⟩]
    obtain ⟨hkind, -⟩ := Node.core_eq_iff.mp (h.core_eq hs hs' hn hn' hid'.symm)
    have hline : n.logLine? (inputsIn g.nodes (g.tick now).graph.nodes n) =
        n'.logLine? (inputsIn g'.nodes (g'.tick now).graph.nodes n') := by
      rw [h.inputsIn_tick_eq hs hs' now hn hn' hid'.symm, Node.logLine?, Node.logLine?, hkind, hid']
    simp only [Option.toList_some, List.filterMap_cons, List.filterMap_nil, hline]
  · rw [node?_eq_none hid, node?_eq_none fun hmem => hid ((h.mem_ids_iff id).mpr hmem)]
    rfl

theorem Reordered.ticks (h : g.Reordered g') (hs : g.Sound) (hs' : g'.Sound)
    (times : List Instant) :
    (g.ticks times).Reordered (g'.ticks times) ∧ ∀ id,
      (g.ticksLog times).filter (·.node = id) = (g'.ticksLog times).filter (·.node = id) := by
  induction times generalizing g g' with
  | nil => exact ⟨h, fun _ => rfl⟩
  | cons now times ih =>
    obtain ⟨hlater, hlog⟩ := ih (h.tick hs hs' now) (hs.tick now) (hs'.tick now)
    refine ⟨hlater, fun id => ?_⟩
    rw [ticksLog, ticksLog, List.filter_append, List.filter_append, h.log_tick hs hs', hlog]

/--
Two patches hold the same nodes in two orders, with the same draws to come. If both orders place a
node and any other that it reads from the same way round, and the nodes that draw too, then after
any ticks at the same times every node has the same output and state in both, the same draws are to
come, and every node has logged the same lines.
-/
theorem ticks_reordered (hg : g.Reachable) (hg' : g'.Reachable) (h : g.Reordered g')
    (times : List Instant) :
    (∀ id, ((g.ticks times).node? id).map Node.core =
        ((g'.ticks times).node? id).map Node.core) ∧
      (g.ticks times).random = (g'.ticks times).random ∧
      ∀ id, (g.ticksLog times).filter (·.node = id) =
        (g'.ticksLog times).filter (·.node = id) := by
  obtain ⟨hlater, hlog⟩ := h.ticks hg.sound hg'.sound times
  exact ⟨hlater.nodes, hlater.random, hlog⟩

/--
An echoer that reads from nobody and a word generator with its battery and its logger, in two
orders: the lines of the two loggers are mixed in two ways.
-/
theorem ticks_reordered_echoer :
    let battery := Node.ofType NodeKind.battery.nodeType (.ofNat 1)
    let words := ((Node.ofType NodeKind.randomWordGenerator.nodeType (.ofNat 2)).bind 0
      (.reference battery.id)).bind 1 (.literal (.text "a,b,c"))
    let logger := ((Node.ofType NodeKind.logger.nodeType (.ofNat 3)).bind 0
      (.reference battery.id)).bind 1 (.reference words.id)
    let echoer := ((Node.ofType NodeKind.echoer.nodeType (.ofNat 4)).bind 0
      (.literal (.bool true))).bind 1 (.literal (.text "on"))
    let patch (nodes : List Node) : Graph :=
      ((Session.ofGraph (.blank {} (.ofSeed 7))).run (nodes.map (.edit <| .add ·))).graph
    let g := patch [battery, words, logger, echoer]
    let g' := patch [echoer, battery, words, logger]
    let times : List Instant := [⟨0⟩, ⟨5⟩]
    g.ticksLog times ≠ g'.ticksLog times ∧
      (g.ticks times).random = (g'.ticks times).random ∧
      ∀ id, (g.ticksLog times).filter (·.node = id) =
        (g'.ticksLog times).filter (·.node = id) := by
  intro battery words logger echoer patch g g' times
  have hperm : g.nodes.Perm g'.nodes := by decide +kernel
  have hg : g.Reachable := ⟨_, _, _, rfl⟩
  have hrandom : g.random = g'.random := rfl
  have hreordered : g.Reordered g' :=
    { nodes := fun id => by rw [node?_eq_of_perm hg.sound.nodup hperm]
      random := hrandom
      reads := by decide +kernel
      drawers := by decide +kernel }
  have hmixed : g.ticksLog times ≠ g'.ticksLog times := by decide +kernel
  exact ⟨hmixed, (ticks_reordered hg ⟨_, _, _, rfl⟩ hreordered times).2⟩

end Graph

end Patchbay
