import Patchbay.Proofs.Demo.Building
import Patchbay.Proofs.Evaluation.Pulse
import Patchbay.Proofs.Graph.Reordering

/-!
# Lines of the demonstration

Every node of the demonstration reads only from nodes in front of it, so that within one tick the
number of the cycler reaches the comparison, the pulsifier and the logger (`Demo.Runs.tick_node`).
What is carried from tick to tick is the latch of the pulsifier, which tells whether the number was
past one half in the tick before (`Demo.Runs`). So the logger writes one line each time that the
number gets past one half, with the word of that tick, whatever else is in the patch
(`Demo.logs_once_per_cycle`).
-/

namespace Patchbay

namespace Demo

open Patchbay.Graph

/-- Whether a value is a number past one half. -/
def isPastHalf : Value → Bool
  | .number x => x.order? 0.5 == some .gt
  | _ => false

/-- The words that the generator chooses from. -/
def vocabulary : List String := ["Apple", "Banana", "Chair", "Rainbow", "Unicorn"]

variable {d : Demo} {g : Graph}

theorem comparison_half (v : Value) :
    (Value.text ">").comparison v (.number 0.5) = isPastHalf v := by
  cases v <;> rfl

theorem wordsOf_wordList : wordsOf wordList = vocabulary := by decide

/-- Each node of the demonstration reads only from those in front of it. -/
theorem exists_split_of_mem_parts {part : NodeId × NodeKind × List Binding}
    (h : part ∈ d.parts) : ∃ front back, d.ids = front ++ part.1 :: back ∧
      ∀ source, .reference source ∈ part.2.2 → source ∈ front := by
  simp only [parts, List.mem_cons, List.not_mem_nil, or_false] at h
  rcases h with rfl | rfl | rfl | rfl | rfl | rfl
  · exact ⟨[], _, rfl, by simp⟩
  · exact ⟨[d.battery], _, rfl, by simp⟩
  · exact ⟨[d.battery, d.words], _, rfl, by simp⟩
  · exact ⟨[d.battery, d.words, d.cycler], _, rfl, by simp⟩
  · exact ⟨[d.battery, d.words, d.cycler, d.comparison], _, rfl, by simp⟩
  · exact ⟨[d.battery, d.words, d.cycler, d.comparison, d.pulse], _, rfl, by simp⟩

/-- What every tick keeps of a patch with the demonstration on top. -/
structure Runs (d : Demo) (g : Graph) : Prop where
  sound : g.Sound
  /-- The nodes on top are those of the demonstration. -/
  onTop : ∃ front, g.nodes.map Node.part = front ++ d.parts
  /-- The latch tells whether the number was past one half; without it there is no pulse. -/
  latch : ∀ n, g.node? d.pulse = some n →
    n.state.wasTriggered = isPastHalf (g.output d.cycler) ∧
      (n.state.wasTriggered = false → n.output.isTruthy = false)

theorem Runs.ids_eq (h : d.Runs g) : ∃ front, g.ids = front ++ d.ids := by
  obtain ⟨front, hparts⟩ := h.onTop
  have hids := congrArg (List.map Prod.fst) hparts
  rw [List.map_map, List.map_append] at hids
  exact ⟨_, hids⟩

/-- An input of the demonstration reads what the tick gives. -/
theorem Runs.readIn_eq (h : d.Runs g) {part : NodeId × NodeKind × List Binding}
    (hpart : part ∈ d.parts) (after : List Node) {b : Binding} (hb : b ∈ part.2.2) :
    readIn g.nodes after part.1 b = b.resolve (outputIn after) := by
  cases b with
  | literal v => rfl
  | unbound => rfl
  | reference source =>
    obtain ⟨front, back, hsplit, hfront⟩ := exists_split_of_mem_parts hpart
    obtain ⟨early, hids⟩ := h.ids_eq
    rw [hsplit, ← List.append_assoc] at hids
    have hnodup := h.sound.nodup
    rw [hids] at hnodup
    have hnew : part.1 ∉ early ++ front := fun hmem =>
      List.disjoint_of_nodup_append hnodup hmem List.mem_cons_self
    have hbefore : g.ids.idxOf source < g.ids.idxOf part.1 := by
      rw [hids, idxOf_lt_iff_mem hnew]
      exact List.mem_append_right _ (hfront source hb)
    exact if_pos hbefore

/-- A node of the demonstration in a tick: its inputs read what this tick gives. -/
theorem Runs.tick_node (h : d.Runs g) (now : Instant) (k : Nat) {id : NodeId} {kind : NodeKind}
    {bindings : List Binding} (hpart : d.parts[k]? = some (id, kind, bindings)) :
    let after := (g.tick now).graph
    let inputs := bindings.map (·.resolve after.output)
    ∃ n draws, g.node? id = some n ∧ n.kind = kind ∧
      inputsIn g.nodes after.nodes n = inputs ∧
      after.node? id = some (n.after (kind.evaluate inputs now draws n.output n.state)) := by
  intro after inputs
  have hmem : (id, kind, bindings) ∈ d.parts := List.mem_of_getElem? hpart
  obtain ⟨front, hparts⟩ := h.onTop
  obtain ⟨n, hn, hpart'⟩ : ∃ n ∈ g.nodes, n.part = (id, kind, bindings) := by
    rw [← List.mem_map, hparts]
    exact List.mem_append_right _ hmem
  obtain ⟨rfl, rfl, rfl⟩ : n.id = id ∧ n.kind = kind ∧ n.bindings = bindings := by
    simpa [Node.part] using hpart'
  have hinputs : inputsIn g.nodes after.nodes n = inputs := by
    rw [inputsIn_eq]
    exact List.map_congr_left fun b hb => h.readIn_eq hmem after.nodes hb
  obtain ⟨draws, e, he, hafter, -⟩ := exists_node?_tick h.sound hn now
  rw [hinputs] at he
  exact ⟨n, draws, (node?_eq_some_iff h.sound.nodup).mpr ⟨hn, rfl⟩, rfl, hinputs, he ▸ hafter⟩

/-- The output of a node of the demonstration after a tick. -/
theorem Runs.output_tick (h : d.Runs g) (now : Instant) (k : Nat) {id : NodeId} {kind : NodeKind}
    {bindings : List Binding} (hpart : d.parts[k]? = some (id, kind, bindings)) :
    let after := (g.tick now).graph
    ∃ output draws state, after.output id =
      (kind.evaluate (bindings.map (·.resolve after.output)) now draws output state).output := by
  intro after
  obtain ⟨n, draws, -, -, -, hafter⟩ := h.tick_node now k hpart
  exact ⟨n.output, draws, n.state, by rw [output_eq, hafter]; rfl⟩

theorem Runs.output_battery (h : d.Runs g) (now : Instant) :
    (g.tick now).graph.output d.battery = .bool true := by
  obtain ⟨_, _, _, houtput⟩ := h.output_tick now 0 rfl
  exact houtput

theorem Runs.output_comparison (h : d.Runs g) (now : Instant) :
    (g.tick now).graph.output d.comparison =
      .bool (isPastHalf ((g.tick now).graph.output d.cycler)) := by
  obtain ⟨_, _, _, houtput⟩ := h.output_tick now 3 rfl
  rw [← comparison_half]
  exact houtput

theorem exists_pickWord (output : Value) (draws : Random) :
    ∃ word ∈ wordsOf wordList,
      (NodeKind.pickWord [.bool true, .text wordList] output draws).1 = .text word := by
  have hlength : 0 < (wordsOf wordList).length := by decide
  have hindex := draws.below_lt hlength
  refine ⟨(wordsOf wordList)[(draws.below (wordsOf wordList).length).1],
    List.getElem_mem hindex, ?_⟩
  change Value.text ((wordsOf wordList)[(draws.below (wordsOf wordList).length).1]?.getD "") = _
  rw [List.getElem?_eq_getElem hindex, Option.getD_some]

/-- The word generator shows one of its words after every tick. -/
theorem Runs.exists_word (h : d.Runs g) (now : Instant) :
    ∃ word ∈ wordsOf wordList, (g.tick now).graph.output d.words = .text word := by
  obtain ⟨output, draws, _, houtput⟩ := h.output_tick now 1 rfl
  obtain ⟨word, hword, hpick⟩ := exists_pickWord output draws
  refine ⟨word, hword, houtput.trans ?_⟩
  simp only [List.map_cons, List.map_nil, Binding.resolve, h.output_battery]
  exact hpick

/-- The logger writes the word of the tick when the pulsifier is on in it. -/
theorem Runs.filter_log_tick (h : d.Runs g) (now : Instant) :
    let after := (g.tick now).graph
    (g.tick now).log.filter (·.node = d.logger) =
      if (after.output d.pulse).isTruthy then [⟨d.logger, (after.output d.words).display⟩]
      else [] := by
  intro after
  obtain ⟨n, -, hn, hkind, hinputs, -⟩ := h.tick_node now 5 rfl
  rw [h.sound.filter_log_tick, hn, Option.toList_some, List.filterMap_cons, hinputs,
    List.filterMap_nil, Node.logLine?, hkind, id_of_node? hn]
  by_cases hon : (after.output d.pulse).isTruthy = true
  · simp [Binding.resolve, after, hon]
  · simp [Binding.resolve, after, hon]

/-- The latch after a tick, and when there is a pulse in it. -/
theorem Runs.tick_pulse (h : d.Runs g) (now : Instant) {n : Node}
    (hn : g.node? d.pulse = some n) :
    let after := (g.tick now).graph
    let on := isPastHalf (after.output d.cycler)
    ∃ n', after.node? d.pulse = some n' ∧ n'.state.wasTriggered = on ∧
      n'.output.isTruthy = (on && !isPastHalf (g.output d.cycler)) := by
  intro after on
  obtain ⟨n', draws, hn', -, -, hafter⟩ := h.tick_node now 4 rfl
  obtain rfl : n = n' := Option.some.inj (hn.symm.trans hn')
  obtain ⟨hlatch, hquiet⟩ := h.latch n hn
  have hpulse : NodeKind.evaluate .pulsifier
      ([Binding.reference d.comparison].map (·.resolve after.output)) now draws n.output n.state =
        ⟨(NodeKind.pulse on n.output n.state).1, (NodeKind.pulse on n.output n.state).2, draws,
          none⟩ := by
    simp only [List.map_cons, List.map_nil, Binding.resolve, after, h.output_comparison]
    rfl
  rw [hpulse, NodeKind.pulse_eq, hlatch] at hafter
  refine ⟨_, hafter, rfl, ?_⟩
  rw [hlatch] at hquiet
  generalize on = on
  cases hpast : isPastHalf (g.output d.cycler) with
  | true => cases on <;> rfl
  | false =>
    cases on with
    | true => rfl
    | false => exact hquiet hpast

/-- A tick keeps the demonstration running. -/
theorem Runs.tick (h : d.Runs g) (now : Instant) : d.Runs (g.tick now).graph where
  sound := h.sound.tick now
  onTop := by
    rw [map_nodes_tick g now fun _ _ => rfl]
    exact h.onTop
  latch n' hn' := by
    obtain ⟨n, -, hn, -⟩ := h.tick_node now 4 rfl
    obtain ⟨m, hm, hlatch, hpulse⟩ := h.tick_pulse now hn
    obtain rfl : m = n' := Option.some.inj (hm.symm.trans hn')
    refine ⟨hlatch, fun hoff => ?_⟩
    rw [hpulse, ← hlatch, hoff, Bool.false_and]

theorem Runs.ticks (h : d.Runs g) (times : List Instant) : d.Runs (g.ticks times) := by
  induction times generalizing g with
  | nil => exact h
  | cons now times ih => exact ih (h.tick now)

/-- The lines of the logger in a tick. -/
theorem Runs.lines_tick (h : d.Runs g) (now : Instant) :
    let after := (g.tick now).graph
    ∃ word ∈ vocabulary, after.output d.words = .text word ∧
      (g.tick now).log.filter (·.node = d.logger) =
        if isPastHalf (after.output d.cycler) ∧ ¬isPastHalf (g.output d.cycler) then
          [⟨d.logger, word⟩]
        else [] := by
  intro after
  obtain ⟨word, hword, hshown⟩ := h.exists_word now
  obtain ⟨n, -, hn, -⟩ := h.tick_node now 4 rfl
  obtain ⟨n', hn', -, hpulse⟩ := h.tick_pulse now hn
  have houtput : after.output d.pulse = n'.output := by rw [output_eq, hn']; rfl
  refine ⟨word, wordsOf_wordList ▸ hword, hshown, ?_⟩
  rw [h.filter_log_tick, houtput, hpulse, hshown]
  refine if_congr ?_ rfl rfl
  simp [after]

/-- The demonstration runs once it is built. -/
theorem Runs.of_build {own : List Node} (hs : (g.topped own).Sound)
    (hparts : own.map Node.part = d.parts) (hnew : ∀ id ∈ d.ids, id ∉ g.ids)
    (hplain : ∀ n ∈ own, n.output = .unset ∧ n.state = {}) : d.Runs (g.topped own) := by
  have hcycler := output_topped (hnew d.cycler (by simp [ids])) fun n hn => (hplain n hn).1
  refine ⟨hs, ⟨g.nodes.map Node.part, ?_⟩, fun n hn => ?_⟩
  · rw [topped, List.map_append, hparts]
  · have hown := mem_of_node?_topped (hnew d.pulse (by simp [ids])) hn
    rw [hcycler, (hplain n hown).1, (hplain n hown).2]
    exact ⟨rfl, fun _ => rfl⟩

/--
Built under names that are not in use, the demonstration adds six nodes on top and six wires among
them, and changes nothing else. From then on, whatever is drawn and at whatever times ticks happen,
the logger writes in those ticks, and only in those, in which the number of the cycler is past one
half and was not in the tick before; it writes one line, the word that the generator shows in that
tick, which is one of the five.
-/
theorem logs_once_per_cycle (hg : g.Reachable) (hd : d.ids.Nodup)
    (hnew : ∀ id ∈ d.ids, id ∉ g.ids) :
    ∃ c own, d.build g = .ok c ∧ c.graph = { g with nodes := g.nodes ++ own } ∧
      own.map Node.part = d.parts ∧ c.graph.wires = g.wires ++ d.wires ∧
      ∀ (random : Random) (earlier : List Instant) (now : Instant),
        let before := { c.graph with random := random }.ticks earlier
        let t := before.tick now
        ∃ word ∈ ["Apple", "Banana", "Chair", "Rainbow", "Unicorn"],
          t.graph.output d.words = .text word ∧
          t.log.filter (·.node = d.logger) =
            if isPastHalf (t.graph.output d.cycler) ∧
                (earlier = [] ∨ ¬isPastHalf (before.output d.cycler)) then
              [⟨d.logger, word⟩]
            else [] := by
  obtain ⟨c, own, hbuild, hgraph, hsound, hparts, hplain⟩ := exists_build hg.sound hd hnew
  refine ⟨c, own, hbuild, hgraph, hparts, ?_, fun random earlier now => ?_⟩
  · rw [hgraph, wires_topped, flatMap_wiresIn hparts]
  rw [hgraph] at hsound ⊢
  have hstart : d.Runs ({ g with random := random }.topped own) :=
    .of_build (hsound.congr rfl rfl) hparts hnew hplain
  -- before the first tick the number is not there yet
  have hunset : (g.topped own).output d.cycler = .unset :=
    output_topped (hnew d.cycler (by simp [ids])) fun n hn => (hplain n hn).1
  have hfirst : isPastHalf ((g.topped own).output d.cycler) = false := by
    rw [hunset]
    rfl
  obtain ⟨word, hword, hshown, hlines⟩ := (hstart.ticks earlier).lines_tick now
  refine ⟨word, hword, hshown, hlines.trans (if_congr (and_congr_right fun _ => ?_) rfl rfl)⟩
  refine ⟨.inr, fun hother => hother.elim (fun hnone => ?_) id⟩
  rw [hnone]
  exact Bool.eq_false_iff.mp hfirst

/-- On top of a battery, with ticks at the start and after 1.2 seconds: the second logs a word. -/
theorem logs_once_per_cycle_beside_battery :
    let battery := Node.ofType NodeKind.battery.nodeType (.ofNat 7)
    let g := ((Session.ofGraph (blank {} (.ofSeed 1))).run [.edit (.add battery)]).graph
    let d : Demo := ⟨.ofNat 1, .ofNat 2, .ofNat 3, .ofNat 4, .ofNat 5, .ofNat 6⟩
    g.Reachable ∧ d.ids.Nodup ∧ (∀ id ∈ d.ids, id ∉ g.ids) ∧
      ∃ c, d.build g = .ok c ∧ c.graph.wires = d.wires ∧
        (c.graph.tick ⟨0⟩).log.filter (·.node = d.logger) = [] ∧
        ∃ word ∈ ["Apple", "Banana", "Chair", "Rainbow", "Unicorn"],
          ((c.graph.ticks [⟨0⟩]).tick ⟨1200000000⟩).log.filter (·.node = d.logger) =
            [⟨d.logger, word⟩] := by
  intro battery g d
  have hg : g.Reachable := ⟨_, _, _, rfl⟩
  have hd : d.ids.Nodup := by decide
  have hnew : ∀ id ∈ d.ids, id ∉ g.ids := by decide
  obtain ⟨c, own, hbuild, -, -, hwires, hlines⟩ := logs_once_per_cycle hg hd hnew
  -- the number is zero in the first tick and 0.6 in the second
  have hnumbers : (d.build g).toOption.map (fun c =>
      (isPastHalf ((c.graph.ticks [⟨0⟩]).output d.cycler),
        isPastHalf ((c.graph.ticks [⟨0⟩, ⟨1200000000⟩]).output d.cycler))) =
          some (false, true) := by decide +kernel
  rw [hbuild] at hnumbers
  obtain ⟨hfirst, hsecond⟩ := Prod.mk.inj (Option.some.inj hnumbers)
  obtain ⟨_, -, -, hstart⟩ := hlines c.graph.random [] ⟨0⟩
  obtain ⟨word, hword, -, hlater⟩ := hlines c.graph.random [⟨0⟩] ⟨1200000000⟩
  refine ⟨hg, hd, hnew, c, hbuild, hwires, hstart.trans (if_neg fun h => ?_), word, hword,
    hlater.trans (if_pos ⟨hsecond, .inr ?_⟩)⟩
  · exact Bool.eq_false_iff.mp hfirst h.1
  · exact Bool.eq_false_iff.mp hfirst

end Demo

end Patchbay
