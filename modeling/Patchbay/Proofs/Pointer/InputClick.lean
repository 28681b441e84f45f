import Patchbay.Proofs.Pointer.Report

/-!
# Clicks on the inputs of the selected node

A click on an input of the selected node cuts the wire that ends there, whatever else is under the
point. If none does, the body of another node decides: where there is one it is selected, and
otherwise nothing happens. So the selection stays exactly if a wire is cut or no body is there
(`Pointer.inputClick_effect`).
-/

namespace Patchbay

namespace Pointer

variable {g : Graph} {hit : InputHit} {p : Point}

/-! ## What a click finds -/

/-- A click on an input that reads from a node cuts the wire, whatever else is there. -/
theorem click_of_reference (hinput : g.inputAt? p = some hit) {source : NodeId}
    (hreads : g.binding? hit.node hit.index = some (.reference source)) :
    click g p =
      ⟨.wireDeleted ⟨source, hit.node, hit.index⟩, g.rebound hit.node hit.index .unbound,
        [.updated hit.node (.input hit.index)]⟩ := by
  have hwire : wireAt? g hit = some ⟨source, hit.node, hit.index⟩ :=
    wireAt?_eq_some_iff.mpr ⟨source, hreads, rfl⟩
  have hcut : g.bind hit.node hit.index .unbound =
      .ok ⟨.reference source, g.rebound hit.node hit.index .unbound,
        [.updated hit.node (.input hit.index)]⟩ :=
    Graph.bind_eq_ok_iff.mpr ⟨(fun _ h => nomatch h), .reference source, hreads, rfl⟩
  unfold click
  rw [hinput]
  dsimp only
  rw [Option.bind_some, hwire]
  dsimp only [Graph.clearInput]
  rw [hcut]
  rfl

theorem click_of_no_reference (hinput : g.inputAt? p = some hit)
    (hreads : ∀ source, g.binding? hit.node hit.index ≠ some (.reference source)) :
    click g p = clickNode g p (some hit) := by
  have hwire : wireAt? g hit = none := by
    rw [Option.eq_none_iff_forall_ne_some]
    intro w hw
    obtain ⟨source, hsource, -⟩ := wireAt?_eq_some_iff.mp hw
    exact hreads source hsource
  unfold click
  rw [hinput]
  dsimp only
  rw [Option.bind_some, hwire]

theorem clickNode_of_nodeAt? (hs : g.Sound) {id : NodeId} (hbody : g.nodeAt? p = some id)
    (hother : g.selected ≠ some id) (hit? : Option InputHit) :
    clickNode g p hit? =
      ⟨.selected id, g.withSelection (some id), [.selectionChanged (some id)]⟩ := by
  have hselect : g.select id =
      .ok ⟨(), g.reselect (some id), [.selectionChanged (some id)]⟩ := by
    rw [Graph.select, if_pos ((g.contains_iff id).mpr (Graph.mem_ids_of_nodeAt? hbody)),
      if_neg hother]
  unfold clickNode
  rw [hbody]
  dsimp only
  rw [if_neg hother, hselect, hs.reselect_eq]
  rfl

theorem clickNode_of_selected (hbody : g.nodeAt? p = none)
    (hselected : g.selected = some hit.node) :
    clickNode g p (some hit) = noChange g .ignored := by
  unfold clickNode
  rw [hbody]
  exact if_pos (decide_eq_true hselected)

theorem handleAll_click (g : Graph) {s : Pointer} (hidle : s.mode = .idle) (p : Point)
    (d d' : Offset) :
    s.handleAll g [.press ⟨p, d⟩, .release ⟨p, d'⟩] =
      (s, ⟨[.ignored, (click g p).result], (click g p).graph, (click g p).events⟩) := by
  obtain ⟨threshold, mode⟩ := s
  obtain rfl : mode = .idle := hidle
  have hjitter : Jitter threshold 0 [] := .nil
  exact hjitter.handleAll_click g ⟨p, d⟩ ⟨p, d'⟩

/--
A click of an idle pointer on an input of the selected node of any patch. If the input reads from a
node, the wire is cut, and nothing else changes. If it does not, the body of another node under the
point is selected, and where there is none nothing changes. So the selection stays exactly if a wire
is cut or there is no body under the point.
-/
theorem inputClick_effect (hg : g.Reachable) {s : Pointer} (hidle : s.mode = .idle)
    (hinput : g.inputAt? p = some hit) (hselected : g.selected = some hit.node) (d d' : Offset) :
    let r := s.handleAll g [.press ⟨p, d⟩, .release ⟨p, d'⟩]
    r.1 = s ∧
      (∀ source, g.binding? hit.node hit.index = some (.reference source) →
        r.2 = ⟨[.ignored, .wireDeleted ⟨source, hit.node, hit.index⟩],
          g.rebound hit.node hit.index .unbound, [.updated hit.node (.input hit.index)]⟩ ∧
        r.2.graph.binding? hit.node hit.index = some .unbound) ∧
      ((∀ source, g.binding? hit.node hit.index ≠ some (.reference source)) →
        (g.nodeAt? p = none → r.2 = ⟨[.ignored, .ignored], g, []⟩) ∧
        ∀ id, g.nodeAt? p = some id →
          id ≠ hit.node ∧
            r.2 = ⟨[.ignored, .selected id], g.withSelection (some id),
              [.selectionChanged (some id)]⟩) ∧
      (r.2.graph.selected = some hit.node ↔
        (∃ source, g.binding? hit.node hit.index = some (.reference source)) ∨
          g.nodeAt? p = none) := by
  have hs := hg.sound
  rw [handleAll_click g hidle]
  intro r
  have hcut (source) (hreads : g.binding? hit.node hit.index = some (.reference source)) :
      r.2 = ⟨[.ignored, .wireDeleted ⟨source, hit.node, hit.index⟩],
        g.rebound hit.node hit.index .unbound, [.updated hit.node (.input hit.index)]⟩ := by
    simp only [r, click_of_reference hinput hreads]
  have hnone (hreads : ∀ source, g.binding? hit.node hit.index ≠ some (.reference source))
      (hbody : g.nodeAt? p = none) : r.2 = ⟨[.ignored, .ignored], g, []⟩ := by
    simp only [r, click_of_no_reference hinput hreads, clickNode_of_selected hbody hselected]
    rfl
  -- the body of the node itself is to the right of its inputs
  have hother (id) (hbody : g.nodeAt? p = some id) : id ≠ hit.node := by
    rintro rfl
    exact Graph.nodeAt?_ne_of_inputAt? hs.nodup hinput hbody
  have hselect (hreads : ∀ source, g.binding? hit.node hit.index ≠ some (.reference source)) (id)
      (hbody : g.nodeAt? p = some id) :
      r.2 = ⟨[.ignored, .selected id], g.withSelection (some id),
        [.selectionChanged (some id)]⟩ := by
    have hnot : g.selected ≠ some id := fun h =>
      hother id hbody (Option.some.inj (h.symm.trans hselected))
    simp only [r, click_of_no_reference hinput hreads, clickNode_of_nodeAt? hs hbody hnot]
  refine ⟨rfl, fun source hreads => ⟨hcut source hreads, ?_⟩, fun hreads =>
    ⟨hnone hreads, fun id hbody => ⟨hother id hbody, hselect hreads id hbody⟩⟩, ?_⟩
  · rw [hcut source hreads]
    exact Graph.binding?_update_bind (Option.isSome_of_mem hreads) .unbound
  · by_cases hreads : ∃ source, g.binding? hit.node hit.index = some (.reference source)
    · obtain ⟨source, hsource⟩ := hreads
      rw [hcut source hsource]
      exact ⟨fun _ => .inl ⟨source, hsource⟩, fun _ => hselected⟩
    · rw [not_exists] at hreads
      cases hbody : g.nodeAt? p with
      | none =>
        rw [hnone hreads hbody]
        exact ⟨fun _ => .inr rfl, fun _ => hselected⟩
      | some id =>
        rw [hselect hreads id hbody]
        constructor
        · exact fun h => absurd (Option.some.inj h) (hother id hbody)
        · rintro (⟨source, hsource⟩ | h)
          · exact absurd hsource (hreads source)
          · cases h

/-- The body of a battery lies over the input of a logger that reads from it. -/
theorem inputClick_effect_wired :
    let battery := { Node.ofType NodeKind.battery.nodeType (.ofNat 1) with
      position := ⟨270, 110⟩ }
    let logger := { Node.ofType NodeKind.logger.nodeType (.ofNat 2) with position := ⟨300, 100⟩ }
    let s : Pointer := ⟨5, .idle⟩
    let p : Point := ⟨295, 132⟩
    let g := ((Session.ofGraph (.blank {} (.ofSeed 7))).run
      [.edit (.add logger), .edit (.add battery), .edit (.connect battery.id logger.id 1),
        .edit (.select logger.id)]).graph
    let r := s.handleAll g [.press ⟨p, .zero⟩, .release ⟨p, .zero⟩]
    g.nodeAt? p = some battery.id ∧ g.inputAt? p = some ⟨logger.id, 1⟩ ∧
      r.2.result = [.ignored, .wireDeleted ⟨battery.id, logger.id, 1⟩] ∧
      r.2.graph = g.rebound logger.id 1 .unbound ∧ r.2.graph.selected = some logger.id := by
  intro battery logger s p g r
  have hbody : g.nodeAt? p = some battery.id := by decide +kernel
  have hinput : g.inputAt? p = some ⟨logger.id, 1⟩ := by decide +kernel
  have hselected : g.selected = some logger.id := by decide +kernel
  have hreads : g.binding? logger.id 1 = some (.reference battery.id) := by decide +kernel
  obtain ⟨-, hcut, -, hstays⟩ :=
    inputClick_effect (g := g) ⟨_, _, _, rfl⟩ (s := s) rfl hinput hselected .zero .zero
  obtain ⟨hr, -⟩ := hcut battery.id hreads
  exact ⟨hbody, hinput, congrArg Change.result hr, congrArg Change.graph hr,
    hstays.mpr (.inl ⟨battery.id, hreads⟩)⟩

/--
The body of a battery lies over an unbound input of the selected logger, and a click on the input
selects the battery.
-/
theorem inputClick_takes_selection :
    let battery := { Node.ofType NodeKind.battery.nodeType (.ofNat 1) with
      position := ⟨270, 110⟩ }
    let logger := { Node.ofType NodeKind.logger.nodeType (.ofNat 2) with position := ⟨300, 100⟩ }
    let s : Pointer := ⟨5, .idle⟩
    let p : Point := ⟨295, 132⟩
    let g := ((Session.ofGraph (.blank {} (.ofSeed 7))).run
      [.edit (.add logger), .edit (.add battery), .edit (.select logger.id)]).graph
    let r := s.handleAll g [.press ⟨p, .zero⟩, .release ⟨p, .zero⟩]
    g.Reachable ∧ s.mode = .idle ∧ g.selected = some logger.id ∧
      g.inputAt? p = some ⟨logger.id, 1⟩ ∧ g.binding? logger.id 1 = some .unbound ∧
      r.2.result = [.ignored, .selected battery.id] ∧ r.2.graph.selected = some battery.id ∧
      battery.id ≠ logger.id := by
  intro battery logger s p g r
  exact ⟨⟨_, _, _, rfl⟩, by decide +kernel⟩

end Pointer

end Patchbay
