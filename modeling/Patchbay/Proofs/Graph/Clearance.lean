import Patchbay.Proofs.Geometry.Value
import Patchbay.Proofs.Graph.Hits
import Patchbay.Proofs.Graph.Integrity

/-!
# Bodies and ports

The hotspots of the inputs end at the left edge of the body, so that no point is in both. The
hotspot of the output starts at the right edge of the node, moved by the scroll. The right edge of
the body on the screen is found in another way: the left edge is moved, and the width, which is
measured again, added to it. Both are rounded. Unless they are too large together, no point is in
the body and in the hotspot of the output (`Node.ports_clear_of_body`), since rounding keeps the
order of sums. So it is wherever the coordinates are whole numbers
(`Viewport.not_overshoots_of_whole`). Otherwise the body can be pushed over the hotspot
(`Node.body_under_output`).
-/

namespace Patchbay

namespace Coordinate

variable {corner width scroll x : Float32}

/--
Where a body on the screen reaches over the right edge of its node, the edge and the scroll are
finite, and so is the left edge. It and the width are too large together.
-/
theorem exceeds_of_reach (hleft : corner + -scroll < x)
    (hright : x < corner + -scroll + (corner + width - corner))
    (hedge : corner + width - scroll < x) :
    ∃ l b c, value? (corner - scroll) = some l ∧ value? scroll = some b ∧
      value? (corner + width) = some c ∧
        ∀ w, value? (corner + width - corner) = some w → c - b < l + w := by
  rw [← sub_eq_add_neg] at hleft hright
  have hfinite (s) : ¬Beyond s (corner - scroll) := by
    intro hs
    cases s with
    | negative => exact not_beyond_negative hright (beyond_add (.inl hs))
    | positive => exact not_beyond_positive hleft hs
  obtain ⟨l, hl⟩ := exists_value? hfinite
  obtain ⟨b, hb⟩ : ∃ b, value? scroll = some b := by
    refine exists_value? fun s hs => hfinite (-s) ?_
    rw [sub_eq_add_neg]
    exact beyond_add (.inr hs.neg)
  rw [sub_eq_add_neg (corner + width) scroll] at hedge
  obtain ⟨c, hc⟩ : ∃ c, value? (corner + width) = some c := by
    refine exists_value? fun s hs => ?_
    cases s with
    | negative =>
      rw [sub_eq_add_neg (corner + width) corner] at hright
      exact not_beyond_negative hright (beyond_add (.inr (beyond_add (.inl hs))))
    | positive => exact not_beyond_positive hedge (beyond_add (.inl hs))
  refine ⟨l, b, c, hl, hb, hc, fun w hw => ?_⟩
  -- otherwise the body would end no later than the moved edge, which is rounded from more
  by_contra hle
  have hsum : l + w ≤ c + -b := by linarith
  exact not_lt_of_lt hedge (lt_add_mono hl hw hc (value?_neg hb) hsum hright)

end Coordinate

/--
The body of a node on the screen is too wide: its left edge and its measured width, each rounded,
exceed the right edge of the node less the scroll. A width that is not finite is too wide.
-/
def Viewport.Overshoots (v : Viewport) (n : Node) : Prop :=
  ∃ l b c, Coordinate.value? (v.toScreen n.rect.min).x = some l ∧
    Coordinate.value? v.scroll.x = some b ∧ Coordinate.value? n.rect.max.x = some c ∧
      ∀ w, Coordinate.value? n.rect.size.x = some w → c - b < l + w

/-- A body is not too wide if its left edge is moved and its width measured without rounding. -/
theorem Viewport.not_overshoots_of_exact {v : Viewport} {n : Node}
    (hshift : Coordinate.ExactSub n.rect.min.x v.scroll.x)
    (hwidth : Coordinate.ExactSub n.rect.max.x n.rect.min.x) : ¬v.Overshoots n := by
  rintro ⟨l, b, c, hl, hb, hc, hexceeds⟩
  have hleft : Coordinate.value? (n.rect.min.x - v.scroll.x) = some l := hl
  obtain ⟨a, ha⟩ : ∃ a, Coordinate.value? n.rect.min.x = some a := by
    refine Coordinate.exists_value? fun s hs => Coordinate.not_beyond_of_value? hleft s ?_
    rw [Coordinate.sub_eq_add_neg]
    exact Coordinate.beyond_add (.inl hs)
  have hexact := hexceeds (c - a) (hwidth c a hc ha)
  rw [hshift a b ha hb, Option.some.injEq] at hleft
  linarith

/-- Whole coordinates up to four million are not rounded. -/
theorem Viewport.not_overshoots_of_whole {v : Viewport} {n : Node} {corner width scroll : Int}
    (hcorner : Coordinate.value? n.position.x = some (corner : ℚ))
    (hwidth : Coordinate.value? n.size.x = some (width : ℚ))
    (hscroll : Coordinate.value? v.scroll.x = some (scroll : ℚ))
    (hsmall : corner.natAbs ≤ 2 ^ 22 ∧ width.natAbs ≤ 2 ^ 22 ∧ scroll.natAbs ≤ 2 ^ 22) :
    ¬v.Overshoots n := by
  have hfar : Coordinate.value? n.rect.max.x = some ((corner + width : Int) : ℚ) :=
    Coordinate.value?_add_of_whole hcorner hwidth (by omega)
  exact not_overshoots_of_exact (Coordinate.exactSub_of_whole hcorner hscroll (by omega))
    (Coordinate.exactSub_of_whole hfar hcorner (by omega))

namespace Node

/-- What is in the hotspot of an output is not in the body of its node, if that is not too wide. -/
theorem not_body_of_outputHotspot {n : Node} {v : Viewport} {size : Offset} {p : Point}
    (hwidth : ¬v.Overshoots n)
    (h : (outputHotspot size (v.toScreen n.outputAnchor)).contains p = true) :
    (v.rectToScreen n.rect).contains p = false := by
  rw [Bool.eq_false_iff]
  intro hbody
  obtain ⟨hleft, hright, -⟩ := Rect.contains_iff.mp hbody
  exact hwidth (Coordinate.exceeds_of_reach hleft hright (Rect.contains_iff.mp h).1)

/--
At any place, of any size and at any scroll, no point is in the body of a node and in the hotspot of
one of its inputs; and none is in the body and in the hotspot of the output, unless the body is too
wide by rounding. So no point hits the body and an input in a patch of one node, nor the body and
the output unless the body is too wide.
-/
theorem ports_clear_of_body (n : Node) (v : Viewport) (size : Offset) (p : Point) :
    let body := v.rectToScreen n.rect
    let input index := inputHotspot size (v.toScreen (n.inputAnchor index))
    let output := outputHotspot size (v.toScreen n.outputAnchor)
    (∀ index, ¬(body.contains p = true ∧ (input index).contains p = true)) ∧
      (¬v.Overshoots n → ¬(body.contains p = true ∧ output.contains p = true)) ∧
      ∀ g : Graph, g.nodes = [n] → g.viewport = v →
        ¬((g.nodeAt? p).isSome ∧ (g.inputAt? p).isSome) ∧
          (¬v.Overshoots n → ¬((g.nodeAt? p).isSome ∧ (g.outputAt? p).isSome)) := by
  intro body input output
  have hinput (size : Offset) (index : Nat) : ¬(body.contains p = true ∧
      (inputHotspot size (v.toScreen (n.inputAnchor index))).contains p = true) := by
    rintro ⟨hbody, hhotspot⟩
    exact Bool.false_ne_true ((not_body_of_inputHotspot hhotspot).symm.trans hbody)
  have houtput (size : Offset) (hwidth : ¬v.Overshoots n) : ¬(body.contains p = true ∧
      (outputHotspot size (v.toScreen n.outputAnchor)).contains p = true) := by
    rintro ⟨hbody, hhotspot⟩
    exact Bool.false_ne_true ((not_body_of_outputHotspot hwidth hhotspot).symm.trans hbody)
  refine ⟨hinput size, houtput size, ?_⟩
  rintro g hnodes rfl
  have hbody (h : (g.nodeAt? p).isSome) : body.contains p = true := by
    obtain ⟨id, hid⟩ := Option.isSome_iff_exists.mp h
    obtain ⟨m, hm, -, hcontains⟩ := Graph.exists_of_nodeAt? hid
    rw [hnodes, List.mem_singleton] at hm
    rwa [hm] at hcontains
  refine ⟨?_, fun hwidth => ?_⟩
  · rintro ⟨hnode, hport⟩
    obtain ⟨hit, hhit⟩ := Option.isSome_iff_exists.mp hport
    obtain ⟨m, hm, -, -, hcontains⟩ := Graph.exists_of_inputAt? hhit
    rw [hnodes, List.mem_singleton] at hm
    rw [hm] at hcontains
    exact hinput _ _ ⟨hbody hnode, hcontains⟩
  · rintro ⟨hnode, hport⟩
    obtain ⟨id, hid⟩ := Option.isSome_iff_exists.mp hport
    obtain ⟨m, hm, -, hcontains⟩ := Graph.exists_of_outputAt? hid
    rw [hnodes, List.mem_singleton] at hm
    rw [hm] at hcontains
    exact houtput _ hwidth ⟨hbody hnode, hcontains⟩

/--
A logger at its first place, in a view scrolled by whole numbers: a point in its body, one at an
input and one at the output.
-/
theorem ports_clear_of_body_first_place :
    let n := Node.ofType NodeKind.logger.nodeType (.ofNat 1)
    let v : Viewport := ⟨⟨30, -20⟩⟩
    let g := ((Session.ofGraph (.blank {} (.ofSeed 7))).run
      [.edit (.add n), .edit (.scrollBy ⟨30, -20⟩)]).graph
    let inside : Point := ⟨70, 120⟩
    let input : Point := ⟨45, 110⟩
    let output : Point := ⟨95, 120⟩
    g.nodes = [n] ∧ g.viewport = v ∧ ¬v.Overshoots n ∧
      ((g.nodeAt? inside).isSome ∧ ¬(g.inputAt? inside).isSome ∧ ¬(g.outputAt? inside).isSome) ∧
      ((g.inputAt? input).isSome ∧ ¬(g.nodeAt? input).isSome) ∧
      (g.outputAt? output).isSome ∧ ¬(g.nodeAt? output).isSome := by
  intro n v g inside input output
  have hnodes : g.nodes = [n] := by decide +kernel
  have hview : g.viewport = v := by decide +kernel
  have hwidth : ¬v.Overshoots n :=
    @Viewport.not_overshoots_of_whole v n 80 40 30 (by decide +kernel) (by decide +kernel)
      (by decide +kernel) (by decide)
  have hinside : (g.nodeAt? inside).isSome := by decide +kernel
  have hinput : (g.inputAt? input).isSome := by decide +kernel
  have houtput : (g.outputAt? output).isSome := by decide +kernel
  have hclear (p : Point) := (ports_clear_of_body n v ⟨10, 20⟩ p).2.2 g hnodes hview
  exact ⟨hnodes, hview, hwidth,
    ⟨hinside, fun h => (hclear inside).1 ⟨hinside, h⟩,
      fun h => (hclear inside).2 hwidth ⟨hinside, h⟩⟩,
    ⟨hinput, fun h => (hclear input).1 ⟨h, hinput⟩⟩,
    houtput, fun h => (hclear output).2 hwidth ⟨h, houtput⟩⟩

/--
A battery of the first size, moved and scrolled by less than a hundred thousandth more than whole
numbers: a point is in its body and in the hotspot of its output.
-/
theorem body_under_output :
    let n := { Node.ofType NodeKind.battery.nodeType (.ofNat 1) with
      position := ⟨0.0000019073486328125, 80⟩ }
    let p : Point := ⟨0.99999904632568359375, 100⟩
    let g := ((Session.ofGraph (.blank {} (.ofSeed 7))).run
      [.edit (.add n), .edit (.scrollBy ⟨39.000003814697265625, 0⟩)]).graph
    g.Reachable ∧ g.nodes = [n] ∧ n.size = defaultSize ∧ g.hotspotSize = ⟨10, 20⟩ ∧
      g.nodeAt? p = some n.id ∧ g.outputAt? p = some n.id := by
  intro n p g
  exact ⟨⟨_, _, _, rfl⟩, by decide +kernel⟩

end Node

end Patchbay
