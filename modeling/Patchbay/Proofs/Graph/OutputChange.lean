import Patchbay.Proofs.Graph.TickOrder
import Patchbay.Proofs.Value.Canonical

/-!
# Announced outputs

A tick announces the outputs that became another value, at most once each and in order. Values are
compared as numbers (`Value.equal`), so that an output that is no number before a tick and after it
is announced although nothing about it has changed; every other announcement is a change
(`Graph.output_announced_iff`).
-/

namespace Patchbay

namespace Graph

variable {g : Graph}

/-- Whether a tick gives a node an output that is not equal to the one before. -/
def outputDiffers (g : Graph) (now : Instant) (n : Node) : Bool :=
  !((g.tick now).graph.output n.id).equal n.output

theorem events_tick (hs : g.Sound) (now : Instant) :
    (g.tick now).events =
      (g.nodes.filter (g.outputDiffers now)).map fun n => .updated n.id .output := by
  let es := (evaluateAll now (inputsIn g.nodes (g.tick now).graph.nodes) g.nodes g.random).1
  have hlength : g.nodes.length ≤ es.length := Nat.le_of_eq (length_evaluateAll _ _ _ _).symm
  have hevents : (g.tick now).events = changesOf g.nodes es :=
    congrArg Ticked.events (tick_eq hs.nodup now)
  -- every evaluation is told by the patch after the tick, so that the nodes alone remain
  have htold : changesOf g.nodes es = (g.nodes.zip es).filterMap
      ((fun n => if g.outputDiffers now n then some (.updated n.id .output) else none) ∘
        Prod.fst) := by
    apply List.filterMap_congr
    rintro ⟨n, e⟩ hmem
    have houtput : (g.tick now).graph.output n.id = e.output := by
      rw [output_eq, node?_tick_of_mem_zip hs now hmem]
      rfl
    simp only [Function.comp, outputDiffers, houtput]
    cases e.output.equal n.output <;> rfl
  rw [hevents, htold, ← List.filterMap_map, List.map_fst_zip hlength]
  generalize g.nodes = nodes
  induction nodes with
  | nil => rfl
  | cons n rest ih =>
    rw [List.filterMap_cons, List.filter_cons]
    cases g.outputDiffers now n with
    | true => exact congrArg (_ :: ·) ih
    | false => exact ih

theorem mem_events_tick (hs : g.Sound) {now : Instant} {n : Node} (hn : n ∈ g.nodes) :
    .updated n.id .output ∈ (g.tick now).events ↔ g.outputDiffers now n = true := by
  rw [events_tick hs, List.mem_map]
  constructor
  · rintro ⟨m, hm, heq⟩
    obtain ⟨hm, hdiffers⟩ := List.mem_filter.mp hm
    -- no other node has the identity
    obtain rfl := eq_of_id_eq hs.nodup hn hm (Event.updated.inj heq).1
    exact hdiffers
  · exact fun hdiffers => ⟨n, List.mem_filter.mpr ⟨hn, hdiffers⟩, rfl⟩

theorem nodup_events_tick (hs : g.Sound) (now : Instant) : (g.tick now).events.Nodup := by
  have hids : ((g.nodes.filter (g.outputDiffers now)).map (·.id)).Nodup :=
    hs.nodup.sublist (List.filter_sublist.map _)
  have hinjective : Function.Injective fun id => Event.updated id .output :=
    fun _ _ heq => (Event.updated.inj heq).1
  rw [events_tick hs]
  simpa [Function.comp_def] using hids.map hinjective

/--
A tick announces an output exactly if it became another value or is no number before and after; each
at most once, and in the order of the nodes.
-/
theorem output_announced_iff (hg : g.Reachable) (now : Instant) :
    (g.tick now).events =
        (g.nodes.filter (g.outputDiffers now)).map (fun n => .updated n.id .output) ∧
      (g.tick now).events.Nodup ∧
      ∀ n ∈ g.nodes, .updated n.id .output ∈ (g.tick now).events ↔
        ((g.tick now).graph.output n.id).canonical ≠ n.output.canonical ∨
          ((g.tick now).graph.output n.id).isNaN = true ∧ n.output.isNaN = true := by
  have hs := hg.sound
  refine ⟨events_tick hs now, nodup_events_tick hs now, fun n hn => ?_⟩
  rw [mem_events_tick hs hn, outputDiffers, Bool.not_eq_true', Value.equal_eq_false_iff]

/-- A memory that keeps what is no number. -/
def stuckMemory : Node :=
  let n := Node.ofType NodeKind.memory.nodeType (.ofNat 1)
  (n.bind 0 (.literal (.bool true))).bind 1 (.literal (.number .nan))

/-- The first tick of the memory is a change, from unset to no number. -/
theorem output_announced_iff_stuckMemory :
    let g := ((Session.ofGraph (blank {} (.ofSeed 7))).run [.edit (.add stuckMemory)]).graph
    g.Reachable ∧ (g.tick ⟨0⟩).events.Nodup ∧
      .updated stuckMemory.id .output ∈ (g.tick ⟨0⟩).events := by
  intro g
  have hg : g.Reachable := ⟨_, _, _, rfl⟩
  have hmem : stuckMemory ∈ g.nodes := by decide +kernel
  have hchanged : ((g.tick ⟨0⟩).graph.output stuckMemory.id).canonical ≠
      stuckMemory.output.canonical := by decide +kernel
  obtain ⟨-, hnodup, hiff⟩ := output_announced_iff hg ⟨0⟩
  exact ⟨hg, hnodup, (hiff stuckMemory hmem).mpr (.inl hchanged)⟩

/-- Every further tick of the memory is announced as well, and nothing has changed. -/
theorem steady_output_announced :
    let g := ((Session.ofGraph (blank {} (.ofSeed 7))).run
      [.edit (.add stuckMemory), .edit (.tick ⟨0⟩)]).graph
    g.Reachable ∧
      ((g.tick ⟨0⟩).graph.output stuckMemory.id).canonical =
        (g.output stuckMemory.id).canonical ∧
      (g.tick ⟨0⟩).events = [.updated stuckMemory.id .output] := by
  intro g
  have hsame : ((g.tick ⟨0⟩).graph.output stuckMemory.id).canonical =
      (g.output stuckMemory.id).canonical := by decide +kernel
  exact ⟨⟨_, _, _, rfl⟩, hsame, by decide +kernel⟩

end Graph

end Patchbay
