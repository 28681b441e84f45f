import Mathlib.Data.Finset.Card
import Mathlib.Data.Fintype.EquivFin
import Mathlib.Order.RelClasses
import Mathlib.Order.WellFounded
import Patchbay.Proofs.Graph.TickOrder

/-!
# Settling

Nothing sorts the nodes of a patch by dependency, so that a value may need several ticks to get
from a node to one that reads it. In a patch of nodes without memory, time or draws whose
references form no cycle it gets there: after as many ticks as there are nodes, every output is
the value that evaluation along the references gives (`Graph.valueOf`), whatever the order of the
nodes and the outputs at the start, and stays so (`Graph.outputs_settle`).

Each tick adds a node to a set of nodes that are right for good: one that reads only such nodes.
-/

namespace Patchbay

namespace NodeKind

/-- Whether the output depends only on what the inputs read. -/
def isCombinational : NodeKind → Bool
  | battery | calculator | comparison | conditionalPicker => true
  | _ => false

/-- The output for what the inputs read, where nothing else counts. -/
def combine (kind : NodeKind) (inputs : List Value) : Value :=
  (kind.evaluate inputs ⟨0⟩ (.ofSeed 0) .unset {}).output

theorem output_evaluate {kind : NodeKind} (h : kind.isCombinational) (inputs : List Value)
    (now : Instant) (random : Random) (output : Value) (state : NodeState) :
    (kind.evaluate inputs now random output state).output = kind.combine inputs := by
  cases kind with
  | battery | calculator | comparison | conditionalPicker => rfl
  | pulsifier | memory | logger | echoer | numberCycler | randomWordGenerator => cases h

end NodeKind

namespace Graph

/-- The first node is read by an input of the second. -/
def Feeds (g : Graph) (source reader : NodeId) : Prop :=
  ∃ n ∈ g.nodes, n.id = reader ∧ source ∈ n.sources

/-- No chain of references leads back to where it starts. -/
def Acyclic (g : Graph) : Prop := ∀ id, ¬ Relation.TransGen g.Feeds id id

/-- The value of a node when its sources are evaluated before it. -/
def valueOf (g : Graph) (h : WellFounded g.Feeds) (id : NodeId) : Value :=
  match _hn : g.node? id with
  | none => .unset
  | some n =>
    n.kind.combine <| n.bindings.attach.map fun
      | ⟨.literal v, _⟩ => v
      | ⟨.unbound, _⟩ => .unset
      | ⟨.reference source, _⟩ => g.valueOf h source
termination_by h.wrap id
decreasing_by exact ⟨n, mem_of_node? _hn, id_of_node? _hn, Node.mem_sources_iff.mpr ‹_›⟩

def ticks (g : Graph) (times : List Instant) : Graph :=
  times.foldl (fun g now => (g.tick now).graph) g

/-- Whether two patches hold the same nodes, wired alike, in whatever order and state. -/
def SameWiring (g g' : Graph) : Prop :=
  ∀ id, (g.node? id).map (fun n => (n.kind, n.bindings)) =
    (g'.node? id).map fun n => (n.kind, n.bindings)

/--
What the argument needs to know of a patch, and no tick changes: nothing but the inputs counts, no
reference leads back, and the given values agree with each other at every node.
-/
structure SolvedBy (g : Graph) (v : NodeId → Value) : Prop where
  /-- The patch is sound. -/
  sound : g.Sound
  /-- The output of a node depends only on what its inputs read. -/
  combinational : ∀ n ∈ g.nodes, n.kind.isCombinational
  /-- The references lead down to nodes without any. -/
  wellFounded : WellFounded g.Feeds
  /-- The value of a node is made from the values of its sources. -/
  solves : ∀ n ∈ g.nodes, v n.id = n.kind.combine (n.bindings.map (·.resolve v))

/-- A set of nodes that have the given values as outputs and read only from each other. -/
structure Settled (g : Graph) (v : NodeId → Value) (S : Finset NodeId) : Prop where
  /-- They are nodes of the patch. -/
  mem_ids : ∀ id ∈ S, id ∈ g.ids
  /-- They read only from each other. -/
  closed : ∀ n ∈ g.nodes, n.id ∈ S → ∀ source ∈ n.sources, source ∈ S
  /-- They have the given values. -/
  output : ∀ id ∈ S, g.output id = v id

variable {g : Graph} {v : NodeId → Value}

/-! ## Evaluation along the references -/

instance : Finite NodeId := Finite.of_injective (fun id => id.bits.toFin) fun a b h => by
  cases a
  cases b
  exact congrArg NodeId.mk (BitVec.toFin_inj.mp h)

theorem Acyclic.wellFounded (h : g.Acyclic) : WellFounded g.Feeds := by
  -- there are finitely many identities, so no path without a cycle goes on for ever
  have : Std.Irrefl (Relation.TransGen g.Feeds) := ⟨h⟩
  have hwf := Finite.wellFounded_of_trans_of_irrefl (Relation.TransGen g.Feeds)
  exact Subrelation.wf Relation.TransGen.single hwf

/-- References that lead from each node to nodes of a lower rank form no cycle. -/
theorem acyclic_of_rank (rank : NodeId → Nat)
    (h : ∀ n ∈ g.nodes, ∀ source ∈ n.sources, rank source < rank n.id) : g.Acyclic := by
  intro id hcycle
  have hdown : ∀ source reader, Relation.TransGen g.Feeds source reader →
      rank source < rank reader := by
    intro source reader hpath
    induction hpath with
    | single hfeeds =>
      obtain ⟨n, hn, rfl, hsource⟩ := hfeeds
      exact h n hn source hsource
    | tail _ hfeeds ih =>
      obtain ⟨n, hn, rfl, hsource⟩ := hfeeds
      exact Nat.lt_trans ih (h n hn _ hsource)
  exact Nat.lt_irrefl _ (hdown id id hcycle)

theorem valueOf_eq (hwf : WellFounded g.Feeds) {id : NodeId} {n : Node}
    (hn : g.node? id = some n) :
    g.valueOf hwf id = n.kind.combine (n.bindings.map (·.resolve (g.valueOf hwf))) := by
  rw [valueOf]
  split
  · rename_i hnone
    rw [hn] at hnone
    cases hnone
  · rename_i m hm
    obtain rfl : n = m := Option.some.inj (hn.symm.trans hm)
    congr 1
    have hval : n.bindings.map (·.resolve (g.valueOf hwf)) =
        n.bindings.attach.map fun b => b.1.resolve (g.valueOf hwf) := by
      exact List.attach_map_val.symm
    rw [hval]
    apply List.map_congr_left
    intro b _
    obtain ⟨b, hb⟩ := b
    cases b with
    | literal v => rfl
    | unbound => rfl
    | reference source => rfl

theorem solvedBy_valueOf (hsound : g.Sound) (hkinds : ∀ n ∈ g.nodes, n.kind.isCombinational)
    (hwf : WellFounded g.Feeds) : g.SolvedBy (g.valueOf hwf) where
  sound := hsound
  combinational := hkinds
  wellFounded := hwf
  solves _ hn := valueOf_eq hwf ((node?_eq_some_iff hsound.nodup).mpr ⟨hn, rfl⟩)

/-! ## One tick -/

theorem SolvedBy.tick (h : g.SolvedBy v) (now : Instant) : (g.tick now).graph.SolvedBy v where
  sound := h.sound.tick now
  combinational _ hn := by
    obtain ⟨m, hm, e, rfl⟩ := mem_nodes_tick hn
    exact h.combinational m hm
  wellFounded := by
    refine Subrelation.wf (fun {source reader} hfeeds => ?_) h.wellFounded
    obtain ⟨_, hn, hid, hsource⟩ := hfeeds
    obtain ⟨m, hm, e, rfl⟩ := mem_nodes_tick hn
    exact ⟨m, hm, hid, hsource⟩
  solves n hn := by
    obtain ⟨m, hm, e, rfl⟩ := mem_nodes_tick hn
    exact h.solves m hm

theorem output_tick (hs : g.Sound) {n : Node} (hn : n ∈ g.nodes)
    (hkind : n.kind.isCombinational) (now : Instant) :
    (g.tick now).graph.output n.id =
      n.kind.combine (inputsIn g.nodes (g.tick now).graph.nodes n) := by
  obtain ⟨draws, e, rfl, hfound, -⟩ := exists_node?_tick hs hn now
  rw [output_eq, hfound]
  exact NodeKind.output_evaluate hkind _ now draws n.output n.state

/-- A node that reads only settled nodes has its value after one more tick. -/
theorem Settled.output_tick {S : Finset NodeId} (h : g.Settled v S) (hg : g.SolvedBy v)
    (now : Instant) {n : Node} (hn : n ∈ g.nodes) (hsources : ∀ source ∈ n.sources, source ∈ S) :
    (g.tick now).graph.output n.id = v n.id := by
  -- sources in front of the node have been evaluated in this tick already
  induction hplace : g.ids.idxOf n.id using Nat.strong_induction_on generalizing n with
  | _ place ih =>
    rw [Graph.output_tick hg.sound hn (hg.combinational n hn), hg.solves n hn, inputsIn_eq]
    congr 1
    apply List.map_congr_left
    intro b hb
    cases b with
    | literal w => rfl
    | unbound => rfl
    | reference source =>
      have hsource := hsources source (Node.mem_sources_iff.mpr hb)
      change (if g.ids.idxOf source < g.ids.idxOf n.id then (g.tick now).graph.output source
        else g.output source) = v source
      by_cases hlt : g.ids.idxOf source < g.ids.idxOf n.id
      · rw [if_pos hlt]
        obtain ⟨m, hm, rfl⟩ := Graph.mem_ids.mp (h.mem_ids source hsource)
        exact ih _ (hplace ▸ hlt) hm (h.closed m hm hsource) rfl
      · rw [if_neg hlt]
        exact h.output source hsource

/-- Unless all nodes are in a set, one that is not reads only from those that are. -/
theorem SolvedBy.exists_next {S : Finset NodeId} (hg : g.SolvedBy v)
    (hrest : ∃ id ∈ g.ids, id ∉ S) :
    ∃ n ∈ g.nodes, n.id ∉ S ∧ ∀ source ∈ n.sources, source ∈ S := by
  obtain ⟨id, ⟨hid, hnot⟩, hleast⟩ :=
    hg.wellFounded.has_min { id | id ∈ g.ids ∧ id ∉ S } hrest
  obtain ⟨n, hn, rfl⟩ := Graph.mem_ids.mp hid
  refine ⟨n, hn, hnot, fun source hsource => ?_⟩
  by_contra hout
  exact hleast source ⟨hg.sound.closed n hn source hsource, hout⟩ ⟨n, hn, rfl, hsource⟩

/-- A tick keeps what is settled, with any node added to it that reads only from there. -/
theorem Settled.tick {S T : Finset NodeId} (h : g.Settled v S) (hg : g.SolvedBy v)
    (now : Instant) (hsub : S ⊆ T) (hmem : ∀ id ∈ T, id ∈ g.ids)
    (hsources : ∀ n ∈ g.nodes, n.id ∈ T → ∀ source ∈ n.sources, source ∈ S) :
    (g.tick now).graph.Settled v T where
  mem_ids id hid := by
    rw [ids_tick]
    exact hmem id hid
  closed n hn hid source hsource := by
    obtain ⟨m, hm, e, rfl⟩ := mem_nodes_tick hn
    exact hsub (hsources m hm hid source hsource)
  output id hid := by
    obtain ⟨n, hn, rfl⟩ := Graph.mem_ids.mp (hmem id hid)
    exact h.output_tick hg now hn (hsources n hn hid)

/-- A tick adds a node to what is settled, unless that is every node. -/
theorem Settled.exists_tick {S : Finset NodeId} (h : g.Settled v S) (hg : g.SolvedBy v)
    (now : Instant) :
    ∃ T, (g.tick now).graph.Settled v T ∧ min (S.card + 1) g.nodes.length ≤ T.card := by
  by_cases hrest : ∃ id ∈ g.ids, id ∉ S
  · obtain ⟨n, hn, hnew, hsources⟩ := hg.exists_next hrest
    refine ⟨insert n.id S, ?_, ?_⟩
    · refine h.tick hg now (Finset.subset_insert _ _) ?_ ?_
      · intro id hid
        rcases Finset.mem_insert.mp hid with rfl | hid
        · exact id_mem_ids hn
        · exact h.mem_ids id hid
      · intro m hm hid source hsource
        rcases Finset.mem_insert.mp hid with hid | hid
        · rw [eq_of_id_eq hg.sound.nodup hn hm hid] at hsource
          exact hsources source hsource
        · exact h.closed m hm hid source hsource
    · rw [Finset.card_insert_of_notMem hnew]
      omega
  -- all nodes are settled
  · refine ⟨S, h.tick hg now (Finset.Subset.refl S) h.mem_ids h.closed, ?_⟩
    have hall : g.ids.toFinset ⊆ S := by
      intro id hid
      by_contra hout
      exact hrest ⟨id, List.mem_toFinset.mp hid, hout⟩
    have hcard := Finset.card_le_card hall
    rw [List.toFinset_card_of_nodup hg.sound.nodup, ids, List.length_map] at hcard
    omega

/-! ## Many ticks -/

theorem ticks_append (g : Graph) (times more : List Instant) :
    g.ticks (times ++ more) = (g.ticks times).ticks more := List.foldl_append

theorem Settled.exists_ticks {S : Finset NodeId} (h : g.Settled v S) (hg : g.SolvedBy v)
    (times : List Instant) :
    ∃ T, (g.ticks times).Settled v T ∧
      min (S.card + times.length) g.nodes.length ≤ T.card := by
  induction times generalizing g S with
  | nil => exact ⟨S, h, Nat.min_le_left _ _⟩
  | cons now times ih =>
    obtain ⟨T, hT, hcard⟩ := h.exists_tick hg now
    obtain ⟨U, hU, hcard'⟩ := ih hT (hg.tick now)
    refine ⟨U, hU, ?_⟩
    have hlength : (g.tick now).graph.nodes.length = g.nodes.length := by
      simpa [ids] using congrArg List.length (ids_tick g now)
    rw [hlength] at hcard'
    rw [List.length_cons]
    omega

theorem ids_ticks (g : Graph) (times : List Instant) : (g.ticks times).ids = g.ids := by
  induction times generalizing g with
  | nil => rfl
  | cons now times ih => exact (ih _).trans (g.ids_tick now)

/-- With as many ticks as nodes, every output is right. -/
theorem SolvedBy.output_ticks (hg : g.SolvedBy v) {times : List Instant}
    (henough : g.nodes.length ≤ times.length) {id : NodeId} (hid : id ∈ g.ids) :
    (g.ticks times).output id = v id := by
  -- to begin with nothing need be right
  have hstart : g.Settled v ∅ := by
    refine ⟨fun id hid => ?_, fun n _ hid => ?_, fun id hid => ?_⟩
    all_goals exact absurd hid (Finset.notMem_empty _)
  obtain ⟨T, hT, hcard⟩ := hstart.exists_ticks hg times
  have hsub : T ⊆ g.ids.toFinset := fun id hid => by
    rw [List.mem_toFinset, ← ids_ticks g times]
    exact hT.mem_ids id hid
  have hall : T = g.ids.toFinset := by
    refine Finset.eq_of_subset_of_card_le hsub ?_
    rw [List.toFinset_card_of_nodup hg.sound.nodup, ids, List.length_map]
    rw [Finset.card_empty] at hcard
    omega
  refine hT.output id ?_
  rw [hall, List.mem_toFinset]
  exact hid

/-! ## The same wiring -/

theorem SameWiring.exists_node {g' : Graph} (h : g.SameWiring g') (hs : g'.Sound) {n' : Node}
    (hn' : n' ∈ g'.nodes) :
    ∃ n, g.node? n'.id = some n ∧ n.kind = n'.kind ∧ n.bindings = n'.bindings := by
  have hwire := h n'.id
  rw [(node?_eq_some_iff hs.nodup).mpr ⟨hn', rfl⟩, Option.map_some, Option.map_eq_some_iff]
    at hwire
  obtain ⟨n, hn, hsame⟩ := hwire
  exact ⟨n, hn, congrArg Prod.fst hsame, congrArg Prod.snd hsame⟩

/-- Values that solve a patch solve every patch that is wired alike. -/
theorem SolvedBy.of_sameWiring {g' : Graph} (hg : g.SolvedBy v) (h : g.SameWiring g')
    (hs : g'.Sound) : g'.SolvedBy v where
  sound := hs
  combinational n' hn' := by
    obtain ⟨n, hn, hkind, -⟩ := h.exists_node hs hn'
    rw [← hkind]
    exact hg.combinational n (mem_of_node? hn)
  wellFounded := by
    refine Subrelation.wf (fun {source reader} hfeeds => ?_) hg.wellFounded
    obtain ⟨n', hn', rfl, hsource⟩ := hfeeds
    obtain ⟨n, hn, -, hbindings⟩ := h.exists_node hs hn'
    refine ⟨n, mem_of_node? hn, id_of_node? hn, ?_⟩
    rw [Node.mem_sources_iff, hbindings, ← Node.mem_sources_iff]
    exact hsource
  solves n' hn' := by
    obtain ⟨n, hn, hkind, hbindings⟩ := h.exists_node hs hn'
    rw [← hkind, ← hbindings, ← id_of_node? hn]
    exact hg.solves n (mem_of_node? hn)

theorem SameWiring.mem_ids_iff {g' : Graph} (h : g.SameWiring g') (id : NodeId) :
    id ∈ g.ids ↔ id ∈ g'.ids := mem_ids_iff_of_map_eq (h id)

/--
In a patch of nodes without memory, time or draws whose references form no cycle, every output is
the value of the evaluation along the references after at least as many ticks as there are nodes,
at whatever times. Further ticks leave it there, and so it is in every patch of the same nodes wired
alike, however they are ordered and whatever their outputs at the start.
-/
theorem outputs_settle (hg : g.Reachable)
    (hkinds : ∀ n ∈ g.nodes, n.kind.isCombinational) (hacyclic : g.Acyclic)
    (times : List Instant) (henough : g.nodes.length ≤ times.length) :
    (∀ id ∈ g.ids, (g.ticks times).output id = g.valueOf hacyclic.wellFounded id) ∧
      (∀ more, ∀ id ∈ g.ids,
        ((g.ticks times).ticks more).output id = (g.ticks times).output id) ∧
      ∀ g', g'.Reachable → g.SameWiring g' →
        ∀ times' : List Instant, g'.nodes.length ≤ times'.length →
          ∀ id ∈ g.ids, (g'.ticks times').output id = (g.ticks times).output id := by
  have hsolved := solvedBy_valueOf hg.sound hkinds hacyclic.wellFounded
  have hsettled : ∀ id ∈ g.ids,
      (g.ticks times).output id = g.valueOf hacyclic.wellFounded id :=
    fun id hid => hsolved.output_ticks henough hid
  refine ⟨hsettled, fun more id hid => ?_, fun g' hg' hsame times' henough' id hid => ?_⟩
  · rw [hsettled id hid, ← ticks_append]
    refine hsolved.output_ticks ?_ hid
    rw [List.length_append]
    omega
  · rw [hsettled id hid]
    have hid' := (hsame.mem_ids_iff id).mp hid
    exact (hsolved.of_sameWiring hsame hg'.sound).output_ticks henough' hid'

/--
A comparison in front of the battery that it reads is wrong after the first tick and right from the
second one on.
-/
theorem outputs_settle_backwards :
    let comparison := Node.ofType NodeKind.comparison.nodeType (.ofNat 1)
    let battery := Node.ofType NodeKind.battery.nodeType (.ofNat 2)
    let g := ((Session.ofGraph (blank {} (.ofSeed 7))).run
      [.edit (.add comparison), .edit (.add battery),
        .edit (.setLiteral comparison.id 0 (.text "=")),
        .edit (.connect battery.id comparison.id 1),
        .edit (.setLiteral comparison.id 2 (.bool true))]).graph
    g.Reachable ∧ g.nodes.length = 2 ∧
      (g.ticks [⟨0⟩]).output comparison.id = .bool false ∧
      ∃ hacyclic : g.Acyclic,
        (g.ticks [⟨0⟩, ⟨5⟩]).output comparison.id = .bool true ∧
          g.valueOf hacyclic.wellFounded comparison.id = .bool true ∧
          ∀ more, ((g.ticks [⟨0⟩, ⟨5⟩]).ticks more).output comparison.id = .bool true := by
  intro comparison battery g
  have hg : g.Reachable := ⟨_, _, _, rfl⟩
  have hacyclic : g.Acyclic :=
    acyclic_of_rank (fun id => if id = comparison.id then 1 else 0) (by decide)
  have hid : comparison.id ∈ g.ids := by decide
  have hvalue : (g.ticks [⟨0⟩, ⟨5⟩]).output comparison.id = .bool true := by
    decide +kernel
  obtain ⟨hright, hstay, -⟩ :=
    outputs_settle hg (by decide) hacyclic [⟨0⟩, ⟨5⟩] (by decide)
  have hbefore : (g.ticks [⟨0⟩]).output comparison.id = .bool false := by decide +kernel
  refine ⟨hg, by decide +kernel, hbefore, hacyclic, hvalue, ?_, fun more => ?_⟩
  · rw [← hright comparison.id hid, hvalue]
  · rw [hstay more comparison.id hid, hvalue]

end Graph

end Patchbay
