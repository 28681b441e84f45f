import Patchbay.Proofs.Graph.Cosmetics
import Patchbay.Proofs.Graph.TickOrder

/-!
# The course of a node

The output of a node and what it remembers change in ticks only: whatever else is done to a patch
leaves them alone (`Session.rests_perform`). So the ticks that a node lives through are evaluations
of its kind one after the other, each from what the one before has left, and all that the rest of
the patch and the edits in between decide is what its inputs read (`Session.course_samples`).
-/

namespace Patchbay

/-- What is seen of a node in one tick. -/
structure Sample where
  now : Instant
  /-- The values that its inputs read. -/
  inputs : List Value
  /-- The output after the tick. -/
  output : Value
  state : NodeState
deriving DecidableEq

/-- The point in time at which an action ticks, if it does. -/
def Action.tickTime? : Action → Option Instant
  | edit e => e.tickTime?
  | _ => none

/-- What is seen of a node in a tick. -/
def Graph.sample? (g : Graph) (id : NodeId) (now : Instant) : Option Sample := do
  let before ← g.node? id
  let after ← (g.tick now).graph.node? id
  return ⟨now, inputsIn g.nodes (g.tick now).graph.nodes before, after.output, after.state⟩

namespace Session

/-- What is seen of a node in the ticks among some actions. -/
def samples (s : Session) (id : NodeId) : List Action → List Sample
  | [] => []
  | a :: actions =>
    (a.tickTime?.bind (s.graph.sample? id)).toList ++ (s.perform a).session.samples id actions

/-- Whether a node is in the patch all the while. -/
def Keeps (s : Session) (id : NodeId) (actions : List Action) : Prop :=
  ∀ k ≤ actions.length, id ∈ (s.run (actions.take k)).graph.ids

instance (s : Session) (id : NodeId) (actions : List Action) : Decidable (s.Keeps id actions) :=
  inferInstanceAs (Decidable (∀ k ≤ actions.length, id ∈ (s.run (actions.take k)).graph.ids))

theorem Keeps.mem_ids {s : Session} {id : NodeId} {actions : List Action}
    (h : s.Keeps id actions) : id ∈ s.graph.ids :=
  h 0 (Nat.zero_le _)

theorem Keeps.tail {s : Session} {id : NodeId} {a : Action} {actions : List Action}
    (h : s.Keeps id (a :: actions)) : (s.perform a).session.Keeps id actions :=
  fun k hk => h (k + 1) (Nat.succ_le_succ hk)

end Session

/-! ## Between ticks -/

/-- What evaluations leave of a node, with its kind. -/
def Node.held (n : Node) : NodeKind × Value × NodeState := (n.kind, n.output, n.state)

namespace Graph

/-- Whether the nodes that were in a patch before hold in it what they held. -/
def Rests (g g' : Graph) : Prop :=
  ∀ m ∈ g'.nodes, m.id ∈ g.ids → ∃ n ∈ g.nodes, n.id = m.id ∧ n.held = m.held

variable {g g' : Graph}

theorem rests_of_nodes_eq (h : g'.nodes = g.nodes) : g.Rests g' :=
  fun m hm _ => ⟨m, h ▸ hm, rfl, rfl⟩

theorem rests_update {id : NodeId} {f : Node → Node} (hid : ∀ n, (f n).id = n.id)
    (hheld : ∀ n, (f n).held = n.held) : g.Rests (g.update id f) := by
  intro m hm _
  obtain ⟨n, hn, rfl⟩ := mem_nodes_update hm
  refine ⟨n, hn, ?_⟩
  split
  · exact ⟨(hid n).symm, (hheld n).symm⟩
  · exact ⟨rfl, rfl⟩

theorem rests_withNode {n : Node} (hnew : n.id ∉ g.ids) (random : Random) :
    g.Rests ({ g with random := random }.withNode n) := by
  intro m hm hthere
  rcases List.mem_append.mp hm with hm | hm
  · exact ⟨m, hm, rfl, rfl⟩
  · obtain rfl := List.mem_singleton.mp hm
    exact absurd hthere hnew

theorem rests_without (g : Graph) (id : NodeId) : g.Rests (g.without id) := by
  intro m hm _
  obtain ⟨n, hn, rfl⟩ := List.mem_map.mp hm
  exact ⟨n, (List.mem_filter.mp hn).1, rfl, rfl⟩

/-- What only an editor shows is nothing that a node holds. -/
theorem rests_of_bare (h : g'.bare = g.bare) : g.Rests g' := by
  intro m hm _
  have hnodes : g'.nodes.map Node.bare = g.nodes.map Node.bare := congrArg Graph.nodes h
  have hmem : m.bare ∈ g.nodes.map Node.bare := hnodes ▸ List.mem_map_of_mem hm
  obtain ⟨n, hn, hbare⟩ := List.mem_map.mp hmem
  have hsame : (n.bare.id, n.bare.held) = (m.bare.id, m.bare.held) := by rw [hbare]
  exact ⟨n, hn, congrArg Prod.fst hsame, congrArg Prod.snd hsame⟩

theorem rests_of_bind {id : NodeId} {index : Nat} {b : Binding} {c : Change Binding}
    (h : g.bind id index b = .ok c) : g.Rests c.graph := by
  obtain ⟨-, before, -, rfl⟩ := bind_eq_ok_iff.mp h
  exact rests_update (fun _ => rfl) fun _ => rfl

theorem rests_of_add (random : Random) {n : Node} {c : Change NodeId}
    (h : { g with random := random }.add n = .ok c) : g.Rests c.graph := by
  unfold add at h
  split at h
  · cases h
  · rename_i hnew
    cases h
    exact rests_withNode (fun hid => hnew ((contains_iff _ _).mpr hid)) random

theorem rests_remove (g : Graph) (id : NodeId) : g.Rests (g.remove id).graph := by
  unfold remove
  split
  · exact rests_of_nodes_eq rfl
  · exact g.rests_without id

theorem Rests.held_eq (h : g.Rests g') (hs : g.Sound) {id : NodeId} {n m : Node}
    (hn : g.node? id = some n) (hm : g'.node? id = some m) : m.held = n.held := by
  have hid : m.id = n.id := (id_of_node? hm).trans (id_of_node? hn).symm
  obtain ⟨k, hk, hkid, hheld⟩ :=
    h m (mem_of_node? hm) (hid ▸ id_mem_ids (mem_of_node? hn))
  obtain rfl := eq_of_id_eq hs.nodup (mem_of_node? hn) hk (hkid.trans hid)
  exact hheld.symm

end Graph

theorem Edit.rests_of_apply {g : Graph} (hs : g.Sound) {e : Edit} (hquiet : e.tickTime? = none)
    {r : Edit.Result} (h : e.apply g = .ok r) : g.Rests r.graph := by
  by_cases hcosmetic : e.isCosmetic = true
  · exact Graph.rests_of_bare (bare_of_apply hs hcosmetic h).1
  · cases e with
    | add n =>
      obtain ⟨c, hc, rfl⟩ := ok_of_map_ok h
      exact Graph.rests_of_add g.random hc
    | spawn kind id =>
      obtain ⟨c, hc, rfl⟩ := ok_of_map_ok h
      exact Graph.rests_of_add (g.spawned kind id).2 hc
    | remove id =>
      cases h
      exact g.rests_remove id
    | connect source target index =>
      obtain ⟨c, hc, rfl⟩ := ok_of_map_ok h
      obtain ⟨d, hd, rfl⟩ := ok_of_map_ok hc
      exact Graph.rests_of_bind hd
    | bind | setLiteral | clearInput =>
      obtain ⟨c, hc, rfl⟩ := ok_of_map_ok h
      exact Graph.rests_of_bind hc
    | tick now => cases hquiet
    | moveNode | setPosition | rename | describe | select | deselect | scrollBy =>
      exact absurd rfl hcosmetic

theorem Pointer.Reported.rests {g : Graph} {input : PointerInput} {c : Change Gesture}
    (h : Reported g input c) : g.Rests c.graph := by
  cases hrewires : c.result.rewires with
  | false => exact Graph.rests_of_bare (h.bare hrewires)
  | true =>
    obtain ⟨gesture, graph, events⟩ := c
    cases gesture with
    | wireCompleted w =>
      obtain ⟨-, -, rfl, -⟩ := h
      exact Graph.rests_update (fun _ => rfl) fun _ => rfl
    | wireDeleted w =>
      obtain ⟨-, rfl, -⟩ := h
      exact Graph.rests_update (fun _ => rfl) fun _ => rfl
    | ignored | selected | deselected | movedNode | panned | wireStarted => cases hrewires

theorem Session.rests_perform {s : Session} (hs : s.graph.Sound) {a : Action}
    (hquiet : a.tickTime? = none) : s.graph.Rests (s.perform a).session.graph := by
  cases a with
  | edit e =>
    simp only [perform]
    split
    · exact Graph.rests_of_nodes_eq (e.nodes_leave s.graph)
    · rename_i r hr
      exact Edit.rests_of_apply hs hquiet hr
  | pointer index input => exact (Pointer.reported_handle hs (s.pointer index) input).rests
  | inspect index e =>
    simp only [perform]
    split
    · exact Graph.rests_of_nodes_eq rfl
    · rename_i c hc
      obtain ⟨e', reply, hquiet', happly⟩ := InspectorEdit.exists_edit hc
      rw [graph_syncInspector]
      exact Edit.rests_of_apply hs hquiet' happly
  | setPointer | attach | sync | detach | subscribe | drain | hangUp =>
    exact Graph.rests_of_bare (perform_of_isCosmetic hs rfl).1

/-! ## Ticks -/

/-- The output and the state that a node is left with after a tick. -/
def Sample.left (x : Sample) : Value × NodeState := (x.output, x.state)

/-- What an evaluation leaves, for what a sample says of the inputs and the time. -/
def NodeKind.next (kind : NodeKind) (x : Sample) (draws : Random) (before : Value × NodeState) :
    Value × NodeState :=
  let e := kind.evaluate x.inputs x.now draws before.1 before.2
  (e.output, e.state)

/-- Evaluations of a kind one after the other, each from what the one before has left. -/
inductive NodeKind.Course (kind : NodeKind) :
    Value × NodeState → List Sample → Value × NodeState → Prop where
  | done (left : Value × NodeState) : Course kind left [] left
  | tick {before after : Value × NodeState} {x : Sample} {xs : List Sample} (draws : Random)
      (hleft : x.left = kind.next x draws before) (rest : Course kind x.left xs after) :
      Course kind before (x :: xs) after

theorem Graph.sample?_eq {g : Graph} (hs : g.Sound) {id : NodeId} {n : Node}
    (hn : g.node? id = some n) (now : Instant) :
    ∃ x m draws, g.sample? id now = some x ∧ x.now = now ∧
      (g.tick now).graph.node? id = some m ∧ m.kind = n.kind ∧ (m.output, m.state) = x.left ∧
      x.left = n.kind.next x draws (n.output, n.state) := by
  obtain ⟨draws, e, he, hafter, -⟩ := exists_node?_tick hs (mem_of_node? hn) now
  rw [id_of_node? hn] at hafter
  let inputs := inputsIn g.nodes (g.tick now).graph.nodes n
  have hsample : g.sample? id now = some ⟨now, inputs, e.output, e.state⟩ := by
    rw [sample?, hn, hafter]
    rfl
  refine ⟨_, _, draws, hsample, rfl, hafter, rfl, rfl, ?_⟩
  rw [he]
  rfl

/--
What is seen of a node in the ticks among any actions is a course of its kind, one sample for each
tick, and its output and state are at the end what the last tick has left.
-/
theorem Session.course_samples {s : Session} (hs : s.graph.Sound) {id : NodeId} {n : Node}
    (hn : s.graph.node? id = some n) {actions : List Action} (hkept : s.Keeps id actions) :
    (s.samples id actions).map (·.now) = actions.filterMap Action.tickTime? ∧
      ∃ m, (s.run actions).graph.node? id = some m ∧
        n.kind.Course (n.output, n.state) (s.samples id actions) (m.output, m.state) := by
  induction actions generalizing s n with
  | nil => exact ⟨rfl, n, hn, .done _⟩
  | cons a actions ih =>
    have hs' := hs.step (s.step_perform a)
    obtain ⟨n', hn'⟩ := Graph.exists_node? hkept.tail.mem_ids
    obtain ⟨htimes, m, hm, hcourse⟩ := ih hs' hn' hkept.tail
    rw [samples, List.filterMap_cons]
    cases htick : a.tickTime? with
    | none =>
      -- nothing is evaluated
      have hheld := (rests_perform hs htick).held_eq hs hn hn'
      obtain ⟨hkind, hleft⟩ := Prod.mk.inj hheld
      rw [hkind, hleft] at hcourse
      exact ⟨htimes, m, hm, hcourse⟩
    | some now =>
      obtain rfl : a = .edit (.tick now) := by
        cases a with
        | edit e =>
          cases e with
          | tick => rw [Option.some.inj htick]
          | _ => cases htick
        | _ => cases htick
      obtain ⟨x, k, draws, hx, rfl, hk, hkind, hleft, hnext⟩ := Graph.sample?_eq hs hn now
      obtain rfl : n' = k := Option.some.inj (hn'.symm.trans hk)
      rw [hkind, hleft] at hcourse
      rw [Option.bind_some, hx, Option.toList_some, List.singleton_append]
      refine ⟨?_, m, hm, .tick draws hnext hcourse⟩
      rw [List.map_cons, htimes]

namespace NodeKind.Course

variable {kind : NodeKind} {start final : Value × NodeState} {xs : List Sample}

/-- What each evaluation carries on to the next one is there after every evaluation. -/
theorem carried {P : Nat → Value × NodeState → Prop} (h : kind.Course start xs final)
    (hstart : P 0 start)
    (hstep : ∀ k x before draws, xs[k]? = some x → P k before →
      P (k + 1) (kind.next x draws before))
    {k : Nat} {x : Sample} (hx : xs[k]? = some x) :
    P (k + 1) x.left ∧ ∃ before draws, x.left = kind.next x draws before := by
  -- on the evaluations to come, the first of which is the one with number 0
  induction h generalizing P k with
  | done => cases hx
  | @tick before after y xs draws hleft rest ih =>
    have hnext : P 1 y.left := hleft ▸ hstep 0 y before draws rfl hstart
    cases k with
    | zero =>
      obtain rfl : y = x := Option.some.inj hx
      exact ⟨hnext, before, draws, hleft⟩
    | succ k => exact ih (P := fun k => P (k + 1)) hnext (fun k => hstep (k + 1)) hx

theorem final_eq (h : kind.Course start xs final) :
    final = (xs.getLast?.map Sample.left).getD start := by
  induction h with
  | done => rfl
  | @tick before after x xs draws hleft rest ih =>
    rw [ih, List.getLast?_cons]
    cases xs.getLast? <;> rfl

end NodeKind.Course

/-! ## On and off -/

/-- A node that has been evaluated in no tick. -/
structure Node.Fresh (n : Node) : Prop where
  output : n.output = .unset
  state : n.state = {}

theorem Node.fresh_ofType (type : NodeType) (id : NodeId) : (Node.ofType type id).Fresh :=
  ⟨rfl, rfl⟩

/-- Whether the first input turned the node on. -/
def Sample.isOn (x : Sample) : Bool := NodeKind.isOn x.inputs

/-- Whether a node was on in the tick of a number. They count from one: before that all is off. -/
def onAt (xs : List Sample) : Nat → Bool
  | 0 => false
  | k + 1 => xs[k]?.any Sample.isOn

/-- Whether a node was turned on in the tick of a number: it was off in the tick before. -/
def risesAt (xs : List Sample) (k : Nat) : Bool := onAt xs k && !onAt xs (k - 1)

/-- Whether a node was turned on in a tick, and has been on since up to the tick of a number. -/
def OnSince (xs : List Sample) (k : Nat) (first : Sample) : Prop :=
  ∃ j < k, xs[j]? = some first ∧ risesAt xs (j + 1) = true ∧
    ∀ i, j < i → i ≤ k → onAt xs i = true

section

variable {xs : List Sample} {k : Nat}

theorem onAt_succ {x : Sample} (hx : xs[k]? = some x) : onAt xs (k + 1) = x.isOn := by
  rw [onAt, hx, Option.any_some]

theorem onSince_self {x : Sample} (hx : xs[k]? = some x) (hon : x.isOn = true)
    (hbefore : onAt xs k = false) : OnSince xs (k + 1) x := by
  rw [← onAt_succ hx] at hon
  refine ⟨k, Nat.lt_succ_self k, hx, ?_, fun i hki hik => ?_⟩
  · rw [risesAt, hon, Nat.add_sub_cancel, hbefore]
    rfl
  · rwa [Nat.le_antisymm hik hki]

theorem OnSince.succ {first : Sample} (h : OnSince xs k first) (hon : onAt xs (k + 1) = true) :
    OnSince xs (k + 1) first := by
  obtain ⟨j, hj, hfirst, hrise, hsince⟩ := h
  refine ⟨j, Nat.lt_succ_of_lt hj, hfirst, hrise, fun i hji hik => ?_⟩
  rcases Nat.le_succ_iff.mp hik with hik | rfl
  · exact hsince i hji hik
  · exact hon

/-- A node that is on was turned on at some time. -/
theorem exists_onSince (h : onAt xs k = true) : ∃ first, OnSince xs k first := by
  induction k with
  | zero => cases h
  | succ k ih =>
    cases hbefore : onAt xs k with
    | false =>
      cases hx : xs[k]? with
      | none =>
        rw [onAt, hx] at h
        cases h
      | some x =>
        rw [onAt_succ hx] at h
        exact ⟨x, onSince_self hx h hbefore⟩
    | true =>
      obtain ⟨first, hfirst⟩ := ih hbefore
      exact ⟨first, hfirst.succ h⟩

end

end Patchbay
