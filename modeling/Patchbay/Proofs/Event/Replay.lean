import Patchbay.Proofs.Event.Delivery
import Patchbay.Proofs.Graph.OutputChange

/-!
# Replaying notifications

A subscriber that joins a patch without nodes can keep a replica of its nodes and its selection from
the notifications alone. At the end of every action the replica is right, and before it is, at every
single notification, what it is told makes sense to it: a node that is added is not there yet, one
that is removed, updated or selected is, and the selection is a node of the replica all along
(`Session.replay_received`).
-/

namespace Patchbay

/-- What a subscriber knows of a patch from its notifications alone. -/
structure Replica where
  /-- The nodes in order. -/
  ids : List NodeId := []
  selected : Option NodeId := none

namespace Replica

/-- The replica of a patch. -/
def ofGraph (g : Graph) : Replica := ⟨g.ids, g.selected⟩

/-- The replica after a notification. -/
def receive (r : Replica) : Event → Replica
  | .added id => { r with ids := r.ids ++ [id] }
  | .removed id => { r with ids := r.ids.filter (· ≠ id) }
  | .selectionChanged selected => { r with selected := selected }
  | .updated _ _ | .viewportChanged => r

/-- The replica after some notifications. -/
def replay (r : Replica) (events : List Event) : Replica := events.foldl receive r

/-- Whether a notification makes sense to who holds the replica. -/
def Expects (r : Replica) : Event → Prop
  | .added id => id ∉ r.ids
  | .removed id => id ∈ r.ids
  | .updated id _ => id ∈ r.ids
  | .selectionChanged selected => ∀ id ∈ selected, id ∈ r.ids
  | .viewportChanged => True

/-- The selection is a node of the replica. -/
def Coherent (r : Replica) : Prop := ∀ id ∈ r.selected, id ∈ r.ids

/-- Notifications that make sense one after the other, and lead from one replica to another. -/
inductive Leads : Replica → List Event → Replica → Prop where
  | nil {r : Replica} (h : r.Coherent) : Leads r [] r
  | cons {r r' : Replica} {e : Event} {events : List Event} (h : r.Coherent) (he : r.Expects e)
      (hrest : Leads (r.receive e) events r') : Leads r (e :: events) r'

variable {r r' : Replica} {events later : List Event}

theorem Leads.coherent (h : r.Leads events r') : r.Coherent := by
  cases h with
  | nil h => exact h
  | cons h he hrest => exact h

theorem Leads.append {r'' : Replica} (h : r.Leads events r') (h' : r'.Leads later r'') :
    r.Leads (events ++ later) r'' := by
  induction h with
  | nil _ => exact h'
  | cons h he _ ih => exact .cons h he (ih h')

theorem Leads.replay_eq (h : r.Leads events r') : r.replay events = r' := by
  induction h with
  | nil _ => rfl
  | cons _ _ _ ih => exact ih

/-- Part of the notifications leads to where the others go on from. -/
theorem Leads.of_append (h : r.Leads (events ++ later) r') : (r.replay events).Leads later r' := by
  induction events generalizing r with
  | nil => exact h
  | cons e events ih =>
    cases h with
    | cons _ _ hrest => exact ih hrest

theorem Leads.expects {e : Event} (h : r.Leads (e :: events) r') : r.Expects e := by
  cases h with
  | cons _ he _ => exact he

/-- To hear of changes of its nodes leaves a replica as it is. -/
theorem Leads.of_updated (h : r.Coherent)
    (hevents : ∀ e ∈ events, ∃ id ∈ r.ids, ∃ field, e = .updated id field) :
    r.Leads events r := by
  induction events with
  | nil => exact .nil h
  | cons e events ih =>
    obtain ⟨⟨id, hid, field, rfl⟩, hrest⟩ := List.forall_mem_cons.mp hevents
    exact .cons h hid (ih hrest)

end Replica

namespace Graph

variable {g g' : Graph}

theorem Sound.coherent (h : g.Sound) : (Replica.ofGraph g).Coherent := h.selected_mem

/-! ## Steps -/

theorem leads_update (hs : g.Sound) {id : NodeId} (hid : id ∈ g.ids) (field : NodeField)
    {f : Node → Node} (hf : ∀ n, (f n).id = n.id) :
    (Replica.ofGraph g).Leads [.updated id field] (Replica.ofGraph (g.update id f)) := by
  have hsame : Replica.ofGraph (g.update id f) = Replica.ofGraph g :=
    congrArg (Replica.mk · g.selected) (g.ids_update id f hf)
  rw [hsame]
  exact .cons hs.coherent hid (.nil hs.coherent)

theorem leads_withNode (hs : g.Sound) {n : Node} (hnew : n.id ∉ g.ids) (random : Random) :
    (Replica.ofGraph g).Leads [.added n.id]
      (Replica.ofGraph ({ g with random := random }.withNode n)) := by
  have hafter : Replica.ofGraph ({ g with random := random }.withNode n) =
      (Replica.ofGraph g).receive (.added n.id) :=
    congrArg (Replica.mk · g.selected) (ids_withNode _ n)
  rw [hafter]
  refine .cons hs.coherent hnew (.nil fun id hid => ?_)
  exact List.mem_append_left _ (hs.selected_mem id hid)

/-- First the selection goes, then the node, then the wires that came from it. -/
theorem leads_without (hs : g.Sound) {id : NodeId} (hid : id ∈ g.ids) :
    (Replica.ofGraph g).Leads (g.removalEvents id) (Replica.ofGraph (g.without id)) := by
  let unselected : Replica := ⟨g.ids, (g.without id).selected⟩
  have hafter : Replica.ofGraph (g.without id) = unselected.receive (.removed id) :=
    congrArg (Replica.mk · _) (ids_without g id)
  have hcoherent : (Replica.ofGraph (g.without id)).Coherent := (hs.without id).coherent
  have hselection : (Replica.ofGraph g).Leads
      (if g.selected = some id then [.selectionChanged none] else []) unselected := by
    by_cases hselected : g.selected = some id
    · have hnone : unselected = (Replica.ofGraph g).receive (.selectionChanged none) :=
        congrArg (Replica.mk g.ids) (if_pos hselected)
      rw [if_pos hselected, hnone]
      exact .cons hs.coherent (fun _ h => nomatch h) (.nil fun _ h => nomatch h)
    · have hsame : unselected = Replica.ofGraph g :=
        congrArg (Replica.mk g.ids) (if_neg hselected)
      rw [if_neg hselected, hsame]
      exact .nil hs.coherent
  have hunselected : unselected.Coherent := by
    intro other hother
    have hmem : other ∈ (g.without id).ids := hcoherent other hother
    rw [ids_without] at hmem
    exact (List.mem_filter.mp hmem).1
  refine hselection.append (.cons hunselected hid ?_)
  rw [← hafter]
  refine .of_updated hcoherent ?_
  intro e he
  obtain ⟨n, hn, he⟩ := List.mem_flatMap.mp he
  obtain ⟨index, -, rfl⟩ := List.mem_map.mp he
  refine ⟨n.id, ?_, .input index, rfl⟩
  obtain ⟨hn, hne⟩ := List.mem_filter.mp hn
  change n.id ∈ (g.without id).ids
  rw [ids_without]
  exact List.mem_filter.mpr ⟨id_mem_ids hn, hne⟩

theorem leads_tick (hs : g.Sound) (now : Instant) :
    (Replica.ofGraph g).Leads (g.tick now).events (Replica.ofGraph (g.tick now).graph) := by
  have hsame : Replica.ofGraph (g.tick now).graph = Replica.ofGraph g :=
    congrArg (Replica.mk · g.selected) (ids_tick g now)
  rw [hsame, events_tick hs]
  refine .of_updated hs.coherent ?_
  intro e he
  obtain ⟨n, hn, rfl⟩ := List.mem_map.mp he
  exact ⟨n.id, id_mem_ids (List.mem_filter.mp hn).1, .output, rfl⟩

/-- The notifications of a step lead from the patch before it to the patch after it. -/
theorem Step.leads {events : List Event} {log : List LogLine} (hstep : g.Step g' events log)
    (hs : g.Sound) : (Replica.ofGraph g).Leads events (Replica.ofGraph g') := by
  cases hstep with
  | still | draw => exact .nil hs.coherent
  | add random n hnew => exact leads_withNode hs hnew random
  | remove id hid => exact leads_without hs hid
  | bind n index b hn hindex hsource =>
    exact leads_update hs (mem_ids_of_node? hn) _ fun _ => rfl
  | place id hid f => exact leads_update hs hid _ fun _ => rfl
  | rename id hid name => exact leads_update hs hid _ fun _ => rfl
  | describe id hid text => exact leads_update hs hid _ fun _ => rfl
  | reselect selected hother hmem =>
    have hafter : Replica.ofGraph (g.reselect selected) = ⟨g.ids, selected⟩ :=
      congrArg (Replica.mk · selected) (ids_reselect g selected)
    rw [hafter]
    exact .cons hs.coherent hmem (.nil hmem)
  | scroll d hd => exact .cons hs.coherent trivial (.nil hs.coherent)
  | tick now => exact leads_tick hs now

end Graph

namespace Session

/-- What is sent in a run leads from the patch before it to the patch after it. -/
theorem leads_sent {s : Session} (hs : s.graph.Sound) (actions : List Action) :
    (Replica.ofGraph s.graph).Leads (s.sent actions) (Replica.ofGraph (s.run actions).graph) := by
  induction actions generalizing s with
  | nil => exact .nil hs.coherent
  | cons a actions ih =>
    have hstep := s.step_perform a
    exact (hstep.leads hs).append (ih (hs.step hstep))

/--
The notifications that a subscriber receives from a patch that it joined when it had no nodes,
replayed in order, give the identities of the nodes in order and the selection, whatever was done
until then. Whatever part of them it has received, its selection is one of its nodes, and the next
notification adds a node that it does not have, or removes, updates or selects one that it has.
-/
theorem replay_received (config : Config) (random : Random) (before actions : List Action) :
    let s := (ofGraph (.blank config random)).run before
    let joined := s.perform .subscribe
    let received := joined.session.received s.bus.next actions
    let g := (joined.session.run actions).graph
    s.graph.nodes = [] → .hangUp s.bus.next ∉ actions →
      joined.reply = .ok (.index s.bus.next) ∧
        Replica.replay {} received = ⟨g.ids, g.selected⟩ ∧
        ∀ early late, received = early ++ late →
          (Replica.replay {} early).Coherent ∧
            ∀ e ∈ late.head?, (Replica.replay {} early).Expects e := by
  intro s joined received g hempty hstays
  have hs : s.Attended := (attended_ofGraph (Graph.sound_blank config random)).run before
  obtain ⟨hsubscribed, hpending⟩ := hs.subscribed
  have hreceived : received = joined.session.sent actions := by
    have heq := received_eq hsubscribed hstays
    rwa [hpending, List.nil_append] at heq
  -- a patch without nodes has no selection either
  have hstart : Replica.ofGraph joined.session.graph = {} := by
    have hids : s.graph.ids = [] := by rw [Graph.ids, hempty]; rfl
    have hselected : s.graph.selected = none := by
      rw [Option.eq_none_iff_forall_not_mem]
      intro id hid
      have hmem := hs.sound.selected_mem id hid
      rw [hids] at hmem
      cases hmem
    exact congrArg₂ Replica.mk hids hselected
  have hleads : Replica.Leads {} received ⟨g.ids, g.selected⟩ := by
    rw [hreceived, ← hstart]
    exact leads_sent (s := joined.session) hs.sound actions
  refine ⟨rfl, hleads.replay_eq, fun early late hsplit => ?_⟩
  rw [hsplit] at hleads
  have hrest := hleads.of_append
  refine ⟨hrest.coherent, fun e he => ?_⟩
  obtain ⟨later, rfl⟩ := List.head?_eq_some_iff.mp he
  exact hrest.expects

/-- A node goes that is selected and has a wire to another; its wire is cut last. -/
theorem replay_received_removal :
    let battery := Node.ofType NodeKind.battery.nodeType (.ofNat 1)
    let echoer := Node.ofType NodeKind.echoer.nodeType (.ofNat 2)
    let before : List Action := [.edit (.add battery), .edit (.remove battery.id)]
    let actions : List Action :=
      [.edit (.add battery), .edit (.add echoer), .edit (.connect battery.id echoer.id 0),
        .edit (.select battery.id), .drain 0, .edit (.remove battery.id)]
    let received : List Event :=
      [.added battery.id, .added echoer.id, .updated echoer.id (.input 0),
        .selectionChanged (some battery.id), .selectionChanged none, .removed battery.id,
        .updated echoer.id (.input 0)]
    let s := (ofGraph (.blank {} (.ofSeed 7))).run before
    let joined := s.perform .subscribe
    let g := (joined.session.run actions).graph
    joined.session.received s.bus.next actions = received ∧
      Replica.replay {} received = ⟨g.ids, g.selected⟩ ∧ g.ids = [echoer.id] := by
  intro battery echoer before actions received s joined g
  have hempty : s.graph.nodes = [] := by decide +kernel
  have hstays : .hangUp s.bus.next ∉ actions := by simp [actions]
  have hreceived : joined.session.received s.bus.next actions = received := by decide +kernel
  have hids : g.ids = [echoer.id] := by decide +kernel
  have hreplayed := replay_received {} (.ofSeed 7) before actions
  dsimp only at hreplayed
  rw [show (ofGraph (.blank {} (.ofSeed 7))).run before = s from rfl,
    show s.perform .subscribe = joined from rfl,
    show (joined.session.run actions).graph = g from rfl, hreceived] at hreplayed
  -- from here on the session is not to be evaluated
  clear_value g joined s
  obtain ⟨-, hreplay, -⟩ := hreplayed hempty hstays
  exact ⟨hreceived, hreplay, hids⟩

end Session

end Patchbay
