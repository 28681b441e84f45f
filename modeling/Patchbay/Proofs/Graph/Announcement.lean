import Patchbay.Proofs.Graph.OutputChange

/-!
# Nothing changes in silence

What a subscriber is not told has not changed. `Node.Announced` and `Graph.Announced` say so of a
node and of a patch before and after: each field that can change is as it was or its change is
among the notifications, and the others are as they were. Every step of a patch is of this kind
(`Graph.Step.announced`), and so is every action of a session, refused or not
(`Session.no_silent_change`).
-/

namespace Patchbay

/-- Whether all that became different about a node is among some notifications. -/
structure Node.Announced (n m : Node) (events : List Event) : Prop where
  kind : m.kind = n.kind
  size : m.size = n.size
  color : m.color = n.color
  slots : m.slots = n.slots
  name : m.name = n.name ∨ .updated n.id .name ∈ events
  description : m.description = n.description ∨ .updated n.id .description ∈ events
  position : m.position = n.position ∨ .updated n.id .position ∈ events
  /-- Each input on its own. -/
  binding : ∀ index, m.binding? index = n.binding? index ∨ .updated n.id (.input index) ∈ events
  /-- The output is the same to the bit or an equal one, or it is announced. -/
  output : m.output = n.output ∨ m.output.equal n.output = true ∨
    .updated n.id .output ∈ events

/-- Whether all that became different about a patch is among some notifications. -/
structure Graph.Announced (g g' : Graph) (events : List Event) : Prop where
  /-- The nodes that are there before and after. -/
  nodes : ∀ n ∈ g.nodes, ∀ m ∈ g'.nodes, m.id = n.id → n.Announced m events
  /-- Which nodes there are, and their order. -/
  ids : g'.ids = g.ids ∨ (∃ id, .added id ∈ events ∧ g'.ids = g.ids ++ [id]) ∨
    ∃ id, .removed id ∈ events ∧ g'.ids = g.ids.filter (· ≠ id)
  selected : g'.selected = g.selected ∨ .selectionChanged g'.selected ∈ events
  viewport : g'.viewport = g.viewport ∨ .viewportChanged ∈ events

namespace Node

/-! ## Bindings -/

/-- To unbind what reads from a node concerns no input but those that do. -/
theorem binding?_keepReferences (n : Node) (id : NodeId) (index : Nat) :
    (n.keepReferences (· != id)).binding? index = n.binding? index ∨
      index ∈ n.indicesReading id := by
  unfold binding? keepReferences
  rw [List.getElem?_map]
  cases hi : n.inputs[index]? with
  | none => exact .inl rfl
  | some i =>
    rw [Option.map_some, all_ne_source?]
    cases hreads : i.binding.refersTo id with
    | false => exact .inl rfl
    | true =>
      right
      rw [indicesReading, List.mem_filterMap]
      exact ⟨(i, index), List.mk_mem_zipIdx_iff_getElem?.mpr hi, if_pos hreads⟩

/-! ## Changes of one node -/

-- the mark is not announced, because it follows the selection
theorem Announced.marked (n : Node) (on : Bool) (events : List Event) :
    n.Announced { n with selected := on } events :=
  ⟨rfl, rfl, rfl, rfl, .inl rfl, .inl rfl, .inl rfl, fun _ => .inl rfl, .inl rfl⟩

theorem Announced.refl (n : Node) (events : List Event) : n.Announced n events :=
  .marked n n.selected events

theorem Announced.placed (n : Node) (p : Point) :
    n.Announced { n with position := p } [.updated n.id .position] :=
  ⟨rfl, rfl, rfl, rfl, .inl rfl, .inl rfl, .inr List.mem_cons_self, fun _ => .inl rfl, .inl rfl⟩

theorem Announced.renamed (n : Node) (name : String) :
    n.Announced { n with name := name } [.updated n.id .name] :=
  ⟨rfl, rfl, rfl, rfl, .inr List.mem_cons_self, .inl rfl, .inl rfl, fun _ => .inl rfl, .inl rfl⟩

theorem Announced.described (n : Node) (description : String) :
    n.Announced { n with description := description } [.updated n.id .description] :=
  ⟨rfl, rfl, rfl, rfl, .inl rfl, .inr List.mem_cons_self, .inl rfl, fun _ => .inl rfl, .inl rfl⟩

theorem Announced.bound (n : Node) (index : Nat) (b : Binding) :
    n.Announced (n.bind index b) [.updated n.id (.input index)] where
  kind := rfl
  size := rfl
  color := rfl
  slots := slots_bind n index b
  name := .inl rfl
  description := .inl rfl
  position := .inl rfl
  binding other := by
    by_cases hother : other = index
    · rw [hother]
      exact .inr List.mem_cons_self
    · exact .inl (n.binding?_bind_of_ne b hother)
  output := .inl rfl

theorem Announced.released (n : Node) (id : NodeId) {events : List Event}
    (h : ∀ index ∈ n.indicesReading id, .updated n.id (.input index) ∈ events) :
    n.Announced (n.keepReferences (· != id)) events where
  kind := rfl
  size := rfl
  color := rfl
  slots := slots_keepReferences n _
  name := .inl rfl
  description := .inl rfl
  position := .inl rfl
  binding index := (n.binding?_keepReferences id index).imp_right (h index)
  output := .inl rfl

theorem Announced.evaluated (n : Node) (e : Evaluation) {events : List Event}
    (h : e.output.equal n.output = true ∨ .updated n.id .output ∈ events) :
    n.Announced (n.after e) events :=
  ⟨rfl, rfl, rfl, rfl, .inl rfl, .inl rfl, .inl rfl, fun _ => .inl rfl, .inr h⟩

end Node

namespace Graph

variable {g g' : Graph}

/-! ## Steps -/

/-- The nodes of a patch beside themselves. -/
theorem announced_self (hs : g.Sound) (events : List Event) :
    ∀ n ∈ g.nodes, ∀ m ∈ g.nodes, m.id = n.id → n.Announced m events := by
  intro n hn m hm hid
  obtain rfl := eq_of_id_eq hs.nodup hn hm hid
  exact .refl m events

/-- The patch with one node changed, if the change of the node is announced. -/
theorem Announced.update (hs : g.Sound) {id : NodeId} {f : Node → Node} {events : List Event}
    (hf : ∀ n, (f n).id = n.id) (h : ∀ n : Node, n.id = id → n.Announced (f n) events) :
    g.Announced (g.update id f) events where
  nodes := by
    intro n hn m hm hid
    obtain ⟨k, hk, rfl⟩ := mem_nodes_update hm
    by_cases hkid : k.id = id
    · rw [if_pos hkid] at hid ⊢
      rw [hf] at hid
      obtain rfl := eq_of_id_eq hs.nodup hn hk hid
      exact h k hkid
    · rw [if_neg hkid] at hid ⊢
      exact announced_self hs events n hn k hk hid
  ids := .inl (g.ids_update id f hf)
  selected := .inl rfl
  viewport := .inl rfl

theorem Announced.withNode (hs : g.Sound) {n : Node} (hnew : n.id ∉ g.ids) (random : Random) :
    g.Announced ({ g with random := random }.withNode n) [.added n.id] where
  nodes := by
    intro k hk m hm hid
    rcases List.mem_append.mp hm with hm | hm
    · exact announced_self hs _ k hk m hm hid
    · obtain rfl := List.mem_singleton.mp hm
      exact absurd (id_mem_ids hk) (hid ▸ hnew)
  ids := .inr (.inl ⟨n.id, List.mem_cons_self, ids_withNode _ n⟩)
  selected := .inl rfl
  viewport := .inl rfl

theorem Announced.without (hs : g.Sound) (id : NodeId) :
    g.Announced (g.without id) (g.removalEvents id) where
  nodes := by
    intro n hn m hm hid
    obtain ⟨k, hk, rfl⟩ := List.mem_map.mp hm
    obtain rfl := eq_of_id_eq hs.nodup hn (List.mem_filter.mp hk).1 hid
    refine .released k id fun index hindex => ?_
    rw [removalEvents, List.mem_append, List.mem_cons, List.mem_flatMap]
    exact .inr (.inr ⟨k, hk, List.mem_map_of_mem hindex⟩)
  ids := .inr (.inr ⟨id, by simp [removalEvents], ids_without g id⟩)
  selected := by
    by_cases hselected : g.selected = some id
    · right
      simp [removalEvents, Graph.without, hselected]
    · exact .inl (if_neg hselected)
  viewport := .inl rfl

theorem Announced.reselect (hs : g.Sound) (selected : Option NodeId) :
    g.Announced (g.reselect selected) [.selectionChanged selected] where
  nodes := by
    intro n hn m hm hid
    obtain ⟨k, hk, rfl⟩ := hs.mem_nodes_reselect hm
    obtain rfl := eq_of_id_eq hs.nodup hn hk hid
    exact .marked k _ _
  ids := .inl (ids_reselect g selected)
  selected := .inr List.mem_cons_self
  viewport := .inl (viewport_reselect g selected)

theorem Announced.tick (hs : g.Sound) (now : Instant) :
    g.Announced (g.tick now).graph (g.tick now).events where
  nodes := by
    intro n hn m hm hid
    obtain ⟨-, e, -, hafter, hannounced⟩ := exists_node?_tick hs hn now
    have hfound := (node?_eq_some_iff (hs.tick now).nodup).mpr ⟨hm, hid⟩
    rw [hafter] at hfound
    obtain rfl := Option.some.inj hfound
    refine .evaluated n e ?_
    cases hequal : e.output.equal n.output with
    | true => exact .inl rfl
    | false => exact .inr (hannounced hequal)
  ids := .inl (ids_tick g now)
  selected := .inl rfl
  viewport := .inl rfl

/-- Whatever a step of a patch changes is announced. -/
theorem Step.announced {events : List Event} {log : List LogLine}
    (hstep : g.Step g' events log) (hs : g.Sound) : g.Announced g' events := by
  cases hstep with
  | still | draw => exact ⟨announced_self hs [], .inl rfl, .inl rfl, .inl rfl⟩
  | add random n hnew => exact .withNode hs hnew random
  | remove id hid => exact .without hs id
  | bind n index b hn hindex hsource =>
    exact .update hs (fun _ => rfl) fun m hm => hm ▸ .bound m index b
  | place id hid f => exact .update hs (fun _ => rfl) fun m hm => hm ▸ .placed m _
  | rename id hid name => exact .update hs (fun _ => rfl) fun m hm => hm ▸ .renamed m name
  | describe id hid text => exact .update hs (fun _ => rfl) fun m hm => hm ▸ .described m text
  | reselect selected hother hmem => exact .reselect hs selected
  | scroll d hd =>
    exact ⟨announced_self hs [.viewportChanged], .inl rfl, .inl rfl, .inr List.mem_cons_self⟩
  | tick now => exact .tick hs now

end Graph

/--
Whatever is done in a session, refused or not, what becomes different about the patch is announced:
the fields of a node that can change each on its own, the nodes that come and go, the selection as
it is then, and the scroll. A tick announces every output that is not equal to the one before, also
one that is no number and stays so.
-/
theorem Session.no_silent_change (config : Config) (random : Random) (actions : List Action)
    (a : Action) :
    let s := (ofGraph (.blank config random)).run actions
    let p := s.perform a
    s.graph.Announced p.session.graph p.events ∧
      ∀ now, a = .edit (.tick now) → ∀ n ∈ s.graph.nodes,
        (p.session.graph.output n.id).equal n.output = true ∨
          .updated n.id .output ∈ p.events := by
  intro s p
  have hs : s.graph.Sound := Graph.Reachable.sound ⟨config, random, actions, rfl⟩
  refine ⟨(s.step_perform a).announced hs, ?_⟩
  rintro now rfl n hn
  have htick : .updated n.id .output ∈ p.events ↔ s.graph.outputDiffers now n = true :=
    Graph.mem_events_tick hs hn
  rw [htick, Graph.outputDiffers, Bool.not_eq_true']
  exact (Bool.eq_false_or_eq_true _)

/-- The removal of a node is felt at a node that reads from it. -/
theorem Session.no_silent_change_removal :
    let battery := Node.ofType NodeKind.battery.nodeType (.ofNat 1)
    let logger := Node.ofType NodeKind.logger.nodeType (.ofNat 2)
    let s := (ofGraph (.blank {} (.ofSeed 7))).run
      [.edit (.add battery), .edit (.add logger), .edit (.connect battery.id logger.id 0),
        .edit (.select battery.id)]
    let p := s.perform (.edit (.remove battery.id))
    p.events = [.selectionChanged none, .removed battery.id, .updated logger.id (.input 0)] ∧
      s.graph.Announced p.session.graph p.events := by
  intro battery logger s p
  have hevents : p.events =
      [.selectionChanged none, .removed battery.id, .updated logger.id (.input 0)] := by
    decide +kernel
  exact ⟨hevents, (no_silent_change {} (.ofSeed 7) _ _).1⟩

end Patchbay
