import Patchbay.Proofs.Graph.Nodes

/-!
# What an action does to a patch

Whatever is done in a session, by an edit, a pointer or an inspector, the patch takes one of eleven
steps. `Graph.Step` lists them with the notifications and log lines of each and with what holds
when it is taken, so that what every step keeps is kept by every run (`Session.run_invariant`).
-/

namespace Patchbay

/-- A step of a patch, with its notifications and the lines it logs. -/
inductive Graph.Step (g : Graph) : Graph → List Event → List LogLine → Prop where
  /-- Nothing happens. -/
  | still : Step g g [] []
  /-- Draws are made and come to nothing. -/
  | draw (random : Random) : Step g { g with random := random } [] []
  /-- A node is added under a new name; a spawned one was placed by draws before. -/
  | add (random : Random) (n : Node) (hnew : n.id ∉ g.ids) :
      Step g ({ g with random := random }.withNode n) [.added n.id] []
  /-- A node is removed. -/
  | remove (id : NodeId) (hid : id ∈ g.ids) : Step g (g.without id) (g.removalEvents id) []
  /-- An input is bound, to no absent node. -/
  | bind (n : Node) (index : Nat) (b : Binding) (hn : g.node? n.id = some n)
      (hindex : index < n.inputs.length) (hsource : ∀ source ∈ b.source?, source ∈ g.ids) :
      Step g (g.update n.id (·.bind index b)) [.updated n.id (.input index)] []
  /-- A node is put elsewhere. -/
  | place (id : NodeId) (hid : id ∈ g.ids) (f : Point → Point) :
      Step g (g.update id fun n => { n with position := f n.position })
        [.updated id .position] []
  /-- A node gets another name. -/
  | rename (id : NodeId) (hid : id ∈ g.ids) (name : String) :
      Step g (g.update id fun n => { n with name := name }) [.updated id .name] []
  /-- A node gets another description. -/
  | describe (id : NodeId) (hid : id ∈ g.ids) (description : String) :
      Step g (g.update id fun n => { n with description := description })
        [.updated id .description] []
  /-- Another node, or none, is selected. -/
  | reselect (selected : Option NodeId) (hother : g.selected ≠ selected)
      (hmem : ∀ id ∈ selected, id ∈ g.ids) :
      Step g (g.reselect selected) [.selectionChanged selected] []
  /-- The view is scrolled. -/
  | scroll (d : Offset) (hd : d.isZero = false) :
      Step g { g with viewport := ⟨g.viewport.scroll + d⟩ } [.viewportChanged] []
  /-- Every node is evaluated. -/
  | tick (now : Instant) : Step g (g.tick now).graph (g.tick now).events (g.tick now).log

/-- The point in time at which an edit ticks, if it does. -/
def Edit.tickTime? : Edit → Option Instant
  | tick now => some now
  | add _ | spawn .. | remove _ | bind .. | connect .. | setLiteral .. | clearInput ..
  | moveNode .. | setPosition .. | rename .. | describe .. | select _ | deselect | scrollBy _ => none

theorem ok_of_map_ok {ε α β : Type} {x : Except ε α} {f : α → β} {b : β}
    (h : x.map f = .ok b) : ∃ a, x = .ok a ∧ f a = b := by
  cases x with
  | error e => cases h
  | ok a => exact ⟨a, rfl, Except.ok.inj h⟩

namespace Graph

variable {g : Graph}

/-! ## Edits of the patch -/

theorem step_of_add (random : Random) {n : Node} {c : Change NodeId}
    (h : { g with random := random }.add n = .ok c) : Step g c.graph c.events [] := by
  unfold add at h
  split at h
  · cases h
  · rename_i hnew
    cases h
    exact .add random n fun hmem => hnew ((contains_iff _ _).mpr hmem)

theorem step_of_spawn {kind : NodeKind} {id : NodeId} {c : Change NodeId}
    (h : g.spawn kind id = .ok c) : Step g c.graph c.events [] :=
  step_of_add (g.spawned kind id).2 h

theorem step_remove (g : Graph) (id : NodeId) :
    Step g (g.remove id).graph (g.remove id).events [] := by
  unfold remove
  split
  · exact .still
  · rename_i hn
    exact .remove id (mem_ids_of_node? hn)

theorem step_of_bind {id : NodeId} {index : Nat} {b : Binding} {c : Change Binding}
    (h : g.bind id index b = .ok c) : Step g c.graph c.events [] := by
  obtain ⟨hsources, before, hbefore, rfl⟩ := bind_eq_ok_iff.mp h
  obtain ⟨n, hn, hindex⟩ := Option.bind_eq_some_iff.mp hbefore
  obtain ⟨i, hi, -⟩ := Option.map_eq_some_iff.mp hindex
  obtain rfl := id_of_node? hn
  exact .bind n index b hn (List.getElem?_eq_some_iff.mp hi).1 hsources

/-- An edit of one node is a step if writing that field is one. -/
theorem step_of_editNode {id : NodeId} {field : NodeField} {f : Node → Node} {c : Change Unit}
    (h : g.editNode id field f = .ok c)
    (hstep : id ∈ g.ids → Step g (g.update id f) [.updated id field] []) :
    Step g c.graph c.events [] := by
  unfold editNode at h
  split at h
  · rename_i hid
    cases h
    exact hstep ((contains_iff g id).mp hid)
  · cases h

theorem step_of_rename {id : NodeId} {name : String} {c : Change Unit}
    (h : g.rename id name = .ok c) : Step g c.graph c.events [] :=
  step_of_editNode h fun hid => .rename id hid name

theorem step_of_select {id : NodeId} {c : Change Unit} (h : g.select id = .ok c) :
    Step g c.graph c.events [] := by
  unfold select at h
  split at h
  · rename_i hid
    split at h
    · cases h
      exact .still
    · rename_i hother
      cases h
      refine .reselect (some id) hother fun other hmem => ?_
      rw [← Option.some.inj hmem]
      exact (contains_iff g id).mp hid
  · cases h

theorem step_of_connect {source target : NodeId} {index : Nat} {c : Change Wire}
    (h : g.connect source target index = .ok c) : Step g c.graph c.events [] := by
  obtain ⟨b, hb, rfl⟩ := ok_of_map_ok h
  exact step_of_bind hb

theorem step_deselect (g : Graph) : Step g g.deselect.graph g.deselect.events [] := by
  unfold deselect
  split
  · exact .still
  · rename_i id hid
    refine .reselect none (by simp [hid]) fun other hmem => ?_
    cases hmem

theorem step_scrollBy (g : Graph) (d : Offset) :
    Step g (g.scrollBy d).graph (g.scrollBy d).events [] := by
  unfold scrollBy
  split
  · exact .still
  · rename_i hd
    exact .scroll d (by simpa using hd)

end Graph

private theorem Edit.step_of_ofChange {g : Graph} {α : Type} {x : Except GraphError (Change α)}
    {reply : α → Reply} {r : Edit.Result}
    (h : (x.map fun c => Edit.Result.ofChange c reply) = .ok r)
    (hstep : ∀ c, x = .ok c → g.Step c.graph c.events []) : g.Step r.graph r.events r.log := by
  obtain ⟨c, hc, rfl⟩ := ok_of_map_ok h
  exact hstep c hc

theorem Edit.step_of_apply {g : Graph} {e : Edit} {r : Edit.Result} (h : e.apply g = .ok r) :
    g.Step r.graph r.events r.log := by
  cases e with
  | add n => exact step_of_ofChange h fun c hc => Graph.step_of_add g.random hc
  | spawn kind id => exact step_of_ofChange h fun c hc => Graph.step_of_spawn hc
  | remove id =>
    cases h
    exact Graph.step_remove g id
  | bind id index b => exact step_of_ofChange h fun c hc => Graph.step_of_bind hc
  | connect source target index =>
    exact step_of_ofChange h fun c hc => Graph.step_of_connect hc
  | setLiteral id index v => exact step_of_ofChange h fun c hc => Graph.step_of_bind hc
  | clearInput id index => exact step_of_ofChange h fun c hc => Graph.step_of_bind hc
  | moveNode id d =>
    exact step_of_ofChange h fun c hc =>
      Graph.step_of_editNode hc fun hid => .place id hid (· + d)
  | setPosition id p =>
    exact step_of_ofChange h fun c hc =>
      Graph.step_of_editNode hc fun hid => .place id hid fun _ => p
  | rename id name => exact step_of_ofChange h fun c hc => Graph.step_of_rename hc
  | describe id description =>
    exact step_of_ofChange h fun c hc =>
      Graph.step_of_editNode hc fun hid => .describe id hid description
  | select id => exact step_of_ofChange h fun c hc => Graph.step_of_select hc
  | deselect =>
    cases h
    exact Graph.step_deselect g
  | scrollBy d =>
    cases h
    exact Graph.step_scrollBy g d
  | tick now =>
    cases h
    exact .tick now

theorem Edit.nodes_leave (g : Graph) (e : Edit) : (e.leave g).nodes = g.nodes := by
  cases e <;> rfl

theorem Edit.step_leave (g : Graph) (e : Edit) : g.Step (e.leave g) [] [] := by
  cases e with
  | spawn kind id => exact .draw (g.spawned kind id).2
  | _ => exact .still

/-! ## Pointers -/

namespace Pointer

variable {g : Graph}

theorem step_attempt {α : Type} {x : Except GraphError (Change α)} {gesture : Gesture}
    (hstep : ∀ c, x = .ok c → g.Step c.graph c.events []) :
    g.Step (attempt g x gesture).graph (attempt g x gesture).events [] := by
  unfold attempt
  split
  · exact hstep _ rfl
  · exact .still

theorem step_drag (s : Pointer) (g : Graph) (e : PointerEvent) :
    g.Step (s.drag g e).2.graph (s.drag g e).2.events [] := by
  unfold drag
  split
  · rename_i id hmode
    exact step_attempt fun c hc =>
      Graph.step_of_editNode hc fun hid => .place id hid (· + e.delta)
  · exact .still
  · split
    · exact .still
    · exact Graph.step_scrollBy g (-e.delta)
  · exact .still

theorem step_move (s : Pointer) (g : Graph) (e : PointerEvent) :
    g.Step (s.move g e).2.graph (s.move g e).2.events [] := by
  unfold move
  split
  · exact .still
  · dsimp only
    split
    · exact .still
    · split
      · exact .still
      · exact step_drag _ g e
      · exact step_drag _ g e
  · exact step_drag s g e

theorem step_clickNode (g : Graph) (p : Point) (input : Option InputHit) :
    g.Step (clickNode g p input).graph (clickNode g p input).events [] := by
  unfold clickNode
  split
  · split
    · exact Graph.step_deselect g
    · exact step_attempt fun c hc => Graph.step_of_select hc
  · split
    · exact .still
    · exact Graph.step_deselect g

theorem step_click (g : Graph) (p : Point) :
    g.Step (click g p).graph (click g p).events [] := by
  unfold click
  dsimp only
  split
  · exact step_attempt fun c hc => Graph.step_of_bind hc
  · exact step_clickNode g p _

theorem step_dropWire (g : Graph) (source : NodeId) (p : Point) :
    g.Step (dropWire g source p).graph (dropWire g source p).events [] := by
  unfold dropWire
  split
  · exact .still
  · exact step_attempt fun c hc => Graph.step_of_connect hc

theorem step_handle (s : Pointer) (g : Graph) (input : PointerInput) :
    g.Step (s.handle g input).2.graph (s.handle g input).2.events [] := by
  cases input with
  | press e => exact .still
  | move e => exact step_move s g e
  | release e =>
    simp only [handle, release]
    split
    · exact step_click g e.position
    · exact step_dropWire g _ e.position
    · exact .still
  | wheel d =>
    simp only [handle, wheel]
    split
    · exact .still
    · exact Graph.step_scrollBy g d

end Pointer

/-! ## Inspectors -/

/-- An edit of the selected node is one of the patch, and no tick. -/
theorem InspectorEdit.exists_edit {g : Graph} {e : InspectorEdit} {c : Change Reply}
    (h : e.apply g = .ok c) :
    ∃ (e' : Edit) (reply : Reply), e'.tickTime? = none ∧
      e'.apply g = .ok { reply := reply, graph := c.graph, events := c.events } := by
  have of_bind {id : NodeId} {index : Nat} {b : Binding} {d : Change Binding}
      (hd : g.bind id index b = .ok d) :
      (Edit.bind id index b).apply g =
        .ok { reply := .binding d.result, graph := d.graph, events := d.events } := by
    rw [Edit.apply, hd]
    rfl
  cases e with
  | setLiteral index v =>
    obtain ⟨d, hd, rfl⟩ := ok_of_map_ok h
    unfold Graph.setSelectedLiteral at hd
    split at hd
    · cases hd
    · obtain ⟨b, hb, rfl⟩ := ok_of_map_ok hd
      exact ⟨_, _, rfl, of_bind hb⟩
  | setText index text =>
    obtain ⟨d, hd, rfl⟩ := ok_of_map_ok h
    unfold Graph.setSelectedText at hd
    split at hd
    · cases hd
    · split at hd
      · cases hd
      · split at hd
        · cases hd
        · obtain ⟨b, hb, rfl⟩ := ok_of_map_ok hd
          exact ⟨_, _, rfl, of_bind hb⟩
  | clearInput index =>
    obtain ⟨d, hd, rfl⟩ := ok_of_map_ok h
    unfold Graph.clearSelectedInput at hd
    split at hd
    · cases hd
    · obtain ⟨b, hb, rfl⟩ := ok_of_map_ok hd
      exact ⟨_, _, rfl, of_bind hb⟩
  | rename name =>
    obtain ⟨d, hd, rfl⟩ := ok_of_map_ok h
    unfold Graph.renameSelected at hd
    split at hd
    · cases hd
    · rename_i id hid
      refine ⟨.rename id name, .done, rfl, ?_⟩
      rw [Edit.apply, hd]
      rfl
  | remove =>
    obtain ⟨d, hd, rfl⟩ := ok_of_map_ok h
    unfold Graph.removeSelected at hd
    split at hd
    · cases hd
    · rename_i id hid
      dsimp only at hd
      split at hd
      · cases hd
        exact ⟨.remove id, _, rfl, rfl⟩
      · cases hd

theorem InspectorEdit.step_of_apply {g : Graph} {e : InspectorEdit} {c : Change Reply}
    (h : e.apply g = .ok c) : g.Step c.graph c.events [] := by
  obtain ⟨e', reply, -, happly⟩ := exists_edit h
  exact Edit.step_of_apply happly

/-! ## Sessions -/

namespace Session

@[simp] theorem graph_syncInspector (s : Session) (index : Nat) :
    (s.syncInspector index).2.graph = s.graph := by
  unfold syncInspector
  split <;> rfl

/-- An action of any part of a session is a step of its patch, if only that nothing happens. -/
theorem step_perform (s : Session) (a : Action) :
    s.graph.Step (s.perform a).session.graph (s.perform a).events (s.perform a).log := by
  cases a with
  | edit e =>
    simp only [perform]
    split
    · exact Edit.step_leave s.graph e
    · rename_i r hr
      exact Edit.step_of_apply hr
  | pointer index input => exact Pointer.step_handle (s.pointer index) s.graph input
  | setPointer index p => exact .still
  | attach => exact .still
  | sync index =>
    simp only [perform, graph_syncInspector]
    exact .still
  | inspect index e =>
    simp only [perform]
    split
    · exact .still
    · rename_i c hc
      rw [graph_syncInspector]
      exact InspectorEdit.step_of_apply hc
  | detach index =>
    simp only [perform]
    split <;> exact .still
  | subscribe => exact .still
  | drain subscriber =>
    simp only [perform]
    split <;> exact .still
  | hangUp subscriber =>
    simp only [perform]
    split <;> exact .still

theorem run_induction {P : Session → Prop}
    (hperform : ∀ s a, P s → P (s.perform a).session) {s : Session} (h : P s)
    (actions : List Action) : P (s.run actions) := by
  induction actions generalizing s with
  | nil => exact h
  | cons a actions ih => exact ih (hperform s a h)

/-- What every step of a patch keeps, every run keeps. -/
theorem run_invariant {P : Graph → Prop}
    (hstep : ∀ g g' events log, P g → g.Step g' events log → P g')
    (s : Session) (actions : List Action) (h : P s.graph) : P (s.run actions).graph := by
  have hperform : ∀ (s : Session) (a : Action), P s.graph → P (s.perform a).session.graph :=
    fun s a hs => hstep _ _ _ _ hs (s.step_perform a)
  exact run_induction hperform h actions

end Session

end Patchbay
