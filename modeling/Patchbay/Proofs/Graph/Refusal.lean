import Patchbay.Proofs.Graph.Integrity

/-!
# Refusals

An action is refused for a reason that can be read off the patch before it: a node that is not
there or is there already, an input past the last, nothing selected. `Action.Refused` lists the
reasons, of which at most one applies at a time. An action is refused with exactly this reason and
then leaves the whole session as it was, but for the draws of a spawn; otherwise it is carried out
(`Session.refused_iff`).
-/

namespace Patchbay

/--
Why an input cannot be bound. The node to read from is looked for first, then the node to bind, then
its input.
-/
inductive Graph.Unbindable (g : Graph) (id : NodeId) (index : Nat) (b : Binding) :
    GraphError → Prop where
  | unknownSource (source : NodeId) (hreads : b = .reference source) (habsent : source ∉ g.ids) :
      Unbindable g id index b (.unknownSource source)
  | nodeNotFound (hsource : ∀ source, b = .reference source → source ∈ g.ids)
      (habsent : id ∉ g.ids) : Unbindable g id index b (.nodeNotFound id)
  | inputOutOfRange (n : Node) (hsource : ∀ source, b = .reference source → source ∈ g.ids)
      (hn : g.node? id = some n) (hpast : n.slots.length ≤ index) :
      Unbindable g id index b (.inputOutOfRange id index n.slots.length)

/-- Why an edit is refused. -/
def Edit.Refused (g : Graph) (err : GraphError) : Edit → Prop
  | add n => n.id ∈ g.ids ∧ err = .duplicateNode n.id
  | spawn _ id => id ∈ g.ids ∧ err = .duplicateNode id
  | bind id index b => g.Unbindable id index b err
  | connect source target index => g.Unbindable target index (.reference source) err
  | setLiteral id index v => g.Unbindable id index (.literal v) err
  | clearInput id index => g.Unbindable id index .unbound err
  | moveNode id _ | setPosition id _ | rename id _ | describe id _ | select id =>
    id ∉ g.ids ∧ err = .nodeNotFound id
  | remove _ | deselect | scrollBy _ | tick _ => False

/-- The input that an edit through an inspector writes. -/
def InspectorEdit.input? : InspectorEdit → Option Nat
  | setLiteral index _ | setText index _ | clearInput index => some index
  | rename _ | remove => none

/-- Why an edit through an inspector is refused. -/
inductive InspectorEdit.Refused (g : Graph) (e : InspectorEdit) : GraphError → Prop where
  | nothingSelected (hnone : g.selected = none) : Refused g e .nothingSelected
  | inputOutOfRange (n : Node) (index : Nat) (hn : g.node? n.id = some n)
      (hselected : g.selected = some n.id) (hinput : e.input? = some index)
      (hpast : n.slots.length ≤ index) :
      Refused g e (.inputOutOfRange n.id index n.slots.length)

/-- Why an action is refused; only edits ever are. -/
def Action.Refused (g : Graph) (err : GraphError) : Action → Prop
  | edit e => e.Refused g err
  | inspect _ e => e.Refused g err
  | _ => False

/-- The draws still to come when an action was refused. A spawn has drawn both coordinates by then. -/
def Action.drawsLeft (random : Random) : Action → Random
  | edit (.spawn ..) => random.unit.2.unit.2
  | _ => random

theorem map_eq_error_iff {ε α β : Type} {x : Except ε α} {f : α → β} {err : ε} :
    x.map f = .error err ↔ x = .error err := by
  cases x with
  | error e => simp [Except.map]
  | ok a => simp [Except.map]

namespace Graph

variable {g : Graph} {id : NodeId} {err : GraphError}

/-! ## Edits of the patch -/

theorem add_eq_error_iff {n : Node} :
    g.add n = .error err ↔ n.id ∈ g.ids ∧ err = .duplicateNode n.id := by
  unfold add
  rw [← contains_iff]
  split
  · rename_i hthere
    simp [hthere, eq_comm]
  · rename_i hnew
    simp [hnew]

theorem editNode_eq_error_iff {field : NodeField} {f : Node → Node} :
    g.editNode id field f = .error err ↔ id ∉ g.ids ∧ err = .nodeNotFound id := by
  unfold editNode
  rw [← contains_iff]
  split
  · rename_i hthere
    simp [hthere]
  · rename_i habsent
    simp [habsent, eq_comm]

theorem select_eq_error_iff :
    g.select id = .error err ↔ id ∉ g.ids ∧ err = .nodeNotFound id := by
  unfold select
  rw [← contains_iff]
  split
  · rename_i hthere
    split <;> simp [hthere]
  · rename_i habsent
    simp [habsent, eq_comm]

/-- What is refused is refused for the first reason that applies. -/
theorem bind_eq_error_iff {index : Nat} {b : Binding} :
    g.bind id index b = .error err ↔ g.Unbindable id index b err := by
  have hsources : (∀ source, b = .reference source → source ∈ g.ids) ↔
      b.source?.filter (!g.contains ·) = none := by
    cases b <;> simp [Binding.source?, contains_iff]
  unfold bind
  constructor
  · intro h
    -- the tests in their order, each with what the ones before it found
    split at h
    · rename_i source hsource
      cases h
      obtain ⟨hreads, habsent⟩ := Option.filter_eq_some_iff.mp hsource
      rw [Bool.not_eq_true', ← Bool.not_eq_true, contains_iff] at habsent
      cases b with
      | reference s =>
        obtain rfl : s = source := Option.some.inj hreads
        exact .unknownSource s rfl habsent
      | literal v | unbound => cases hreads
    · rename_i hnone
      have hsource := hsources.mpr hnone
      split at h
      · rename_i hnode
        cases h
        refine .nodeNotFound hsource fun hid => ?_
        obtain ⟨n, hn⟩ := exists_node? hid
        rw [hnode] at hn
        cases hn
      · rename_i n hn
        split at h
        · rename_i hindex
          cases h
          rw [← Node.length_slots]
          refine .inputOutOfRange n hsource hn ?_
          rw [Node.binding?, Option.map_eq_none_iff, List.getElem?_eq_none_iff] at hindex
          rwa [Node.length_slots]
        · cases h
  · intro h
    cases h with
    | unknownSource source hreads habsent =>
      have hfound : b.source?.filter (!g.contains ·) = some source := by
        rw [← contains_iff, Bool.not_eq_true] at habsent
        rw [hreads, Option.filter_eq_some_iff, habsent]
        exact ⟨rfl, rfl⟩
      rw [hfound]
    | nodeNotFound hsource habsent =>
      rw [hsources.mp hsource, node?_eq_none habsent]
    | inputOutOfRange n hsource hn hpast =>
      rw [Node.length_slots] at hpast ⊢
      have hindex : n.binding? index = none := by
        rw [Node.binding?, Option.map_eq_none_iff, List.getElem?_eq_none_iff]
        exact hpast
      rw [hsources.mp hsource, hn]
      simp only [hindex]

/-- Nothing stands in the way of a binding without a source but that the input is not there. -/
theorem unbindable_iff_of_node? {n : Node} (hn : g.node? n.id = some n) {index : Nat} {b : Binding}
    (hsource : ∀ source, b ≠ .reference source) :
    g.Unbindable n.id index b err ↔ n.slots.length ≤ index ∧
      err = .inputOutOfRange n.id index n.slots.length := by
  constructor
  · intro h
    cases h with
    | unknownSource source hreads _ => exact absurd hreads (hsource source)
    | nodeNotFound _ habsent => exact absurd (mem_ids_of_node? hn) habsent
    | inputOutOfRange m _ hm hpast =>
      rw [hn] at hm
      obtain rfl := Option.some.inj hm
      exact ⟨hpast, rfl⟩
  · rintro ⟨hpast, rfl⟩
    exact .inputOutOfRange n (fun source hreads => absurd hreads (hsource source)) hn hpast

end Graph

theorem Edit.apply_eq_error_iff {g : Graph} {e : Edit} {err : GraphError} :
    e.apply g = .error err ↔ e.Refused g err := by
  cases e with
  | add n => exact map_eq_error_iff.trans Graph.add_eq_error_iff
  | spawn kind id => exact map_eq_error_iff.trans Graph.add_eq_error_iff
  | bind id index b => exact map_eq_error_iff.trans Graph.bind_eq_error_iff
  | connect source target index =>
    exact map_eq_error_iff.trans (map_eq_error_iff.trans Graph.bind_eq_error_iff)
  | setLiteral id index v => exact map_eq_error_iff.trans Graph.bind_eq_error_iff
  | clearInput id index => exact map_eq_error_iff.trans Graph.bind_eq_error_iff
  | moveNode id d => exact map_eq_error_iff.trans Graph.editNode_eq_error_iff
  | setPosition id p => exact map_eq_error_iff.trans Graph.editNode_eq_error_iff
  | rename id name => exact map_eq_error_iff.trans Graph.editNode_eq_error_iff
  | describe id description => exact map_eq_error_iff.trans Graph.editNode_eq_error_iff
  | select id => exact map_eq_error_iff.trans Graph.select_eq_error_iff
  | remove id => simp [apply, Refused]
  | deselect => simp [apply, Refused]
  | scrollBy d => simp [apply, Refused]
  | tick now => simp [apply, Refused]

/-! ## Edits of the selected node -/

namespace InspectorEdit

variable {g : Graph} {e : InspectorEdit} {err : GraphError}

theorem refused_iff_of_none (hnone : g.selected = none) :
    e.Refused g err ↔ err = .nothingSelected := by
  constructor
  · intro h
    cases h with
    | nothingSelected _ => rfl
    | inputOutOfRange n index hn hselected _ _ =>
      rw [hnone] at hselected
      cases hselected
  · rintro rfl
    exact .nothingSelected hnone

theorem refused_iff_of_some {n : Node} (hn : g.node? n.id = some n)
    (hselected : g.selected = some n.id) :
    e.Refused g err ↔ ∃ index, e.input? = some index ∧ n.slots.length ≤ index ∧
      err = .inputOutOfRange n.id index n.slots.length := by
  constructor
  · intro h
    cases h with
    | nothingSelected hnone =>
      rw [hselected] at hnone
      cases hnone
    | inputOutOfRange m index hm hsame hinput hpast =>
      have hid : n.id = m.id := Option.some.inj (hselected.symm.trans hsame)
      rw [← hid, hn] at hm
      obtain rfl := Option.some.inj hm
      exact ⟨index, hinput, hpast, rfl⟩
  · rintro ⟨index, hinput, hpast, rfl⟩
    exact .inputOutOfRange n index hn hselected hinput hpast

theorem apply_eq_error_iff_of_none (hnone : g.selected = none) :
    e.apply g = .error err ↔ err = .nothingSelected := by
  cases e with
  | setLiteral index v =>
    simp [apply, Graph.setSelectedLiteral, hnone, Except.map, eq_comm]
  | setText index text => simp [apply, Graph.setSelectedText, hnone, Except.map, eq_comm]
  | clearInput index =>
    simp [apply, Graph.clearSelectedInput, hnone, Except.map, eq_comm]
  | rename name => simp [apply, Graph.renameSelected, hnone, Except.map, eq_comm]
  | remove => simp [apply, Graph.removeSelected, hnone, Except.map, eq_comm]

theorem apply_eq_error_iff_of_some {n : Node} (hn : g.node? n.id = some n)
    (hselected : g.selected = some n.id) :
    e.apply g = .error err ↔ ∃ index, e.input? = some index ∧ n.slots.length ≤ index ∧
      err = .inputOutOfRange n.id index n.slots.length := by
  cases e with
  | setLiteral index v =>
    have hbind : g.bind n.id index (.literal v) = .error err ↔ _ :=
      Graph.bind_eq_error_iff.trans (Graph.unbindable_iff_of_node? hn (by simp))
    simp [apply, Graph.setSelectedLiteral, hselected, map_eq_error_iff, Graph.setLiteral, hbind,
      input?]
  | setText index text =>
    -- the inspector looks for the slot before the patch does
    simp only [apply, Graph.setSelectedText, hselected, hn, map_eq_error_iff]
    cases hinput : n.inputs[index]? with
    | none =>
      have hpast : n.inputs.length ≤ index := List.getElem?_eq_none_iff.mp hinput
      simp [input?, hpast, eq_comm]
    | some i =>
      have hbind : g.bind n.id index (.literal (i.slot.type.coerce text)) = .error err ↔ _ :=
        Graph.bind_eq_error_iff.trans (Graph.unbindable_iff_of_node? hn (by simp))
      simp [map_eq_error_iff, Graph.setLiteral, hbind, input?]
  | clearInput index =>
    have hbind : g.bind n.id index .unbound = .error err ↔ _ :=
      Graph.bind_eq_error_iff.trans (Graph.unbindable_iff_of_node? hn (by simp))
    simp [apply, Graph.clearSelectedInput, hselected, map_eq_error_iff, Graph.clearInput, hbind,
      input?]
  | rename name =>
    have hmem : n.id ∈ g.ids := Graph.mem_ids_of_node? hn
    simp [apply, Graph.renameSelected, hselected, map_eq_error_iff, Graph.rename,
      Graph.editNode_eq_error_iff, hmem, input?]
  | remove =>
    simp [apply, Graph.removeSelected, hselected, Graph.remove, hn, Except.map, input?]

/--
As the selected node is in the patch, an edit of it is refused only if nothing is selected or the
input is past its last.
-/
theorem apply_eq_error_iff (hs : g.Sound) : e.apply g = .error err ↔ e.Refused g err := by
  cases hselected : g.selected with
  | none =>
    exact (apply_eq_error_iff_of_none hselected).trans (refused_iff_of_none hselected).symm
  | some id =>
    obtain ⟨n, hn⟩ := Graph.exists_node? (hs.selected_mem id hselected)
    obtain rfl := Graph.id_of_node? hn
    exact (apply_eq_error_iff_of_some hn hselected).trans
      (refused_iff_of_some hn hselected).symm

end InspectorEdit

/-! ## Sessions -/

namespace Session

variable {s : Session} {a : Action} {err : GraphError}

theorem reply_eq_error_iff (hs : s.graph.Sound) :
    (s.perform a).reply = .error err ↔ a.Refused s.graph err := by
  cases a with
  | edit e =>
    refine Iff.trans ?_ Edit.apply_eq_error_iff
    simp only [perform]
    split <;> simp [*]
  | inspect index e =>
    refine Iff.trans ?_ (InspectorEdit.apply_eq_error_iff hs)
    simp only [perform]
    split <;> simp [*]
  | detach index =>
    simp only [perform, Action.Refused]
    split <;> simp
  | drain subscriber | hangUp subscriber =>
    simp only [perform, Action.Refused]
    split <;> simp
  | pointer index input | setPointer index p | attach | sync index | subscribe =>
    simp [perform, Action.Refused]

/-- Nothing is left of a refused action but its draws. -/
theorem perform_of_error (h : (s.perform a).reply = .error err) :
    s.perform a =
      { reply := .error err
        session := { s with
          graph := { s.graph with random := a.drawsLeft s.graph.random } } } := by
  cases a with
  | edit e =>
    have hleave : e.leave s.graph =
        { s.graph with random := (Action.edit e).drawsLeft s.graph.random } := by
      cases e <;> rfl
    simp only [perform] at h ⊢
    split at h
    · cases h
      rw [hleave]
    · cases h
  | inspect index e =>
    simp only [perform] at h ⊢
    split at h
    · cases h
      rfl
    · cases h
  | detach index =>
    simp only [perform] at h
    split at h <;> cases h
  | drain subscriber | hangUp subscriber =>
    simp only [perform] at h
    split at h <;> cases h
  | pointer index input | setPointer index p | attach | sync index | subscribe =>
    simp [perform] at h

/--
Whatever has been done in a session, an action is refused exactly for the reasons listed and is
carried out if there is none. A refused action changes nothing: the patch, what waits for every
subscriber and what every inspector shows stay as they were, and nothing is sent or logged. Only a
spawn that is refused has made the two draws that place its node.
-/
theorem refused_iff (config : Config) (random : Random) (before : List Action) (a : Action) :
    let s := (ofGraph (.blank config random)).run before
    let p := s.perform a
    (∀ err, p.reply = .error err ↔ a.Refused s.graph err) ∧
      ((∃ reply, p.reply = .ok reply) ↔ ∀ err, ¬ a.Refused s.graph err) ∧
      ∀ err, p.reply = .error err →
        p.session = { s with
            graph := { s.graph with random := a.drawsLeft s.graph.random } } ∧
          ((∀ kind id, a ≠ .edit (.spawn kind id)) → p.session = s) ∧
          p.events = [] ∧ p.log = [] := by
  intro s p
  have hs : s.graph.Sound := Graph.Reachable.sound ⟨config, random, before, rfl⟩
  have hreason : ∀ err, p.reply = .error err ↔ a.Refused s.graph err :=
    fun err => reply_eq_error_iff hs
  refine ⟨hreason, ?_, fun err herr => ?_⟩
  · cases hreply : p.reply with
    | error err =>
      have hrefused := (hreason err).mp hreply
      simp only [reduceCtorEq, exists_false, false_iff]
      exact fun hnone => hnone err hrefused
    | ok reply =>
      simp only [Except.ok.injEq, exists_eq', true_iff]
      intro err hrefused
      have herr := (hreason err).mpr hrefused
      rw [hreply] at herr
      cases herr
  · have hperform : p = _ := perform_of_error herr
    rw [hperform]
    refine ⟨rfl, fun hother => ?_, rfl, rfl⟩
    -- no action but a spawn draws
    have hdraws : a.drawsLeft s.graph.random = s.graph.random := by
      unfold Action.drawsLeft
      split
      · rename_i kind id
        exact absurd rfl (hother kind id)
      · rfl
    rw [hdraws]

end Session

end Patchbay
