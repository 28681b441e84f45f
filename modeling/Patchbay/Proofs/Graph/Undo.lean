import Patchbay.Proofs.Graph.Integrity

/-!
# Undoing bindings

Each edit of a binding answers with the binding that it replaces. These answers are enough to undo
any number of such edits: made again from the last to the first, they succeed and leave the patch as
it was before (`Graph.undo_bindings`). No node goes away meanwhile, so that a binding that was there
once can be made again.
-/

namespace Patchbay

/-- A binding for an input. -/
structure Rebinding where
  node : NodeId
  index : Nat
  binding : Binding
deriving DecidableEq

/-- The binding that an edit makes, if that is what it is for. -/
def Edit.rebinding? : Edit → Option Rebinding
  | bind id index b => some ⟨id, index, b⟩
  | setLiteral id index v => some ⟨id, index, .literal v⟩
  | clearInput id index => some ⟨id, index, .unbound⟩
  | add _ | spawn .. | remove _ | connect .. | moveNode .. | setPosition .. | rename ..
  | describe .. | select _ | deselect | scrollBy _ | tick _ => none

/-- Edits made one after the other as long as none is refused: their answers and the last patch. -/
def Graph.applyAll (g : Graph) : List Edit → Except GraphError (List Reply × Graph)
  | [] => .ok ([], g)
  | e :: edits =>
    match e.apply g with
    | .error err => .error err
    | .ok r => (r.graph.applyAll edits).map fun (replies, last) => (r.reply :: replies, last)

/-- The edits that bind inputs again as they were, the input bound last first. -/
def Edit.undoing (made : List Rebinding) (before : List Binding) : List Edit :=
  (made.zipWith (fun m b => .bind m.node m.index b) before).reverse

namespace Node

theorem bind_bind (n : Node) (index : Nat) (b b' : Binding) :
    (n.bind index b).bind index b' = n.bind index b' := by
  have hinputs : (n.inputs.modify index ({ · with binding := b })).modify index
      ({ · with binding := b' }) = n.inputs.modify index ({ · with binding := b' }) := by
    apply List.ext_getElem?
    intro i
    simp only [List.getElem?_modify]
    by_cases hi : index = i
    · simp only [if_pos hi]
      cases n.inputs[i]? <;> rfl
    · simp only [if_neg hi]
      cases n.inputs[i]? <;> rfl
  exact congrArg (fun inputs => { n with inputs := inputs }) hinputs

theorem bind_of_binding? {n : Node} {index : Nat} {b : Binding}
    (h : n.binding? index = some b) : n.bind index b = n := by
  have hinputs : n.inputs.modify index ({ · with binding := b }) = n.inputs := by
    apply List.ext_getElem?
    intro i
    rw [List.getElem?_modify]
    by_cases hi : index = i
    · subst hi
      obtain ⟨input, hinput, rfl⟩ := Option.map_eq_some_iff.mp h
      rw [hinput]
      simp
    · simp [hi]
  rw [bind, hinputs]

end Node

namespace Graph

variable {g : Graph}

/-! ## One edit -/

/-- To bind an input as it was before it was bound takes back that it was. -/
theorem bind_before (hs : g.Sound) {id : NodeId} {index : Nat} {b : Binding} {c : Change Binding}
    (h : g.bind id index b = .ok c) :
    c.graph.bind id index c.result = .ok ⟨b, g, [.updated id (.input index)]⟩ := by
  obtain ⟨hsource, before, hbefore, rfl⟩ := bind_eq_ok_iff.mp h
  obtain ⟨n, hn, hindex⟩ := Option.bind_eq_some_iff.mp hbefore
  refine bind_eq_ok_iff.mpr ⟨?_, b, binding?_update_bind (Option.isSome_of_mem hbefore) b, ?_⟩
  · -- what the input has read from is still there
    intro source hreads
    have hmem : source ∈ n.sources := by
      obtain ⟨i, hi, rfl⟩ := Option.map_eq_some_iff.mp hindex
      exact List.mem_filterMap.mpr
        ⟨i.binding, List.mem_map_of_mem (List.mem_of_getElem? hi), hreads⟩
    rw [g.ids_update id (·.bind index b) fun _ => rfl]
    exact hs.closed n (mem_of_node? hn) source hmem
  · -- the one node that was changed is as before
    have hnodes : (g.update id (·.bind index b)).nodes.map
        (fun m => if m.id = id then m.bind index before else m) = g.nodes := by
      rw [update, List.map_map]
      refine (List.map_congr_left fun m hm => ?_).trans (List.map_id _)
      by_cases hid : m.id = id
      · have hfound : m = n := by
          refine eq_of_id_eq hs.nodup (mem_of_node? hn) hm ?_
          rw [hid, id_of_node? hn]
        rw [hfound] at hid ⊢
        simp only [Function.comp, hid, if_true, Node.id_bind, id_eq, Node.bind_bind]
        exact Node.bind_of_binding? hindex
      · simp only [Function.comp, hid, if_false, id_eq]
    have hgraph : (g.update id (·.bind index b)).update id (·.bind index before) = g := by
      rw [update, hnodes]
      rfl
    rw [hgraph]

/-- An edit that makes a binding is the call that makes it. -/
theorem bind_of_rebinding? {e : Edit} {m : Rebinding} (hmakes : e.rebinding? = some m)
    {r : Edit.Result} (h : e.apply g = .ok r) :
    ∃ c, g.bind m.node m.index m.binding = .ok c ∧ r.reply = .binding c.result ∧
      r.graph = c.graph := by
  cases e with
  | bind | setLiteral | clearInput =>
    cases hmakes
    obtain ⟨c, hc, rfl⟩ := ok_of_map_ok h
    exact ⟨c, hc, rfl, rfl⟩
  | add | spawn | remove | connect | moveNode | setPosition | rename | describe | select | deselect
  | scrollBy | tick => cases hmakes

/-! ## Any number of edits -/

theorem exists_of_applyAll_cons {e : Edit} {edits : List Edit} {replies : List Reply} {g' : Graph}
    (h : g.applyAll (e :: edits) = .ok (replies, g')) :
    ∃ r rest, e.apply g = .ok r ∧ r.graph.applyAll edits = .ok (rest, g') ∧
      replies = r.reply :: rest := by
  rw [applyAll] at h
  cases hr : e.apply g with
  | error err =>
    rw [hr] at h
    cases h
  | ok r =>
    rw [hr] at h
    obtain ⟨⟨rest, last⟩, hrest, heq⟩ := ok_of_map_ok h
    cases heq
    exact ⟨r, rest, rfl, hrest, rfl⟩

theorem applyAll_append {edits : List Edit} {replies : List Reply} {g' : Graph}
    (h : g.applyAll edits = .ok (replies, g')) (more : List Edit) :
    g.applyAll (edits ++ more) =
      (g'.applyAll more).map fun later => (replies ++ later.1, later.2) := by
  induction edits generalizing g replies with
  | nil =>
    cases h
    cases hmore : g'.applyAll more <;> exact hmore
  | cons e edits ih =>
    obtain ⟨r, rest, hr, hrest, rfl⟩ := exists_of_applyAll_cons h
    rw [List.cons_append, applyAll, hr]
    dsimp only
    rw [ih hrest]
    cases g'.applyAll more <;> rfl

theorem Sound.undo (hs : g.Sound) {edits : List Edit} {made : List Rebinding}
    (hmakes : edits.map Edit.rebinding? = made.map some) {replies : List Reply} {g' : Graph}
    (h : g.applyAll edits = .ok (replies, g')) :
    ∃ before, before.length = made.length ∧ replies = before.map .binding ∧
      g'.applyAll (Edit.undoing made before) = .ok (made.reverse.map (.binding ·.binding), g) := by
  -- from the first edit on, since the first made is the last undone
  induction edits generalizing g made replies with
  | nil =>
    obtain rfl : made = [] := List.map_eq_nil_iff.mp hmakes.symm
    cases h
    exact ⟨[], rfl, rfl, rfl⟩
  | cons e edits ih =>
    cases made with
    | nil => cases hmakes
    | cons m made =>
      obtain ⟨hm, hmakes⟩ := List.cons.inj hmakes
      obtain ⟨r, rest, hr, hrest, rfl⟩ := exists_of_applyAll_cons h
      obtain ⟨c, hc, hreply, hgraph⟩ := bind_of_rebinding? hm hr
      have hsound : r.graph.Sound := by
        obtain ⟨hsource, _, -, rfl⟩ := bind_eq_ok_iff.mp hc
        rw [hgraph]
        exact hs.bind m.node m.index hsource
      obtain ⟨before, hlength, rfl, hundone⟩ := ih hsound hmakes hrest
      refine ⟨c.result :: before, congrArg (· + 1) hlength, by rw [hreply, List.map_cons], ?_⟩
      -- all later edits are undone, and then this one
      have hlast : r.graph.applyAll [.bind m.node m.index c.result] =
          .ok ([.binding m.binding], g) := by
        rw [hgraph, applyAll, Edit.apply, bind_before hs hc]
        rfl
      rw [Edit.undoing, List.zipWith_cons_cons, List.reverse_cons, ← Edit.undoing,
        applyAll_append hundone, hlast, List.reverse_cons, List.map_append]
      rfl

/--
Whatever inputs of a patch are bound anew, literally, to a node or to nothing, each answer is the
binding before. To bind them to these again from the last to the first succeeds, each time with the
binding undone as the answer, and leads back to the patch as it was.
-/
theorem undo_bindings (hg : g.Reachable) {edits : List Edit} {made : List Rebinding}
    (hmakes : edits.map Edit.rebinding? = made.map some) {replies : List Reply} {g' : Graph}
    (h : g.applyAll edits = .ok (replies, g')) :
    ∃ before, before.length = made.length ∧ replies = before.map .binding ∧
      g'.applyAll (Edit.undoing made before) = .ok (made.reverse.map (.binding ·.binding), g) :=
  hg.sound.undo hmakes h

/-- An input bound again and again, also to its own node, and another one in between. -/
theorem undo_bindings_repeated :
    let battery := Node.ofType NodeKind.battery.nodeType (.ofNat 1)
    let echoer := (Node.ofType NodeKind.echoer.nodeType (.ofNat 2)).bind 1
      (.reference battery.id)
    let g := ((Session.ofGraph (blank {} (.ofSeed 7))).run
      [.edit (.add battery), .edit (.add echoer)]).graph
    let edits : List Edit := [.setLiteral echoer.id 1 (.text "on"),
      .bind echoer.id 0 (.reference battery.id), .bind echoer.id 1 (.reference echoer.id),
      .clearInput echoer.id 1]
    let before : List Binding :=
      [.reference battery.id, .unbound, .literal (.text "on"), .reference echoer.id]
    let undo : List Edit := [.bind echoer.id 1 (.reference echoer.id),
      .bind echoer.id 1 (.literal (.text "on")), .bind echoer.id 0 .unbound,
      .bind echoer.id 1 (.reference battery.id)]
    g.Reachable ∧ ∃ last, g.applyAll edits = .ok (before.map .binding, last) ∧
      last.applyAll undo = .ok ([.binding .unbound, .binding (.reference echoer.id),
        .binding (.reference battery.id), .binding (.literal (.text "on"))], g) := by
  intro battery echoer g edits before undo
  have hg : g.Reachable := ⟨_, _, _, rfl⟩
  let made : List Rebinding := [⟨echoer.id, 1, .literal (.text "on")⟩,
    ⟨echoer.id, 0, .reference battery.id⟩, ⟨echoer.id, 1, .reference echoer.id⟩,
    ⟨echoer.id, 1, .unbound⟩]
  obtain ⟨last, hedits⟩ : ∃ last, g.applyAll edits = .ok (before.map .binding, last) := ⟨_, rfl⟩
  have hmakes : edits.map Edit.rebinding? = made.map some := rfl
  obtain ⟨before', -, hbefore, hundo⟩ := undo_bindings hg hmakes hedits
  obtain rfl : before = before' :=
    List.map_injective_iff.mpr (fun _ _ => Reply.binding.inj) hbefore
  exact ⟨hg, last, hedits, hundo⟩

end Graph

end Patchbay
