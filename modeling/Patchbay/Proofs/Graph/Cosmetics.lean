import Patchbay.Proofs.Pointer.Report

/-!
# What an editor shows

Names, descriptions, places, the selection and the view are there for an editor only. Without them
a patch is `Graph.bare`, and the edits that count do to the bare patch what they do to the patch
(`Edit.apply_bare`). So whatever is renamed, moved, selected or scrolled in between, by whatever
part of a session, the same is computed (`Session.computation_of_dressed`). Hit tests and pictures
are functions of a patch, and no actions at all.
-/

namespace Patchbay

/-! ## Bare patches -/

/-- The node without what only an editor shows. -/
def Node.bare (n : Node) : Node :=
  { n with name := "", description := "", position := .origin, selected := false }

namespace Graph

/-- The patch without what only an editor shows. -/
def bare (g : Graph) : Graph :=
  { g with nodes := g.nodes.map Node.bare, selected := none, viewport := {} }

theorem bare_congr {g g' : Graph} (hnodes : g.nodes.map Node.bare = g'.nodes.map Node.bare)
    (hconfig : g.config = g'.config) (hrandom : g.random = g'.random) : g.bare = g'.bare := by
  unfold bare
  rw [hnodes, hconfig, hrandom]

theorem bare_bare (g : Graph) : g.bare.bare = g.bare := bare_congr List.map_map rfl rfl

@[simp] theorem ids_bare (g : Graph) : g.bare.ids = g.ids := List.map_map

@[simp] theorem contains_bare (g : Graph) (id : NodeId) : g.bare.contains id = g.contains id := by
  rw [Bool.eq_iff_iff, contains_iff, contains_iff, ids_bare]

theorem node?_bare (g : Graph) (id : NodeId) : g.bare.node? id = (g.node? id).map Node.bare :=
  List.find?_map

/-! ## What is not there without an editor -/

theorem bare_withSelection (g : Graph) (selected : Option NodeId) :
    (g.withSelection selected).bare = g.bare := bare_congr List.map_map rfl rfl

theorem bare_update_of_bare (g : Graph) (id : NodeId) {f : Node → Node}
    (hf : ∀ n, (f n).bare = n.bare) : (g.update id f).bare = g.bare :=
  bare_congr (g.map_nodes_update id hf) rfl rfl

/-! ## What is there without an editor -/

theorem bare_bind (g : Graph) (id : NodeId) (index : Nat) (b : Binding) :
    (g.update id (·.bind index b)).bare = (g.bare.update id (·.bind index b)).bare := by
  refine bare_congr ?_ rfl rfl
  simp only [update, bare, List.map_map]
  refine List.map_congr_left fun n _ => ?_
  change Node.bare (if n.id = id then _ else _) = Node.bare (if n.id = id then _ else _)
  split <;> rfl

theorem bare_withNode (g : Graph) (n : Node) :
    (g.withNode n).bare = (g.bare.withNode n.bare).bare := by
  have hadmitted : (g.admitted n).bare = (g.bare.admitted n.bare).bare := by
    simp only [admitted, contains_bare]
    rfl
  refine bare_congr ?_ rfl rfl
  simp only [withNode, bare, List.map_append, List.map_map]
  exact congrArg₂ (· ++ [·]) rfl hadmitted

theorem bare_without (g : Graph) (id : NodeId) :
    (g.without id).bare = (g.bare.without id).bare := by
  refine bare_congr ?_ rfl rfl
  simp only [without, bare, List.filter_map, List.map_map]
  rfl

theorem outputIn_bare (nodes : List Node) (id : NodeId) :
    outputIn (nodes.map Node.bare) id = outputIn nodes id := by
  unfold outputIn
  rw [List.find?_map, Option.map_map]
  rfl

theorem tickNodes_bare (now : Instant) (passed rest : List Node) (random : Random) :
    tickNodes now (passed.map Node.bare) (rest.map Node.bare) random =
      let t := tickNodes now passed rest random
      (t.1.map Node.bare, t.2) := by
  induction rest generalizing passed random with
  | nil => rfl
  | cons n rest ih =>
    -- an evaluation reads the outputs, the bindings, the state and the kind, all of which stay
    have he : n.bare.evaluate (outputIn (passed.map Node.bare ++ n.bare :: rest.map Node.bare)) now
        random = n.evaluate (outputIn (passed ++ n :: rest)) now random := by
      have hreads : outputIn (passed.map Node.bare ++ n.bare :: rest.map Node.bare) =
          outputIn (passed ++ n :: rest) := by
        rw [← List.map_cons, ← List.map_append]
        exact funext (outputIn_bare _)
      rw [hreads]
      rfl
    let e := n.evaluate (outputIn (passed ++ n :: rest)) now random
    have hpassed : passed.map Node.bare ++ [n.bare.after e] =
        (passed ++ [n.after e]).map Node.bare := by
      rw [List.map_append]
      rfl
    rw [List.map_cons, tickNodes_cons, tickNodes_cons, he]
    dsimp only
    rw [hpassed, ih]
    rfl

theorem tick_bare (g : Graph) (now : Instant) :
    g.bare.tick now = { g.tick now with graph := (g.tick now).graph.bare } := by
  have hnodes : tickNodes now [] g.bare.nodes g.bare.random =
      ((tickNodes now [] g.nodes g.random).1.map Node.bare, (tickNodes now [] g.nodes g.random).2) :=
    tickNodes_bare now [] g.nodes g.random
  unfold tick
  rw [hnodes]
  rfl

end Graph

/-! ## Edits -/

/-- The answer without what only an editor shows. -/
def Reply.bare : Reply → Reply
  | .removed n => .removed (n.map Node.bare)
  | r => r

namespace Edit

/-- Whether an edit changes only what an editor shows. -/
def isCosmetic : Edit → Bool
  | moveNode .. | setPosition .. | rename .. | describe .. | select _ | deselect | scrollBy _ => true
  | add _ | spawn .. | remove _ | bind .. | connect .. | setLiteral .. | clearInput .. | tick _ =>
    false

/-- The edit without what only an editor shows. -/
def bare : Edit → Edit
  | add n => add n.bare
  | e => e

theorem isCosmetic_bare (e : Edit) : e.bare.isCosmetic = e.isCosmetic := by
  cases e <;> rfl

/-- What an edit leaves behind, without what only an editor shows and without notifications. -/
def Result.bare (r : Result) : Result :=
  { reply := r.reply.bare, graph := r.graph.bare, log := r.log }

end Edit

namespace Graph

/-- What a change comes to without what only an editor shows. -/
def outcome {α : Type} (c : Change α) : α × Graph := (c.result, c.graph.bare)

theorem outcome_add (g : Graph) (n : Node) :
    (g.add n).map outcome = (g.bare.add n.bare).map outcome := by
  have hcontains : g.bare.contains n.bare.id = g.contains n.id := contains_bare g n.id
  unfold add
  rw [hcontains]
  split
  · rfl
  · exact congrArg (fun after => Except.ok (n.id, after)) (bare_withNode g n)

/-- The place of a new node depends on the view, but the draws do not. -/
theorem spawned_bare (g : Graph) (kind : NodeKind) (id : NodeId) :
    (g.bare.spawned kind id).1.bare = (g.spawned kind id).1.bare ∧
      (g.bare.spawned kind id).2 = (g.spawned kind id).2 := by
  have hrandom : g.bare.random = g.random := rfl
  unfold spawned
  rw [hrandom]
  rcases g.random.unit with ⟨x, random⟩
  dsimp only
  rcases random.unit with ⟨y, random⟩
  -- without their places the two nodes are one
  refine ⟨?_, rfl⟩
  simp only [Node.bare]
  rfl

theorem outcome_spawn (g : Graph) (kind : NodeKind) (id : NodeId) :
    (g.spawn kind id).map outcome = (g.bare.spawn kind id).map outcome := by
  obtain ⟨hnode, hrandom⟩ := g.spawned_bare kind id
  have hspawn (g : Graph) : g.spawn kind id =
      { g with random := (g.spawned kind id).2 }.add (g.spawned kind id).1 := by
    unfold spawn
    cases g.spawned kind id
    rfl
  let drawn : Graph := { g with random := (g.spawned kind id).2 }
  rw [hspawn g, hspawn g.bare, hrandom]
  change (drawn.add _).map outcome = (drawn.bare.add _).map outcome
  rw [outcome_add drawn, outcome_add drawn.bare (g.bare.spawned kind id).1, bare_bare, hnode]

theorem outcome_remove (g : Graph) (id : NodeId) :
    (g.remove id).result.map Node.bare = (g.bare.remove id).result.map Node.bare ∧
      (g.remove id).graph.bare = (g.bare.remove id).graph.bare := by
  unfold remove
  rw [node?_bare]
  cases g.node? id with
  | none => exact ⟨rfl, (bare_bare g).symm⟩
  | some n => exact ⟨rfl, bare_without g id⟩

theorem outcome_bind (g : Graph) (id : NodeId) (index : Nat) (b : Binding) :
    (g.bind id index b).map outcome = (g.bare.bind id index b).map outcome := by
  unfold bind
  simp only [contains_bare, node?_bare]
  cases b.source?.filter (!g.contains ·) with
  | some source => rfl
  | none =>
    cases g.node? id with
    | none => rfl
    | some n =>
      have hbinding : n.bare.binding? index = n.binding? index := rfl
      simp only [Option.map_some, hbinding]
      cases n.binding? index with
      | none => rfl
      | some before =>
        exact congrArg (fun after => Except.ok (before, after)) (bare_bind g id index b)

theorem outcome_connect (g : Graph) (source target : NodeId) (index : Nat) :
    (g.connect source target index).map outcome =
      (g.bare.connect source target index).map outcome := by
  have hconnect (g : Graph) : (g.connect source target index).map outcome =
      ((g.bind target index (.reference source)).map outcome).map
        fun o => (⟨source, target, index⟩, o.2) := by
    unfold connect
    cases g.bind target index (.reference source) <;> rfl
  rw [hconnect g, hconnect g.bare, outcome_bind]

end Graph

namespace Edit

theorem leave_of_isCosmetic (g : Graph) {e : Edit} (h : e.isCosmetic = true) : e.leave g = g := by
  cases e with
  | spawn kind id => cases h
  | _ => rfl

/-- Refused or not, an edit makes the draws that it makes in the bare patch. -/
theorem bare_leave (g : Graph) (e : Edit) : (e.leave g).bare = e.bare.leave g.bare := by
  cases e with
  | spawn kind id =>
    obtain ⟨-, hrandom⟩ := g.spawned_bare kind id
    unfold leave bare
    dsimp only
    rw [hrandom]
    rfl
  | _ => rfl

theorem bare_ofChange {α : Type} (x : Except GraphError (Change α)) (reply : α → Reply) :
    (x.map fun c => Result.ofChange c reply).map Result.bare =
      (x.map Graph.outcome).map fun o => ⟨(reply o.1).bare, o.2, [], []⟩ := by
  cases x <;> rfl

/-- An edit that counts does to the bare patch what it does to the patch. -/
theorem apply_bare (g : Graph) {e : Edit} (h : e.isCosmetic = false) :
    (e.apply g).map Result.bare = (e.bare.apply g.bare).map Result.bare := by
  cases e with
  | add n => simp only [apply, bare, bare_ofChange, Graph.outcome_add g]
  | spawn kind id => simp only [apply, bare, bare_ofChange, Graph.outcome_spawn g]
  | remove id =>
    obtain ⟨hresult, hgraph⟩ := Graph.outcome_remove g id
    exact congrArg₂ (fun n after => Except.ok (Result.mk (.removed n) after [] [])) hresult hgraph
  | bind id index b => simp only [apply, bare, bare_ofChange, Graph.outcome_bind g]
  | setLiteral id index v =>
    simp only [apply, bare, bare_ofChange, Graph.setLiteral, Graph.outcome_bind g]
  | clearInput id index =>
    simp only [apply, bare, bare_ofChange, Graph.clearInput, Graph.outcome_bind g]
  | connect source target index =>
    simp only [apply, bare, bare_ofChange, Graph.outcome_connect g]
  | tick now =>
    change Except.ok (Result.mk .done (g.tick now).graph.bare [] (g.tick now).log) =
      Except.ok (Result.mk .done (g.bare.tick now).graph.bare [] (g.bare.tick now).log)
    rw [Graph.tick_bare]
    exact congrArg (fun after => Except.ok (Result.mk .done after [] _)) (Graph.bare_bare _).symm
  | moveNode | setPosition | rename | describe | select | deselect | scrollBy => cases h

/-- An edit that does not count is no change of the bare patch. -/
theorem bare_of_apply {g : Graph} (hs : g.Sound) {e : Edit} (h : e.isCosmetic = true) {r : Result}
    (hr : e.apply g = .ok r) : r.graph.bare = g.bare ∧ r.log = [] := by
  have of_editNode {id : NodeId} {field : NodeField} {f : Node → Node}
      (hr : (g.editNode id field f).map (fun c => Result.ofChange c fun _ => .done) = .ok r)
      (hf : ∀ n, (f n).bare = n.bare) : r.graph.bare = g.bare ∧ r.log = [] := by
    obtain ⟨c, hc, rfl⟩ := ok_of_map_ok hr
    unfold Graph.editNode at hc
    split at hc
    · cases hc
      exact ⟨g.bare_update_of_bare id hf, rfl⟩
    · cases hc
  have hreselect (selected : Option NodeId) : (g.reselect selected).bare = g.bare := by
    rw [hs.reselect_eq, Graph.bare_withSelection]
  cases e with
  | moveNode | setPosition | rename | describe => exact of_editNode hr fun _ => rfl
  | select id =>
    obtain ⟨c, hc, rfl⟩ := ok_of_map_ok hr
    unfold Graph.select at hc
    split at hc
    · split at hc <;> cases hc
      · exact ⟨rfl, rfl⟩
      · exact ⟨hreselect (some id), rfl⟩
    · cases hc
  | deselect =>
    cases hr
    unfold Graph.deselect
    split
    · exact ⟨rfl, rfl⟩
    · exact ⟨hreselect none, rfl⟩
  | scrollBy d =>
    cases hr
    unfold Graph.scrollBy
    split <;> exact ⟨rfl, rfl⟩
  | add | spawn | remove | bind | connect | setLiteral | clearInput | tick => cases h

end Edit

/-! ## Gestures -/

/-- Whether a wire was dropped or cut. -/
def Gesture.rewires : Gesture → Bool
  | wireCompleted _ | wireDeleted _ => true
  | ignored | selected _ | deselected | movedNode _ | panned | wireStarted _ => false

theorem Pointer.Reported.bare {g : Graph} {input : PointerInput} {c : Change Gesture}
    (h : Pointer.Reported g input c) (hkeeps : c.result.rewires = false) :
    c.graph.bare = g.bare := by
  obtain ⟨gesture, graph, events⟩ := c
  cases gesture with
  | ignored | wireStarted id => exact congrArg Graph.bare h.1
  | selected id => exact (congrArg Graph.bare h.2.2.1).trans (g.bare_withSelection _)
  | deselected => exact (congrArg Graph.bare h.1).trans (g.bare_withSelection _)
  | movedNode id =>
    obtain ⟨-, e, -, hmoved, -⟩ := h
    exact (congrArg Graph.bare hmoved).trans (g.bare_update_of_bare id fun _ => rfl)
  | panned =>
    obtain ⟨d, -, -, hscrolled, -⟩ := h
    exact (congrArg Graph.bare hscrolled).trans (Graph.bare_congr rfl rfl rfl)
  | wireCompleted | wireDeleted => cases hkeeps

/-! ## Sessions -/

namespace Session

/--
Whether an action changes only what an editor shows. A pointer does unless it drops or cuts a wire.
-/
def isCosmetic (s : Session) : Action → Bool
  | .edit e => e.isCosmetic
  | .pointer index input => !((s.pointer index).handle s.graph input).2.result.rewires
  | .inspect _ (.rename _) => true
  | .inspect _ (.setLiteral ..) | .inspect _ (.setText ..) | .inspect _ (.clearInput _)
  | .inspect _ .remove => false
  | .setPointer .. | .attach | .sync _ | .detach _ | .subscribe | .drain _ | .hangUp _ => true

theorem perform_of_isCosmetic {s : Session} (hs : s.graph.Sound) {a : Action}
    (h : s.isCosmetic a = true) :
    (s.perform a).session.graph.bare = s.graph.bare ∧ (s.perform a).log = [] := by
  cases a with
  | edit e =>
    simp only [perform]
    split
    · exact ⟨congrArg Graph.bare (Edit.leave_of_isCosmetic s.graph h), rfl⟩
    · rename_i r hr
      exact Edit.bare_of_apply hs h hr
  | pointer index input =>
    have hreported := Pointer.reported_handle hs (s.pointer index) input
    exact ⟨hreported.bare ((Bool.not_eq_true' _).mp h), rfl⟩
  | inspect index e =>
    cases e with
    | rename name =>
      simp only [perform]
      split
      · exact ⟨rfl, rfl⟩
      · rename_i c hc
        rw [graph_syncInspector]
        obtain ⟨d, hd, rfl⟩ := ok_of_map_ok hc
        unfold Graph.renameSelected at hd
        split at hd
        · cases hd
        · rename_i id hid
          -- it is the edit of that name
          have hedit : (Edit.rename id name).apply s.graph =
              .ok (.ofChange d fun _ => .done) := by
            simp only [Edit.apply, hd]
            rfl
          exact ⟨(Edit.bare_of_apply hs rfl hedit).1, rfl⟩
    | setLiteral | setText | clearInput | remove => cases h
  | sync index => exact ⟨congrArg Graph.bare (s.graph_syncInspector index), rfl⟩
  | detach index =>
    simp only [perform]
    split <;> exact ⟨rfl, rfl⟩
  | drain subscriber | hangUp subscriber =>
    simp only [perform]
    split <;> exact ⟨rfl, rfl⟩
  | setPointer | attach | subscribe => exact ⟨rfl, rfl⟩

/-- What comes of the edits that count in the course of some actions, each in its turn. -/
def computed (s : Session) : List Action → List (Except GraphError Edit.Result)
  | [] => []
  | .edit e :: actions =>
    if e.isCosmetic then (s.perform (.edit e)).session.computed actions
    else (e.apply s.graph).map Edit.Result.bare :: (s.perform (.edit e)).session.computed actions
  | a :: actions => (s.perform a).session.computed actions

/-- The lines logged in the course of some actions. -/
def logged (s : Session) : List Action → List LogLine
  | [] => []
  | a :: actions => (s.perform a).log ++ (s.perform a).session.logged actions

/--
Actions that are some edits, as far as they count, with any others between them that do not. A node
may be added under another name, in another place, than without the others.
-/
inductive Dressed : Session → List Action → List Edit → Prop where
  | done (s : Session) : Dressed s [] []
  | idle {s : Session} {a : Action} {actions : List Action} {edits : List Edit}
      (h : s.isCosmetic a = true) (rest : Dressed (s.perform a).session actions edits) :
      Dressed s (a :: actions) edits
  | edit {s : Session} {e e' : Edit} {actions : List Action} {edits : List Edit}
      (h : e.isCosmetic = false) (heq : e.bare = e'.bare)
      (rest : Dressed (s.perform (.edit e)).session actions edits) :
      Dressed s (.edit e :: actions) (e' :: edits)

theorem computed_idle {s : Session} {a : Action} (h : s.isCosmetic a = true)
    (actions : List Action) :
    s.computed (a :: actions) = (s.perform a).session.computed actions := by
  cases a with
  | edit e => exact if_pos h
  | _ => rfl

theorem computed_edit {s : Session} {e : Edit} (h : e.isCosmetic = false)
    (actions : List Action) :
    s.computed (.edit e :: actions) = (e.apply s.graph).map Edit.Result.bare ::
      (s.perform (.edit e)).session.computed actions :=
  if_neg (Bool.eq_false_iff.mp h)

/-- The bare patch and the lines that an edit leaves are read off what came of it. -/
theorem perform_edit (s : Session) (e : Edit) :
    let left := ((e.apply s.graph).map Edit.Result.bare).toOption
    (s.perform (.edit e)).session.graph.bare =
        left.elim (e.bare.leave s.graph.bare) (·.graph) ∧
      (s.perform (.edit e)).log = left.elim [] (·.log) := by
  simp only [perform]
  cases e.apply s.graph with
  | error err => exact ⟨e.bare_leave s.graph, rfl⟩
  | ok r => exact ⟨rfl, rfl⟩

theorem Dressed.same {s : Session} {actions : List Action} {edits : List Edit}
    (h : s.Dressed actions edits) (hs : s.graph.Sound) {s' : Session}
    (hbare : s.graph.bare = s'.graph.bare) :
    let plain := edits.map Action.edit
    (s.run actions).graph.bare = (s'.run plain).graph.bare ∧
      s.logged actions = s'.logged plain ∧ s.computed actions = s'.computed plain := by
  induction h generalizing s' with
  | done s => exact ⟨hbare, rfl, rfl⟩
  | @idle s a actions edits h rest ih =>
    -- only the dressed run moves
    obtain ⟨hsame, hlog⟩ := perform_of_isCosmetic hs h
    rw [computed_idle h, logged, hlog]
    exact ih (hs.step (s.step_perform a)) (hsame.trans hbare)
  | @edit s e e' actions edits h heq rest ih =>
    -- both runs move, to the same bare patch
    have h' : e'.isCosmetic = false := by
      rw [← Edit.isCosmetic_bare, ← heq, Edit.isCosmetic_bare, h]
    have hresult : (e.apply s.graph).map Edit.Result.bare =
        (e'.apply s'.graph).map Edit.Result.bare := by
      rw [Edit.apply_bare s.graph h, Edit.apply_bare s'.graph h', hbare, heq]
    obtain ⟨hgraph, hlog⟩ := s.perform_edit e
    obtain ⟨hgraph', hlog'⟩ := s'.perform_edit e'
    rw [hresult] at hgraph hlog
    have hleft : (s.perform (.edit e)).session.graph.bare =
        (s'.perform (.edit e')).session.graph.bare := by
      rw [hgraph, hgraph', hbare, heq]
    obtain ⟨hrun, hlogged, hcomputed⟩ := ih (hs.step (s.step_perform (.edit e))) hleft
    refine ⟨hrun, ?_, ?_⟩
    · rw [List.map_cons, logged, logged, hlog, hlog', hlogged]
    · rw [List.map_cons, computed_edit h, computed_edit h', hresult, hcomputed]

/--
Whatever is done for an editor only, between edits of a patch and by whatever part of a session,
has no influence on what is computed. After each of the edits and in the end the nodes have the
same outputs, states and bindings in the same order as without, and the same draws are to come; the
same edits are refused, and the same lines are logged.
-/
theorem computation_of_dressed {s : Session} (hg : s.graph.Reachable) {actions : List Action}
    {edits : List Edit} (h : s.Dressed actions edits) :
    let plain := edits.map Action.edit
    (s.run actions).graph.bare = (s.run plain).graph.bare ∧
      s.logged actions = s.logged plain ∧ s.computed actions = s.computed plain :=
  h.same hg.sound rfl

/--
A battery that was selected, renamed and dragged away is removed and put back as it is. A logger
that is wired to it then logs what it would have logged anyway.
-/
theorem computation_of_dressed_putBack :
    let battery := { Node.ofType NodeKind.battery.nodeType (.ofNat 1) with
      position := ⟨100, 100⟩ }
    let logger := Node.ofType NodeKind.logger.nodeType (.ofNat 2)
    let s := (Session.ofGraph (.blank {} (.ofSeed 7))).run
      [.edit (.add battery), .edit (.add logger)]
    let first : List Action := [.edit (.select battery.id), .edit (.rename battery.id "north"),
      .pointer 0 (.press ⟨⟨120, 120⟩, .zero⟩), .pointer 0 (.move ⟨⟨130, 120⟩, ⟨10, 0⟩⟩),
      .edit (.tick ⟨0⟩)]
    let moved := ((s.run first).graph.node? battery.id).getD battery
    let unmoved := ((s.run [.edit (.tick ⟨0⟩)]).graph.node? battery.id).getD battery
    let last (n : Node) : List Edit := [.remove n.id, .add n, .connect n.id logger.id 0,
      .setLiteral logger.id 1 (.text "on"), .tick ⟨5⟩]
    let actions := first ++ .subscribe :: (last moved).map .edit
    let plain : List Action := (.tick ⟨0⟩ :: last unmoved).map .edit
    moved.name = "north" ∧ moved.position = ⟨110, 100⟩ ∧ unmoved.position = ⟨100, 100⟩ ∧
      (s.logged plain).map (·.text) = ["on"] ∧
      (s.run actions).graph.bare = (s.run plain).graph.bare ∧
      s.logged actions = s.logged plain ∧ s.computed actions = s.computed plain := by
  intro battery logger s first moved unmoved last actions plain
  have hname : moved.name = "north" := by decide +kernel
  have hmoved : moved.position = ⟨110, 100⟩ := by decide +kernel
  have hunmoved : unmoved.position = ⟨100, 100⟩ := by decide +kernel
  have hlines : (s.logged plain).map (·.text) = ["on"] := by decide +kernel
  have hid : moved.id = unmoved.id := by decide +kernel
  have hbare : moved.bare = unmoved.bare := by decide +kernel
  -- the runs that led to the two nodes are not evaluated again
  clear_value moved unmoved
  have hdressed : s.Dressed actions (.tick ⟨0⟩ :: last unmoved) :=
    .idle rfl <| .idle rfl <| .idle (by decide +kernel) <| .idle (by decide +kernel) <|
    .edit rfl rfl <| .idle rfl <| .edit rfl (congrArg Edit.remove hid) <|
    .edit rfl (congrArg Edit.add hbare) <| .edit rfl (congrArg (Edit.connect · logger.id 0) hid) <|
    .edit rfl rfl <| .edit rfl rfl <| .done _
  exact ⟨hname, hmoved, hunmoved, hlines, computation_of_dressed ⟨_, _, _, rfl⟩ hdressed⟩

end Session

end Patchbay
