import Patchbay.Proofs.Event.Mailbox
import Patchbay.Proofs.Inspector.View

/-!
# Inspectors are never stale

Between two looks at its mailbox an inspector may be behind the patch, but then a notification that
concerns it waits there. This holds after every action of a session (`Session.Attended`), whoever
acts, and so an inspector that has just followed the patch shows its selection as it is
(`Session.inspector_fresh`).
-/

namespace Patchbay

/-- An inspector that follows a patch shows it, if it did so before or a notification waits. -/
theorem Inspector.shows_follow {i : Inspector} {g : Graph} {pending : List Event}
    (h : pending.any concerns = true ∨ i.Shows g) : (i.follow g pending).2.Shows g := by
  unfold follow
  by_cases hpending : pending.any concerns = true
  · rw [if_pos hpending]
    dsimp only
    by_cases hsame : sameView (NodeView.ofSelection g) i.view = true
    · rw [if_pos hsame]
      exact (canonical_of_sameView hsame).symm
    · rw [if_neg hsame]
      rfl
  · rw [if_neg hpending]
    exact h.resolve_left hpending

theorem Inspector.subscriber_follow (i : Inspector) (g : Graph) (pending : List Event) :
    (i.follow g pending).2.subscriber = i.subscriber := by
  unfold follow
  split
  · dsimp only
    split <;> rfl
  · rfl

namespace Session

/-- What holds between the actions of a session. -/
structure Attended (s : Session) : Prop where
  /-- The patch is sound. -/
  sound : s.graph.Sound
  /-- The next subscriber gets a new number. -/
  numbered : s.bus.Numbered
  /-- No two inspectors share a subscription. -/
  own : ∀ {j k : Nat} {x y : Inspector}, s.inspector? j = some x → s.inspector? k = some y →
    x.subscriber = y.subscriber → j = k
  /-- The inspectors listen. -/
  hears : ∀ {k : Nat} {i : Inspector}, s.inspector? k = some i → s.bus.Hears i.subscriber
  /-- A view is as it would be if made anew, or a notification says that it may not be. -/
  fresh : ∀ {k : Nat} {i : Inspector}, s.inspector? k = some i →
    (s.bus.pending i.subscriber).any Inspector.concerns = true ∨ i.Shows s.graph

variable {s : Session}

theorem inspector_of_set {inspectors : List (Option Inspector)} {j k : Nat}
    {new : Option Inspector} {i : Inspector}
    (h : (inspectors.set k new)[j]?.getD none = some i) :
    j = k ∧ new = some i ∨ j ≠ k ∧ inspectors[j]?.getD none = some i := by
  by_cases hj : j = k
  · left
    rw [hj, List.getElem?_set_self'] at h
    cases hold : inspectors[k]? with
    | none => rw [hold] at h; cases h
    | some old => rw [hold] at h; exact ⟨hj, h⟩
  · right
    rw [List.getElem?_set_ne (Ne.symm hj)] at h
    exact ⟨hj, h⟩

theorem inspector_of_append {inspectors : List (Option Inspector)} {j : Nat}
    {new : Inspector} {i : Inspector}
    (h : (inspectors ++ [some new])[j]?.getD none = some i) :
    j = inspectors.length ∧ new = i ∨ inspectors[j]?.getD none = some i := by
  by_cases hj : j < inspectors.length
  · right
    rwa [List.getElem?_append_left hj] at h
  · left
    rw [List.getElem?_append_right (by omega), List.getElem?_singleton] at h
    by_cases hend : j - inspectors.length = 0
    · rw [if_pos hend] at h
      exact ⟨by omega, Option.some.inj h⟩
    · rw [if_neg hend] at h
      cases h

/-- An open inspector stays open, and follows the patch by what was pending. -/
theorem inspector?_syncInspector {index : Nat} {i : Inspector}
    (hopen : s.inspector? index = some i) :
    (s.syncInspector index).2.inspector? index =
      some (i.follow s.graph (s.bus.pending i.subscriber)).2 := by
  unfold syncInspector
  rw [hopen]
  have hlt : index < s.inspectors.length := by
    by_contra hge
    unfold inspector? at hopen
    rw [List.getElem?_eq_none (by omega)] at hopen
    cases hopen
  change ((s.inspectors.set index _)[index]?).getD none = _
  rw [List.getElem?_set_self hlt]
  rfl

namespace Attended

/-! ## The parts of an action -/

theorem pointers (h : s.Attended) (pointers : List Pointer) :
    ({ s with pointers := pointers } : Session).Attended :=
  ⟨h.sound, h.numbered, h.own, h.hears, h.fresh⟩

/-- Sending the notifications of a step keeps the views fresh or warned. -/
theorem publish (h : s.Attended) {g : Graph} {events : List Event} {log : List LogLine}
    (hstep : s.graph.Step g events log) : (s.publish g events).Attended where
  sound := h.sound.step hstep
  numbered := h.numbered.publish events
  own := h.own
  hears hi := (h.hears hi).publish events
  fresh {k i} hi := by
    change ((s.bus.publish events).pending i.subscriber).any _ = true ∨ i.Shows g
    rw [Bus.pending_publish (h.hears hi), List.any_append, Bool.or_eq_true]
    cases hquiet : events.any Inspector.concerns with
    | true => exact .inl (.inr rfl)
    | false =>
      rcases h.fresh hi with hwarned | hshows
      · exact .inl (.inl hwarned)
      · exact .inr (hshows.trans (hstep.view_eq_of_quiet h.sound hquiet).symm)

/-- A step that says nothing leaves the views as they are. -/
theorem silent (h : s.Attended) {g : Graph} {log : List LogLine}
    (hstep : s.graph.Step g [] log) : ({ s with graph := g } : Session).Attended where
  sound := h.sound.step hstep
  numbered := h.numbered
  own := h.own
  hears := h.hears
  fresh hi :=
    (h.fresh hi).imp_right fun hshows => hshows.trans (hstep.view_eq_of_quiet h.sound rfl).symm

/-- An inspector whose mailbox is not touched stays fresh or warned. -/
theorem fresh_of_mailbox (h : s.Attended) {bus : Bus} {k : Nat} {i : Inspector}
    (hi : s.inspector? k = some i)
    (hsame : bus.mailbox? i.subscriber = s.bus.mailbox? i.subscriber) :
    (bus.pending i.subscriber).any Inspector.concerns = true ∨ i.Shows s.graph := by
  rw [Bus.pending_congr hsame]
  exact h.fresh hi

/-- What is done to other subscribers does not matter. -/
theorem withBus (h : s.Attended) {bus : Bus} (hnumbered : bus.Numbered)
    (hsame : ∀ {k : Nat} {i : Inspector}, s.inspector? k = some i →
      bus.mailbox? i.subscriber = s.bus.mailbox? i.subscriber) :
    ({ s with bus := bus } : Session).Attended where
  sound := h.sound
  numbered := hnumbered
  own := h.own
  hears hi := (h.hears hi).congr (hsame hi)
  fresh hi := h.fresh_of_mailbox hi (hsame hi)

theorem attach (h : s.Attended) : (s.perform .attach).session.Attended := by
  -- the number of the new subscription is none of those in use
  have hnew := Bus.mailbox?_subscribe_next h.numbered
  have hold : ∀ {k : Nat} {i : Inspector}, s.inspector? k = some i →
      s.bus.subscribe.2.mailbox? i.subscriber = s.bus.mailbox? i.subscriber :=
    fun hi => Bus.mailbox?_subscribe ((h.hears hi).lt_next h.numbered)
  have hdistinct : ∀ {k : Nat} {i : Inspector}, s.inspector? k = some i →
      i.subscriber ≠ s.bus.next := fun hi => by
    have hlt := (h.hears hi).lt_next h.numbered
    omega
  refine ⟨h.sound, h.numbered.subscribe, ?_, ?_, ?_⟩
  · intro j k x y hx hy hxy
    rcases inspector_of_append hx with ⟨hj, rfl⟩ | hx
    · rcases inspector_of_append hy with ⟨hk, rfl⟩ | hy
      · rw [hj, hk]
      · exact absurd hxy.symm (hdistinct hy)
    · rcases inspector_of_append hy with ⟨hk, rfl⟩ | hy
      · exact absurd hxy (hdistinct hx)
      · exact h.own hx hy hxy
  · intro k i hi
    rcases inspector_of_append hi with ⟨-, rfl⟩ | hi
    · exact ⟨_, hnew, rfl⟩
    · exact (h.hears hi).congr (hold hi)
  · intro k i hi
    rcases inspector_of_append hi with ⟨-, rfl⟩ | hi
    · exact .inr rfl
    · exact h.fresh_of_mailbox hi (hold hi)

/-- An inspector that follows the patch empties its own mailbox and no other. -/
theorem syncInspector (h : s.Attended) (index : Nat) : (s.syncInspector index).2.Attended := by
  unfold Session.syncInspector
  cases hindex : s.inspector? index with
  | none => exact h
  | some i =>
    let pending := s.bus.pending i.subscriber
    have hsubscriber := Inspector.subscriber_follow i s.graph pending
    have hshows : (i.follow s.graph pending).2.Shows s.graph :=
      Inspector.shows_follow (h.fresh hindex)
    -- the mailboxes of the others are not touched, because no two share one
    have hother : ∀ {k : Nat} {x : Inspector}, s.inspector? k = some x → k ≠ index →
        (s.bus.drain i.subscriber).2.mailbox? x.subscriber = s.bus.mailbox? x.subscriber := by
      intro k x hx hne
      exact Bus.mailbox?_drain_of_ne fun heq => hne (h.own hx hindex heq)
    refine ⟨h.sound, h.numbered.drain i.subscriber, ?_, ?_, ?_⟩
    · intro j k x y hx hy hxy
      rcases inspector_of_set hx with ⟨hj, hnew⟩ | ⟨hj, hx⟩
      · rcases inspector_of_set hy with ⟨hk, -⟩ | ⟨hk, hy⟩
        · rw [hj, hk]
        · cases hnew
          exact hj.trans (h.own hindex hy (hsubscriber.symm.trans hxy))
      · rcases inspector_of_set hy with ⟨hk, hnew⟩ | ⟨hk, hy⟩
        · cases hnew
          exact (h.own hx hindex (hxy.trans hsubscriber)).trans hk.symm
        · exact h.own hx hy hxy
    · intro k x hx
      rcases inspector_of_set hx with ⟨-, hnew⟩ | ⟨hk, hx⟩
      · cases hnew
        obtain ⟨m, hm, hlistens⟩ := h.hears hindex
        refine ⟨{ m with pending := [] }, ?_, hlistens⟩
        change Bus.mailbox? _ (i.follow s.graph pending).2.subscriber = _
        rw [hsubscriber]
        exact Bus.mailbox?_drain_self hm
      · exact (h.hears hx).congr (hother hx hk)
    · intro k x hx
      rcases inspector_of_set hx with ⟨-, hnew⟩ | ⟨hk, hx⟩
      · cases hnew
        exact .inr hshows
      · exact h.fresh_of_mailbox hx (hother hx hk)

theorem detach (h : s.Attended) (index : Nat) : (s.perform (.detach index)).session.Attended := by
  cases hindex : s.inspector? index with
  | none =>
    simp only [Session.perform, hindex]
    exact h
  | some i =>
    simp only [Session.perform, hindex]
    have hother : ∀ {k : Nat} {x : Inspector}, s.inspector? k = some x → k ≠ index →
        (s.bus.hangUp i.subscriber).mailbox? x.subscriber = s.bus.mailbox? x.subscriber := by
      intro k x hx hne
      exact Bus.mailbox?_hangUp_of_ne fun heq => hne (h.own hx hindex heq)
    -- whoever is still open was open before, in another place
    have hopen : ∀ {k : Nat} {x : Inspector},
        (s.inspectors.set index none)[k]?.getD none = some x →
          k ≠ index ∧ s.inspector? k = some x := by
      intro k x hx
      rcases inspector_of_set hx with ⟨-, hnew⟩ | hx
      · cases hnew
      · exact hx
    refine ⟨h.sound, h.numbered.hangUp i.subscriber, ?_, ?_, ?_⟩
    · intro j k x y hx hy hxy
      exact h.own (hopen hx).2 (hopen hy).2 hxy
    · intro k x hx
      have hx := hopen hx
      exact (h.hears hx.2).congr (hother hx.2 hx.1)
    · intro k x hx
      have hx := hopen hx
      exact h.fresh_of_mailbox hx.2 (hother hx.2 hx.1)

/-- Nobody but an inspector reaches its subscription. -/
theorem subscriber_ne {subscriber : Nat} (hnot : s.isInspectors subscriber = false) {k : Nat}
    {i : Inspector} (hi : s.inspector? k = some i) : i.subscriber ≠ subscriber := by
  intro heq
  have hmem : some i ∈ s.inspectors := by
    unfold inspector? at hi
    cases hk : s.inspectors[k]? with
    | none => rw [hk] at hi; cases hi
    | some x =>
      rw [hk] at hi
      rw [← show x = some i from hi]
      exact List.mem_of_getElem? hk
  unfold isInspectors at hnot
  rw [List.any_eq_false] at hnot
  exact hnot (some i) hmem (by simpa using heq)

theorem drain (h : s.Attended) (subscriber : Nat) :
    (s.perform (.drain subscriber)).session.Attended := by
  simp only [Session.perform]
  cases hinspectors : s.isInspectors subscriber with
  | true =>
    rw [if_pos rfl]
    exact h
  | false =>
    rw [if_neg Bool.false_ne_true]
    exact h.withBus (h.numbered.drain subscriber) fun hi =>
      Bus.mailbox?_drain_of_ne (subscriber_ne hinspectors hi)

theorem hangUp (h : s.Attended) (subscriber : Nat) :
    (s.perform (.hangUp subscriber)).session.Attended := by
  simp only [Session.perform]
  cases hinspectors : s.isInspectors subscriber with
  | true =>
    rw [if_pos rfl]
    exact h
  | false =>
    rw [if_neg Bool.false_ne_true]
    exact h.withBus (h.numbered.hangUp subscriber) fun hi =>
      Bus.mailbox?_hangUp_of_ne (subscriber_ne hinspectors hi)

/-! ## Whole actions and runs -/

theorem perform (h : s.Attended) (a : Action) : (s.perform a).session.Attended := by
  cases a with
  | edit e =>
    simp only [Session.perform]
    split
    · exact h.silent (Edit.step_leave s.graph e)
    · rename_i r hr
      exact h.publish (Edit.step_of_apply hr)
  | pointer index input =>
    exact (h.publish (Pointer.step_handle (s.pointer index) s.graph input)).pointers _
  | setPointer index p => exact h.pointers _
  | attach => exact h.attach
  | sync index => exact h.syncInspector index
  | inspect index e =>
    simp only [Session.perform]
    split
    · exact h
    · rename_i c hc
      exact (h.publish (InspectorEdit.step_of_apply hc)).syncInspector index
  | detach index => exact h.detach index
  | subscribe =>
    refine h.withBus h.numbered.subscribe fun hi => ?_
    exact Bus.mailbox?_subscribe ((h.hears hi).lt_next h.numbered)
  | drain subscriber => exact h.drain subscriber
  | hangUp subscriber => exact h.hangUp subscriber

theorem run (h : s.Attended) (actions : List Action) : (s.run actions).Attended :=
  run_induction (fun _ a hs => hs.perform a) h actions

theorem exists_shows (h : s.Attended) {index : Nat} {i₀ : Inspector}
    (hopen : s.inspector? index = some i₀) :
    ∃ i, (s.syncInspector index).2.inspector? index = some i ∧ i.Shows s.graph :=
  ⟨_, inspector?_syncInspector hopen, Inspector.shows_follow (h.fresh hopen)⟩

end Attended

theorem attended_ofGraph {g : Graph} (h : g.Sound) : (ofGraph g).Attended where
  sound := h
  numbered _ hm := nomatch hm
  own hx := nomatch hx
  hears hi := nomatch hi
  fresh hi := nomatch hi

/--
Whatever was done in a session, an open inspector that follows the patch, or through which an edit
succeeds, shows the selected node as a view made anew would, and nothing exactly if nothing is
selected.
-/
theorem inspector_fresh (config : Config) (random : Random) (actions : List Action) (index : Nat)
    (a : Action) :
    let s := (ofGraph (.blank config random)).run actions
    let p := s.perform a
    (s.inspector? index).isSome →
      (a = .sync index ∨ ∃ e reply, a = .inspect index e ∧ p.reply = .ok reply) →
        ∃ i, p.session.inspector? index = some i ∧ i.Shows p.session.graph ∧
          (i.view = none ↔ p.session.graph.selected = none) := by
  intro s p hopen ha
  have hs : s.Attended := (attended_ofGraph (Graph.sound_blank config random)).run actions
  have hp : p.session.Attended := hs.perform a
  obtain ⟨i₀, hi₀⟩ := Option.isSome_iff_exists.mp hopen
  have hshown : ∃ i, p.session.inspector? index = some i ∧ i.Shows p.session.graph := by
    rcases ha with rfl | ⟨e, reply, rfl, hreply⟩
    · have hsync := hs.exists_shows hi₀
      simpa [p, perform] using hsync
    · simp only [p, perform] at hreply ⊢
      split at hreply
      · cases hreply
      · rename_i c hc
        have hpublished := hs.publish (InspectorEdit.step_of_apply hc)
        have hstill : (s.publish c.graph c.events).inspector? index = some i₀ := hi₀
        have hsync := hpublished.exists_shows hstill
        simpa [hc] using hsync
  obtain ⟨i, hi, hshows⟩ := hshown
  refine ⟨i, hi, hshows, ?_⟩
  rw [← Graph.ofSelection_eq_none_iff hp.sound]
  have hnone := congrArg (· = none) hshows
  simpa only [Option.map_eq_none_iff, eq_iff_iff] using hnone

/--
A comparison is shown while its source is evaluated and given another name. Neither the selection
nor a binding changes, but what the view shows of the output, of the source and of its value does.
-/
theorem inspector_fresh_renamed_source :
    let battery := Node.ofType NodeKind.battery.nodeType (.ofNat 1)
    let comparison := Node.ofType NodeKind.comparison.nodeType (.ofNat 2)
    let actions : List Action :=
      [.edit (.add battery), .edit (.add comparison),
        .edit (.setLiteral comparison.id 0 (.text "=")),
        .edit (.connect battery.id comparison.id 1), .edit (.select comparison.id), .attach,
        .edit (.tick ⟨0⟩), .edit (.rename battery.id "Mains")]
    let s := (ofGraph (.blank {} (.ofSeed 7))).run actions
    let p := s.perform (.sync 0)
    let view (output : Value) (source : String) (read : Value) : NodeView :=
      { id := comparison.id
        kind := .comparison
        name := "Comparison"
        description := "Compares two values"
        output := output
        inputs := [
          ⟨0, "Operator", .string, some [.text "<", .text ">", .text "="], .literal (.text "="),
            .text "="⟩,
          ⟨1, "a", .any, none, .reference battery.id source, read⟩,
          ⟨2, "b", .any, none, .unbound, .unset⟩] }
    (s.inspector? 0).map (·.view) = some (some (view .unset "Battery" .unset)) ∧
      ∃ i, p.session.inspector? 0 = some i ∧ i.Shows p.session.graph ∧
        i.view = some (view (.bool false) "Mains" (.bool true)) := by
  intro battery comparison actions s p view
  have hbefore : (s.inspector? 0).map (·.view) = some (some (view .unset "Battery" .unset)) := by
    decide +kernel
  have hafter : (p.session.inspector? 0).map (·.view) =
      some (some (view (.bool false) "Mains" (.bool true))) := by decide +kernel
  have hopen : (s.inspector? 0).isSome := by
    rw [← Option.isSome_map (f := (·.view)), hbefore]
    rfl
  have hfresh := inspector_fresh {} (.ofSeed 7) actions 0 (.sync 0)
  dsimp only at hfresh
  rw [show (ofGraph (.blank {} (.ofSeed 7))).run actions = s from rfl,
    show s.perform (.sync 0) = p from rfl] at hfresh
  -- from here on the session is not to be evaluated
  clear_value p s
  obtain ⟨i, hi, hshows, -⟩ := hfresh hopen (.inl rfl)
  refine ⟨hbefore, i, hi, hshows, ?_⟩
  rw [hi] at hafter
  exact Option.some.inj hafter

end Session

end Patchbay
