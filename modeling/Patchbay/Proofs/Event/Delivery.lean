import Patchbay.Proofs.Inspector.Freshness

/-!
# What a subscriber receives

In a session each subscriber reads from its own mailbox, in its own time, while others join, read
and leave. Until it hangs up itself it receives all that is sent after it joined, in order and once,
whatever the others do (`Session.received_eq`).
-/

namespace Patchbay

namespace Session

variable {s : Session} {subscriber : Nat}

/-- What a subscriber reads by an action. -/
def readBy (s : Session) (subscriber : Nat) (a : Action) : List Event :=
  match a, (s.perform a).reply with
  | .drain reader, .ok (.events events) => if reader = subscriber then events else []
  | _, _ => []

/--
What a subscriber receives in the course of some actions: what it reads, and what waits for it at
the end.
-/
def received (s : Session) (subscriber : Nat) : List Action → List Event
  | [] => s.bus.pending subscriber
  | a :: actions => s.readBy subscriber a ++ (s.perform a).session.received subscriber actions

/-- What is sent in the course of some actions. -/
def sent (s : Session) : List Action → List Event
  | [] => []
  | a :: actions => (s.perform a).events ++ (s.perform a).session.sent actions

/-- A mailbox is there for a subscriber, and no inspector reads from it. -/
structure Subscribed (s : Session) (subscriber : Nat) : Prop where
  /-- The next subscriber gets a new number. -/
  numbered : s.bus.Numbered
  hears : s.bus.Hears subscriber
  /-- The subscription is that of no open inspector. -/
  alone : ∀ {k : Nat} {i : Inspector}, s.inspector? k = some i → i.subscriber ≠ subscriber

/-- After some change of a session a subscriber is still there and has been sent so much more. -/
structure Delivers (s s' : Session) (subscriber : Nat) (events : List Event) : Prop where
  subscribed : s'.Subscribed subscriber
  pending : s'.bus.pending subscriber = s.bus.pending subscriber ++ events

theorem Delivers.trans_nil {s₁ s₂ s₃ : Session} {events : List Event}
    (h : s₁.Delivers s₂ subscriber events) (h' : s₂.Delivers s₃ subscriber []) :
    s₁.Delivers s₃ subscriber events where
  subscribed := h'.subscribed
  pending := by rw [h'.pending, h.pending, List.append_nil]

namespace Subscribed

/-! ## The parts of an action -/

theorem publish (h : s.Subscribed subscriber) (g : Graph) (events : List Event) :
    s.Delivers (s.publish g events) subscriber events where
  subscribed := ⟨h.numbered.publish events, h.hears.publish events, h.alone⟩
  pending := Bus.pending_publish h.hears events

/-- What is done to other mailboxes does not matter. -/
theorem of_mailbox (h : s.Subscribed subscriber) {s' : Session} (hnumbered : s'.bus.Numbered)
    (hsame : s'.bus.mailbox? subscriber = s.bus.mailbox? subscriber)
    (halone : ∀ {k : Nat} {i : Inspector}, s'.inspector? k = some i → i.subscriber ≠ subscriber) :
    s.Delivers s' subscriber [] where
  subscribed := ⟨hnumbered, h.hears.congr hsame, halone⟩
  pending := by rw [Bus.pending_congr hsame, List.append_nil]

theorem refl (h : s.Subscribed subscriber) : s.Delivers s subscriber [] :=
  h.of_mailbox h.numbered rfl h.alone

theorem pointers (h : s.Subscribed subscriber) (pointers : List Pointer) :
    s.Delivers { s with pointers := pointers } subscriber [] :=
  h.of_mailbox h.numbered rfl h.alone

theorem subscribe (h : s.Subscribed subscriber) :
    s.Delivers { s with bus := s.bus.subscribe.2 } subscriber [] :=
  h.of_mailbox h.numbered.subscribe (Bus.mailbox?_subscribe (h.hears.lt_next h.numbered)) h.alone

theorem attach (h : s.Subscribed subscriber) :
    s.Delivers (s.perform .attach).session subscriber [] := by
  have hlt := h.hears.lt_next h.numbered
  refine h.of_mailbox h.numbered.subscribe (Bus.mailbox?_subscribe hlt) ?_
  intro k i hi
  rcases inspector_of_append hi with ⟨-, rfl⟩ | hi
  · exact Nat.ne_of_gt hlt
  · exact h.alone hi

/-- An inspector that follows the patch reads from its own mailbox. -/
theorem syncInspector (h : s.Subscribed subscriber) (index : Nat) :
    s.Delivers (s.syncInspector index).2 subscriber [] := by
  unfold Session.syncInspector
  cases hindex : s.inspector? index with
  | none => exact h.refl
  | some i =>
    have hother := h.alone hindex
    refine h.of_mailbox (h.numbered.drain i.subscriber)
      (Bus.mailbox?_drain_of_ne (Ne.symm hother)) ?_
    intro k x hx
    rcases inspector_of_set hx with ⟨-, hnew⟩ | ⟨-, hx⟩
    · cases hnew
      change (i.follow s.graph _).2.subscriber ≠ subscriber
      rwa [Inspector.subscriber_follow]
    · exact h.alone hx

theorem detach (h : s.Subscribed subscriber) (index : Nat) :
    s.Delivers (s.perform (.detach index)).session subscriber
      (s.perform (.detach index)).events := by
  cases hindex : s.inspector? index with
  | none =>
    simp only [Session.perform, hindex]
    exact h.refl
  | some i =>
    simp only [Session.perform, hindex]
    refine h.of_mailbox (h.numbered.hangUp i.subscriber)
      (Bus.mailbox?_hangUp_of_ne (Ne.symm (h.alone hindex))) ?_
    intro k x hx
    rcases inspector_of_set hx with ⟨-, hnew⟩ | ⟨-, hx⟩
    · cases hnew
    · exact h.alone hx

theorem hangUp (h : s.Subscribed subscriber) {other : Nat} (hother : subscriber ≠ other) :
    s.Delivers (s.perform (.hangUp other)).session subscriber
      (s.perform (.hangUp other)).events := by
  simp only [Session.perform]
  split
  · exact h.refl
  · exact h.of_mailbox (h.numbered.hangUp other) (Bus.mailbox?_hangUp_of_ne hother) h.alone

/-- What a subscriber reads no longer waits for it. -/
theorem drain (h : s.Subscribed subscriber) (reader : Nat) :
    (s.perform (.drain reader)).session.Subscribed subscriber ∧
      s.readBy subscriber (.drain reader) ++
          (s.perform (.drain reader)).session.bus.pending subscriber =
        s.bus.pending subscriber := by
  cases hinspectors : s.isInspectors reader with
  | true =>
    simp only [readBy, Session.perform, hinspectors, if_true, ite_self]
    exact ⟨h, List.nil_append _⟩
  | false =>
    simp only [readBy, Session.perform, hinspectors, Bool.false_eq_true, if_false]
    by_cases hreader : reader = subscriber
    · rw [hreader, if_pos rfl]
      obtain ⟨m, hm, hlistens⟩ := h.hears
      have hempty := Bus.mailbox?_drain_self hm
      refine ⟨⟨h.numbered.drain subscriber, ⟨_, hempty, hlistens⟩, h.alone⟩, ?_⟩
      rw [Bus.pending_of_mailbox? hempty]
      exact List.append_nil _
    · rw [if_neg hreader]
      have hdrain : s.Delivers { s with bus := (s.bus.drain reader).2 } subscriber [] :=
        h.of_mailbox (h.numbered.drain reader) (Bus.mailbox?_drain_of_ne (Ne.symm hreader)) h.alone
      exact ⟨hdrain.subscribed, hdrain.pending.trans (List.append_nil _)⟩

/-! ## Whole actions and runs -/

/-- What a subscriber reads and what waits for it then is what waited before and what is sent. -/
theorem perform (h : s.Subscribed subscriber) {a : Action} (hstays : a ≠ .hangUp subscriber) :
    (s.perform a).session.Subscribed subscriber ∧
      s.readBy subscriber a ++ (s.perform a).session.bus.pending subscriber =
        s.bus.pending subscriber ++ (s.perform a).events := by
  -- whoever does not read has only its mailbox to be looked at
  have of_delivers (hread : s.readBy subscriber a = [])
      (hdelivers : s.Delivers (s.perform a).session subscriber (s.perform a).events) :
      (s.perform a).session.Subscribed subscriber ∧
        s.readBy subscriber a ++ (s.perform a).session.bus.pending subscriber =
          s.bus.pending subscriber ++ (s.perform a).events := by
    rw [hread, List.nil_append]
    exact ⟨hdelivers.subscribed, hdelivers.pending⟩
  cases a with
  | edit e =>
    refine of_delivers rfl ?_
    simp only [Session.perform]
    split
    · exact h.of_mailbox h.numbered rfl h.alone
    · exact h.publish _ _
  | pointer index input =>
    refine of_delivers rfl ?_
    have hpublish := h.publish ((s.pointer index).handle s.graph input).2.graph
      ((s.pointer index).handle s.graph input).2.events
    exact hpublish.trans_nil (hpublish.subscribed.pointers _)
  | setPointer index p => exact of_delivers rfl (h.pointers _)
  | attach => exact of_delivers rfl h.attach
  | sync index => exact of_delivers rfl (h.syncInspector index)
  | inspect index e =>
    refine of_delivers rfl ?_
    simp only [Session.perform]
    split
    · exact h.refl
    · rename_i c hc
      have hpublish := h.publish c.graph c.events
      exact hpublish.trans_nil (hpublish.subscribed.syncInspector index)
  | detach index => exact of_delivers rfl (h.detach index)
  | subscribe => exact of_delivers rfl h.subscribe
  | drain reader =>
    obtain ⟨hsubscribed, hread⟩ := h.drain reader
    have hquiet : (s.perform (.drain reader)).events = [] := by
      simp only [Session.perform]
      split <;> rfl
    rw [hquiet, List.append_nil]
    exact ⟨hsubscribed, hread⟩
  | hangUp other =>
    exact of_delivers rfl (h.hangUp fun heq => hstays (congrArg Action.hangUp heq.symm))

end Subscribed

/-- A subscriber that does not hang up receives what waits for it and what is sent from then on. -/
theorem received_eq (h : s.Subscribed subscriber) {actions : List Action}
    (hstays : .hangUp subscriber ∉ actions) :
    s.received subscriber actions = s.bus.pending subscriber ++ s.sent actions := by
  induction actions generalizing s with
  | nil => exact (List.append_nil _).symm
  | cons a actions ih =>
    rw [List.mem_cons, not_or] at hstays
    obtain ⟨hsubscribed, hread⟩ := h.perform (Ne.symm hstays.1)
    rw [received, sent, ih hsubscribed hstays.2, ← List.append_assoc, hread, List.append_assoc]

/-- Who joins a session is subscribed under its new number, and nothing waits for it. -/
theorem Attended.subscribed (h : s.Attended) :
    (s.perform .subscribe).session.Subscribed s.bus.next ∧
      (s.perform .subscribe).session.bus.pending s.bus.next = [] := by
  have hnew : (s.perform .subscribe).session.bus.mailbox? s.bus.next =
      some { subscriber := s.bus.next } := Bus.mailbox?_subscribe_next h.numbered
  refine ⟨⟨h.numbered.subscribe, ⟨_, hnew, rfl⟩, fun hi => ?_⟩, ?_⟩
  · exact Nat.ne_of_lt ((h.hears hi).lt_next h.numbered)
  · exact Bus.pending_of_mailbox? hnew

end Session

end Patchbay
