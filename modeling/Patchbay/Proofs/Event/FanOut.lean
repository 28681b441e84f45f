import Mathlib.Data.Set.Card
import Patchbay.Proofs.Event.Mailbox

/-!
# Fan-out

Subscribers join, read and hang up at any point of a stream of notifications of any length. What one
of them has read, followed by what waits for it, is at any time what was sent since it joined, each
notification once and in order, whatever the others do. Once a notification is sent, there are as
many mailboxes as subscribers that have not hung up (`Bus.fan_out`).
-/

namespace Patchbay

/-- Something that happens to a bus. Subscribers are numbered in the order in which they join. -/
inductive BusAction where
  | subscribe
  | emit (e : Event)
  /-- A subscriber reads one notification, if one waits. -/
  | receive (subscriber : Nat)
  /-- A subscriber reads all that waits. -/
  | drain (subscriber : Nat)
  | hangUp (subscriber : Nat)
deriving DecidableEq

namespace BusAction

def emitted? : BusAction → Option Event
  | emit e => some e
  | _ => none

/-- The notifications sent in the course of some actions. -/
def emitted (actions : List BusAction) : List Event := actions.filterMap emitted?

/-- Whether a subscriber has joined in the course of some actions and has not hung up since. -/
def Listens (actions : List BusAction) (subscriber : Nat) : Prop :=
  ∃ before since, actions = before ++ .subscribe :: since ∧
    before.count .subscribe = subscriber ∧ .hangUp subscriber ∉ since

/-- The last of some actions is to join, or not to hang up. -/
theorem listens_append_singleton {actions : List BusAction} {a : BusAction} {subscriber : Nat} :
    Listens (actions ++ [a]) subscriber ↔
      (Listens actions subscriber ∧ a ≠ .hangUp subscriber) ∨
        (a = .subscribe ∧ actions.count .subscribe = subscriber) := by
  constructor
  · rintro ⟨before, since, hsplit, hcount, hstays⟩
    -- either the last action is what the subscriber joined by, or it came after
    rcases List.eq_nil_or_concat since with rfl | ⟨since, last, rfl⟩
    · obtain ⟨rfl, hlast⟩ := List.append_inj' hsplit rfl
      exact .inr ⟨by simpa using hlast, hcount⟩
    · rw [List.concat_eq_append, ← List.cons_append, ← List.append_assoc] at hsplit
      obtain ⟨hactions, hlast⟩ := List.append_inj' hsplit rfl
      obtain rfl : a = last := by simpa using hlast
      rw [List.concat_eq_append, List.mem_append, List.mem_singleton, not_or] at hstays
      exact .inl ⟨⟨before, since, hactions, hcount, hstays.1⟩, Ne.symm hstays.2⟩
  · rintro (⟨⟨before, since, rfl, hcount, hstays⟩, ha⟩ | ⟨rfl, hcount⟩)
    · refine ⟨before, since ++ [a], by simp, hcount, ?_⟩
      rw [List.mem_append, List.mem_singleton, not_or]
      exact ⟨hstays, Ne.symm ha⟩
    · exact ⟨actions, [], rfl, hcount, List.not_mem_nil⟩

end BusAction

namespace Bus

/-- The bus after an action. -/
def after (b : Bus) : BusAction → Bus
  | .subscribe => b.subscribe.2
  | .emit e => b.emit e
  | .receive subscriber => (b.receive subscriber).2
  | .drain subscriber => (b.drain subscriber).2
  | .hangUp subscriber => b.hangUp subscriber

/-- The bus after some actions. -/
def run (b : Bus) (actions : List BusAction) : Bus := actions.foldl after b

/-- What a subscriber reads by an action. -/
def readBy (b : Bus) (subscriber : Nat) : BusAction → List Event
  | .receive reader => if reader = subscriber then (b.receive reader).1.toList else []
  | .drain reader => if reader = subscriber then (b.drain reader).1 else []
  | .subscribe | .emit _ | .hangUp _ => []

/-- What a subscriber reads in the course of some actions. -/
def readIn (b : Bus) (subscriber : Nat) : List BusAction → List Event
  | [] => []
  | a :: actions => b.readBy subscriber a ++ (b.after a).readIn subscriber actions

/-- The subscribers that have not hung up. -/
def listeners (b : Bus) : List Nat := (b.mailboxes.filter (·.listening)).map (·.subscriber)

variable {b : Bus} {subscriber : Nat}

theorem run_append (b : Bus) (actions later : List BusAction) :
    b.run (actions ++ later) = (b.run actions).run later :=
  List.foldl_append

/-! ## What a subscriber receives -/

theorem Numbered.after (h : b.Numbered) (a : BusAction) : (b.after a).Numbered := by
  cases a with
  | subscribe => exact h.subscribe
  | emit e => exact h.emit e
  | receive subscriber => exact h.receive subscriber
  | drain subscriber => exact h.drain subscriber
  | hangUp subscriber => exact h.hangUp subscriber

theorem numbered_run (actions : List BusAction) : (({} : Bus).run actions).Numbered := by
  induction actions using List.reverseRecOn with
  | nil => exact fun _ hm => nomatch hm
  | append_singleton actions a ih =>
    rw [run_append]
    exact ih.after a

/-- What happens to other mailboxes is no matter to a subscriber. -/
theorem hears_and_pending_of_mailbox {b' : Bus} (h : b.Hears subscriber)
    (hsame : b'.mailbox? subscriber = b.mailbox? subscriber) :
    b'.Hears subscriber ∧ b'.pending subscriber = b.pending subscriber :=
  ⟨h.congr hsame, pending_congr hsame⟩

/-- What a subscriber has taken from its mailbox is no longer in there. -/
theorem hears_and_pending_of_read {b' : Bus} {m : Mailbox} {taken rest : List Event}
    (hm : b.mailbox? subscriber = some m) (hlistens : m.listening = true)
    (hrest : b'.mailbox? subscriber = some { m with pending := rest })
    (htaken : taken ++ rest = m.pending) :
    b'.Hears subscriber ∧ taken ++ b'.pending subscriber = b.pending subscriber := by
  refine ⟨⟨_, hrest, hlistens⟩, ?_⟩
  rw [pending_of_mailbox? hrest, pending_of_mailbox? hm]
  exact htaken

/--
What a subscriber reads by an action and what waits for it then is what waited before and what is
sent.
-/
theorem hears_and_pending_after (hb : b.Numbered) (h : b.Hears subscriber) {a : BusAction}
    (hstays : a ≠ .hangUp subscriber) :
    (b.after a).Hears subscriber ∧
      b.readBy subscriber a ++ (b.after a).pending subscriber =
        b.pending subscriber ++ a.emitted?.toList := by
  cases a with
  | subscribe =>
    have hother := hears_and_pending_of_mailbox h (mailbox?_subscribe (h.lt_next hb))
    exact ⟨hother.1, hother.2.trans (List.append_nil _).symm⟩
  | emit e => exact ⟨h.emit e, pending_emit h e⟩
  | receive reader =>
    change _ ∧ _ = _ ++ []
    rw [readBy, List.append_nil]
    split
    · rename_i hreader
      obtain ⟨m, hm, hlistens⟩ := h
      rw [hreader]
      refine hears_and_pending_of_read hm hlistens (mailbox?_receive_self hm) ?_
      rw [receive, pending_of_mailbox? hm]
      cases m.pending <;> rfl
    · rename_i hreader
      exact hears_and_pending_of_mailbox h (mailbox?_receive_of_ne (Ne.symm hreader))
  | drain reader =>
    change _ ∧ _ = _ ++ []
    rw [readBy, List.append_nil]
    split
    · rename_i hreader
      obtain ⟨m, hm, hlistens⟩ := h
      rw [hreader]
      refine hears_and_pending_of_read hm hlistens (mailbox?_drain_self hm) ?_
      rw [List.append_nil]
      exact pending_of_mailbox? hm
    · rename_i hreader
      exact hears_and_pending_of_mailbox h (mailbox?_drain_of_ne (Ne.symm hreader))
  | hangUp other =>
    have hne : subscriber ≠ other := fun heq => hstays (congrArg BusAction.hangUp heq.symm)
    have hother := hears_and_pending_of_mailbox h (mailbox?_hangUp_of_ne hne)
    exact ⟨hother.1, hother.2.trans (List.append_nil _).symm⟩

/-- A subscriber that does not hang up receives what waits for it and what is sent from then on. -/
theorem readIn_append_pending (hb : b.Numbered) (h : b.Hears subscriber)
    {actions : List BusAction} (hstays : .hangUp subscriber ∉ actions) :
    b.readIn subscriber actions ++ (b.run actions).pending subscriber =
      b.pending subscriber ++ BusAction.emitted actions := by
  -- on the actions to come, from any bus that the subscriber listens to
  induction actions generalizing b with
  | nil => exact (List.append_nil _).symm
  | cons a actions ih =>
    rw [List.mem_cons, not_or] at hstays
    obtain ⟨hhears, hread⟩ := hears_and_pending_after hb h (Ne.symm hstays.1)
    have hemitted : BusAction.emitted (a :: actions) =
        a.emitted?.toList ++ BusAction.emitted actions := by
      unfold BusAction.emitted
      cases a <;> rfl
    have hrest := ih (hb.after a) hhears hstays.2
    rw [readIn, List.append_assoc]
    change _ ++ (_ ++ ((b.after a).run actions).pending subscriber) = _
    rw [hrest, ← List.append_assoc, hread, List.append_assoc, hemitted]

/-! ## Who listens -/

theorem next_after (b : Bus) (a : BusAction) :
    (b.after a).next = b.next + [a].count .subscribe := by
  cases a <;> rfl

/-- The next subscriber gets the number of those that have joined before. -/
theorem next_run (actions : List BusAction) :
    (({} : Bus).run actions).next = actions.count .subscribe := by
  induction actions using List.reverseRecOn with
  | nil => rfl
  | append_singleton actions a ih =>
    rw [run_append, List.count_append, ← ih]
    exact next_after _ a

/-- Rewriting what waits for a subscriber is no matter to who listens. -/
theorem listeners_rewrite (b : Bus) (f : Mailbox → Mailbox)
    (hid : ∀ m, (f m).subscriber = m.subscriber) (hlistening : ∀ m, (f m).listening = m.listening) :
    ((b.mailboxes.map f).filter (·.listening)).map (·.subscriber) = b.listeners := by
  rw [List.filter_map, List.map_map, listeners]
  have hsame : ((·.listening) ∘ f) = (·.listening) := funext hlistening
  rw [hsame]
  exact List.map_congr_left fun m _ => hid m

theorem listeners_emit (b : Bus) (e : Event) : (b.emit e).listeners = b.listeners := by
  have hrewrite := listeners_rewrite { b with mailboxes := b.mailboxes.filter (·.listening) }
    (fun m => { m with pending := m.pending ++ [e] }) (fun _ => rfl) fun _ => rfl
  refine hrewrite.trans ?_
  -- those who hung up have lost their mailbox, which did not count before either
  rw [listeners, List.filter_filter]
  simp only [Bool.and_self]
  rfl

theorem count_emit (b : Bus) (e : Event) : (b.emit e).count = b.listeners.length := by
  rw [count, emit, List.length_map, listeners, List.length_map]

theorem listeners_subscribe (b : Bus) : b.subscribe.2.listeners = b.listeners ++ [b.next] := by
  rw [listeners, subscribe, List.filter_append, List.map_append]
  rfl

theorem listeners_receive (b : Bus) (reader : Nat) :
    (b.receive reader).2.listeners = b.listeners :=
  listeners_rewrite b _ (fun m => by split <;> rfl) fun m => by split <;> rfl

theorem listeners_drain (b : Bus) (reader : Nat) :
    (b.drain reader).2.listeners = b.listeners :=
  listeners_rewrite b _ (fun m => by split <;> rfl) fun m => by split <;> rfl

theorem listeners_hangUp (b : Bus) (subscriber : Nat) :
    (b.hangUp subscriber).listeners = b.listeners.filter (· ≠ subscriber) := by
  unfold listeners hangUp
  induction b.mailboxes with
  | nil => rfl
  | cons m mailboxes ih =>
    by_cases hid : m.subscriber = subscriber
    · cases hlistening : m.listening <;> simp_all
    · cases hlistening : m.listening <;> simp_all

theorem mem_listeners_after {a : BusAction} :
    subscriber ∈ (b.after a).listeners ↔
      (subscriber ∈ b.listeners ∧ a ≠ .hangUp subscriber) ∨
        (a = .subscribe ∧ b.next = subscriber) := by
  cases a with
  | subscribe => simp [after, listeners_subscribe, eq_comm]
  | emit e => simp [after, listeners_emit]
  | receive reader => simp [after, listeners_receive]
  | drain reader => simp [after, listeners_drain]
  | hangUp other =>
    rw [after, listeners_hangUp, List.mem_filter]
    simp [eq_comm (a := other)]

theorem mem_listeners_run {actions : List BusAction} :
    subscriber ∈ (({} : Bus).run actions).listeners ↔ BusAction.Listens actions subscriber := by
  induction actions using List.reverseRecOn with
  | nil =>
    constructor
    · exact fun h => nomatch h
    · rintro ⟨before, since, hsplit, -⟩
      simp at hsplit
  | append_singleton actions a ih =>
    rw [run_append, BusAction.listens_append_singleton, ← ih, ← next_run]
    exact mem_listeners_after

theorem nodup_listeners_after (hb : b.Numbered) (h : b.listeners.Nodup) (a : BusAction) :
    (b.after a).listeners.Nodup := by
  cases a with
  | subscribe =>
    have hnew : b.next ∉ b.listeners := by
      intro hmem
      obtain ⟨m, hm, hid⟩ := List.mem_map.mp hmem
      have hlt := hb m (List.mem_filter.mp hm).1
      omega
    rw [after, listeners_subscribe, ← List.concat_eq_append]
    exact h.concat hnew
  | emit e => rwa [after, listeners_emit]
  | receive reader => rwa [after, listeners_receive]
  | drain reader => rwa [after, listeners_drain]
  | hangUp other =>
    rw [after, listeners_hangUp]
    exact h.filter _

theorem nodup_listeners_run (actions : List BusAction) :
    (({} : Bus).run actions).listeners.Nodup := by
  induction actions using List.reverseRecOn with
  | nil => exact List.nodup_nil
  | append_singleton actions a ih =>
    rw [run_append]
    exact nodup_listeners_after (numbered_run actions) ih a

/--
Whatever happens to a bus that starts without subscribers, a subscriber gets the number of those
that joined before it, and, until it hangs up itself, what it has read and what still waits for it
are the notifications sent since it joined, in order and each once. Right after a notification is
sent there is a mailbox for each subscriber that has not hung up, and no other.
-/
theorem fan_out (actions : List BusAction) :
    (∀ before since, actions = before ++ .subscribe :: since →
      let b := ({} : Bus).run before
      let subscriber := before.count .subscribe
      b.subscribe.1 = subscriber ∧
        (.hangUp subscriber ∉ since →
          b.subscribe.2.readIn subscriber since ++ (({} : Bus).run actions).pending subscriber =
            BusAction.emitted since)) ∧
      ∀ e, (({} : Bus).run (actions ++ [.emit e])).count =
        {subscriber | BusAction.Listens actions subscriber}.ncard := by
  constructor
  · rintro before since rfl b subscriber
    have hnext : b.next = subscriber := next_run before
    refine ⟨hnext, fun hstays => ?_⟩
    have hb : b.Numbered := numbered_run before
    have hnew : b.subscribe.2.mailbox? subscriber = some { subscriber := subscriber } := by
      rw [← hnext]
      exact mailbox?_subscribe_next hb
    have hempty : b.subscribe.2.pending subscriber = [] := pending_of_mailbox? hnew
    have hread := readIn_append_pending hb.subscribe ⟨_, hnew, rfl⟩ hstays
    rw [hempty, List.nil_append] at hread
    rw [run_append]
    exact hread
  · intro e
    -- the listeners of the bus are a list without repetition
    have hset : {subscriber | BusAction.Listens actions subscriber} =
        ((({} : Bus).run actions).listeners.toFinset : Set Nat) := by
      ext subscriber
      rw [Finset.mem_coe, List.mem_toFinset, mem_listeners_run]
      rfl
    rw [hset, Set.ncard_coe_finset, List.toFinset_card_of_nodup (nodup_listeners_run actions),
      run_append]
    exact count_emit _ e

end Bus

end Patchbay
