import Patchbay.Event.Bus

/-!
# Mailboxes

What each operation on the subscribers does to the mailbox of one of them. A subscriber that listens
misses nothing: whatever is sent is added to what waits for it (`Bus.pending_publish`).
-/

namespace Patchbay

namespace Bus

def mailbox? (b : Bus) (subscriber : Nat) : Option Mailbox :=
  b.mailboxes.find? (·.subscriber == subscriber)

def Hears (b : Bus) (subscriber : Nat) : Prop :=
  ∃ m, b.mailbox? subscriber = some m ∧ m.listening = true

/-- The number for the next subscriber is not in use. -/
def Numbered (b : Bus) : Prop := ∀ m ∈ b.mailboxes, m.subscriber < b.next

variable {b : Bus} {subscriber other : Nat}

theorem pending_eq (b : Bus) (subscriber : Nat) :
    b.pending subscriber = ((b.mailbox? subscriber).map (·.pending)).getD [] := rfl

theorem pending_of_mailbox? {m : Mailbox} (hm : b.mailbox? subscriber = some m) :
    b.pending subscriber = m.pending := by
  rw [pending_eq, hm]
  rfl

theorem Hears.lt_next (h : b.Hears subscriber) (hb : b.Numbered) : subscriber < b.next := by
  obtain ⟨m, hm, -⟩ := h
  have hid : m.subscriber = subscriber := by simpa using List.find?_some hm
  rw [← hid]
  exact hb m (List.mem_of_find?_eq_some hm)

theorem Hears.congr {b' : Bus} (h : b.Hears subscriber)
    (hsame : b'.mailbox? subscriber = b.mailbox? subscriber) : b'.Hears subscriber := by
  unfold Hears
  rw [hsame]
  exact h

theorem pending_congr {b' : Bus} (hsame : b'.mailbox? subscriber = b.mailbox? subscriber) :
    b'.pending subscriber = b.pending subscriber := by
  rw [pending_eq, pending_eq, hsame]

theorem find?_map_ite (mailboxes : List Mailbox) (f : Mailbox → Mailbox)
    (hf : ∀ m, (f m).subscriber = m.subscriber) (subscriber other : Nat) :
    (mailboxes.map fun m => if m.subscriber = subscriber then f m else m).find?
        (·.subscriber == other) =
      (mailboxes.find? (·.subscriber == other)).map fun m =>
        if m.subscriber = subscriber then f m else m := by
  rw [List.find?_map]
  congr 2
  funext m
  simp only [Function.comp]
  by_cases h : m.subscriber = subscriber
  · rw [if_pos h, hf]
  · rw [if_neg h]

/-! ## Sending -/

theorem mailbox?_emit {m : Mailbox} (hm : b.mailbox? subscriber = some m)
    (hlistens : m.listening = true) (e : Event) :
    (b.emit e).mailbox? subscriber = some { m with pending := m.pending ++ [e] } := by
  unfold mailbox? emit at *
  rw [List.find?_map, List.find?_filter]
  rw [List.find?_eq_some_iff_append] at hm
  obtain ⟨hid, before, after, hsplit, hbefore⟩ := hm
  rw [Option.map_eq_some_iff]
  refine ⟨m, ?_, rfl⟩
  -- it stays the first of its subscriber when those who have hung up are dropped
  rw [List.find?_eq_some_iff_append]
  refine ⟨?_, before, after, hsplit, fun k hk => ?_⟩
  · simpa [hlistens] using hid
  · have hother := hbefore k hk
    rw [Bool.not_eq_true'] at hother
    simp [hother]

theorem Hears.emit (h : b.Hears subscriber) (e : Event) : (b.emit e).Hears subscriber := by
  obtain ⟨m, hm, hlistens⟩ := h
  exact ⟨_, mailbox?_emit hm hlistens e, hlistens⟩

theorem pending_emit (h : b.Hears subscriber) (e : Event) :
    (b.emit e).pending subscriber = b.pending subscriber ++ [e] := by
  obtain ⟨m, hm, hlistens⟩ := h
  rw [pending_eq, pending_eq, mailbox?_emit hm hlistens, hm]
  rfl

theorem Numbered.emit (h : b.Numbered) (e : Event) : (b.emit e).Numbered := by
  intro m hm
  obtain ⟨k, hk, rfl⟩ := List.mem_map.mp hm
  exact h k (List.mem_filter.mp hk).1

theorem Hears.publish (h : b.Hears subscriber) (events : List Event) :
    (b.publish events).Hears subscriber := by
  induction events generalizing b with
  | nil => exact h
  | cons e events ih => exact ih (h.emit e)

/-- Whatever is sent is added to what waits for a subscriber that listens. -/
theorem pending_publish (h : b.Hears subscriber) (events : List Event) :
    (b.publish events).pending subscriber = b.pending subscriber ++ events := by
  induction events generalizing b with
  | nil => rw [List.append_nil]; rfl
  | cons e events ih =>
    have htail : (b.publish (e :: events)).pending subscriber =
        ((b.emit e).publish events).pending subscriber := rfl
    rw [htail, ih (h.emit e), pending_emit h, List.append_assoc]
    rfl

theorem Numbered.publish (h : b.Numbered) (events : List Event) :
    (b.publish events).Numbered := by
  induction events generalizing b with
  | nil => exact h
  | cons e events ih => exact ih (h.emit e)

/-! ## Coming and going -/

theorem mailbox?_subscribe (h : subscriber < b.next) :
    b.subscribe.2.mailbox? subscriber = b.mailbox? subscriber := by
  unfold mailbox? subscribe
  have hother : (b.next == subscriber) = false := by
    rw [beq_eq_false_iff_ne]
    omega
  rw [List.find?_append, List.find?_singleton, hother]
  exact Option.or_none

theorem mailbox?_subscribe_next (h : b.Numbered) :
    b.subscribe.2.mailbox? b.next = some { subscriber := b.next } := by
  have hnone : b.mailboxes.find? (·.subscriber == b.next) = none := by
    rw [List.find?_eq_none]
    intro m hm hid
    have hlt := h m hm
    have hid : m.subscriber = b.next := by simpa using hid
    omega
  unfold mailbox? subscribe
  rw [List.find?_append, hnone, List.find?_singleton, beq_self_eq_true]
  rfl

theorem Numbered.subscribe (h : b.Numbered) : b.subscribe.2.Numbered := by
  intro m hm
  change m.subscriber < b.next + 1
  rcases List.mem_append.mp hm with hm | hm
  · have hlt := h m hm
    omega
  · rw [List.mem_singleton.mp hm]
    exact Nat.lt_succ_self _

theorem mailbox?_rewrite_self {m : Mailbox} (h : b.mailbox? subscriber = some m)
    (f : Mailbox → Mailbox) (hf : ∀ m, (f m).subscriber = m.subscriber) :
    (b.mailboxes.map fun m => if m.subscriber = subscriber then f m else m).find?
        (·.subscriber == subscriber) = some (f m) := by
  have hid : m.subscriber = subscriber := by simpa using List.find?_some h
  rw [find?_map_ite b.mailboxes f hf]
  change (b.mailbox? subscriber).map _ = _
  rw [h, Option.map_some, if_pos hid]

theorem mailbox?_drain_self {m : Mailbox} (h : b.mailbox? subscriber = some m) :
    (b.drain subscriber).2.mailbox? subscriber = some { m with pending := [] } :=
  mailbox?_rewrite_self h (fun m => { m with pending := [] }) fun _ => rfl

theorem mailbox?_receive_self {m : Mailbox} (h : b.mailbox? subscriber = some m) :
    (b.receive subscriber).2.mailbox? subscriber =
      some { m with pending := m.pending.tail } :=
  mailbox?_rewrite_self h (fun m => { m with pending := m.pending.tail }) fun _ => rfl

/-- Rewriting the mailbox of one subscriber means nothing to another. -/
theorem mailbox?_rewrite_of_ne (h : other ≠ subscriber) (f : Mailbox → Mailbox)
    (hf : ∀ m, (f m).subscriber = m.subscriber) :
    (b.mailboxes.map fun m => if m.subscriber = subscriber then f m else m).find?
      (·.subscriber == other) = b.mailbox? other := by
  rw [find?_map_ite b.mailboxes f hf]
  change (b.mailbox? other).map _ = _
  cases hm : b.mailbox? other with
  | none => rfl
  | some m =>
    have hid : m.subscriber = other := by simpa using List.find?_some hm
    rw [Option.map_some, if_neg (by rw [hid]; exact h)]

theorem mailbox?_drain_of_ne (h : other ≠ subscriber) :
    (b.drain subscriber).2.mailbox? other = b.mailbox? other :=
  mailbox?_rewrite_of_ne h (fun m => { m with pending := [] }) fun _ => rfl

theorem mailbox?_receive_of_ne (h : other ≠ subscriber) :
    (b.receive subscriber).2.mailbox? other = b.mailbox? other :=
  mailbox?_rewrite_of_ne h (fun m => { m with pending := m.pending.tail }) fun _ => rfl

theorem mailbox?_hangUp_of_ne (h : other ≠ subscriber) :
    (b.hangUp subscriber).mailbox? other = b.mailbox? other :=
  mailbox?_rewrite_of_ne h (fun m => { m with pending := [], listening := false }) fun _ => rfl

theorem Numbered.drain (h : b.Numbered) (subscriber : Nat) : (b.drain subscriber).2.Numbered := by
  intro m hm
  obtain ⟨k, hk, rfl⟩ := List.mem_map.mp hm
  have hlt := h k hk
  split <;> exact hlt

theorem Numbered.receive (h : b.Numbered) (subscriber : Nat) :
    (b.receive subscriber).2.Numbered := by
  intro m hm
  obtain ⟨k, hk, rfl⟩ := List.mem_map.mp hm
  have hlt := h k hk
  split <;> exact hlt

theorem Numbered.hangUp (h : b.Numbered) (subscriber : Nat) : (b.hangUp subscriber).Numbered := by
  intro m hm
  obtain ⟨k, hk, rfl⟩ := List.mem_map.mp hm
  have hlt := h k hk
  split <;> exact hlt

end Bus

end Patchbay
