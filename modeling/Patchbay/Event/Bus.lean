import Patchbay.Event

/-!
# Fan-out of notifications

Any number of subscribers receive every notification sent after they joined. Each has a mailbox
that holds what it has not read yet, without limit. A subscriber may hang up at any time; its
mailbox is noticed and dropped when the next notification is sent.
-/

namespace Patchbay

/-- The notifications waiting for one subscriber. -/
structure Mailbox where
  subscriber : Nat
  /-- What it has not read, oldest first. -/
  pending : List Event := []
  listening : Bool := true
deriving DecidableEq

/-- The subscribers of a patch. -/
structure Bus where
  /-- The number for the next subscriber. -/
  next : Nat := 0
  /-- The mailboxes, oldest first. -/
  mailboxes : List Mailbox := []
deriving DecidableEq

namespace Bus

/-- Adds a subscriber. -/
def subscribe (b : Bus) : Nat × Bus :=
  (b.next, ⟨b.next + 1, b.mailboxes ++ [{ subscriber := b.next }]⟩)

/-- A subscriber hangs up and reads no more. -/
def hangUp (b : Bus) (subscriber : Nat) : Bus :=
  { b with mailboxes := b.mailboxes.map fun m =>
      if m.subscriber = subscriber then { m with pending := [], listening := false } else m }

/-- Sends a notification to those who listen and drops the mailboxes of those who do not. -/
def emit (b : Bus) (e : Event) : Bus :=
  { b with mailboxes := (b.mailboxes.filter (·.listening)).map fun m =>
      { m with pending := m.pending ++ [e] } }

/-- Sends several notifications in order. -/
def publish (b : Bus) (events : List Event) : Bus :=
  events.foldl emit b

/-- What waits for a subscriber. -/
def pending (b : Bus) (subscriber : Nat) : List Event :=
  ((b.mailboxes.find? (·.subscriber == subscriber)).map (·.pending)).getD []

/-- A subscriber reads the oldest notification that waits for it, if one does. -/
def receive (b : Bus) (subscriber : Nat) : Option Event × Bus :=
  ((b.pending subscriber).head?,
    { b with mailboxes := b.mailboxes.map fun m =>
        if m.subscriber = subscriber then { m with pending := m.pending.tail } else m })

/-- A subscriber reads all that waits for it. -/
def drain (b : Bus) (subscriber : Nat) : List Event × Bus :=
  (b.pending subscriber,
    { b with mailboxes := b.mailboxes.map fun m =>
        if m.subscriber = subscriber then { m with pending := [] } else m })

/-- How many mailboxes there are. -/
def count (b : Bus) : Nat := b.mailboxes.length

end Bus

end Patchbay
