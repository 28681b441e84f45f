import Patchbay.Instant

/-!
# The timer

A worker ticks a shared state at a fixed interval until it is stopped, while others edit the state.
Worker and editors take turns under a lock: who holds it has the state to himself, for as many
changes as he likes, and everybody else waits. The worker counts its ticks and looks whether it is
to stop without the lock. The timer is a transition system, so that every interleaving is a list of
steps: `Timer.Step` says what may happen next and `Timer.next?` carries it out.
-/

namespace Patchbay

/-- Where the worker is in its loop. -/
inductive WorkerPhase where
  /-- About to look whether it was cancelled. -/
  | testing
  /-- Waiting for the lock. -/
  | locking
  /-- Holding the lock, about to tick. -/
  | ticking
  /-- Holding the lock after its tick. -/
  | unlocking
  /-- About to count the tick. -/
  | counting
  /-- Asleep until the interval is over. -/
  | sleeping
  | ended
deriving DecidableEq, Repr

/-- Who has the lock; editors are told apart by their numbers. -/
inductive LockHolder where
  | worker
  | editor (number : Nat)
deriving DecidableEq, Repr

/-- How far the caller has got with stopping the timer. To drop it is to stop it without reading the
answer. -/
inductive StopPhase where
  | running
  /-- The worker was told to stop and is being waited for. -/
  | waiting
  /-- The worker has ended and the caller has its answer, the count as it is then. -/
  | stopped (ticks : Nat)
deriving DecidableEq, Repr

/-- A timer on a shared state. -/
structure Timer (σ : Type) where
  shared : σ
  /-- Who has the lock, if anybody. -/
  lock : Option LockHolder := none
  /-- Where the worker is. -/
  worker : WorkerPhase := .testing
  /-- The ticks counted so far, starting over at zero after the largest count. -/
  ticks : UInt64 := 0
  /-- Whether the worker was told to stop. -/
  cancelled : Bool := false
  /-- How far the caller has got with stopping it. -/
  stop : StopPhase := .running

namespace Timer

/-- Something that can happen. -/
inductive Step (σ : Type) where
  | worker
  /-- An editor takes the lock. -/
  | lock (editor : Nat)
  /-- The editor that has the lock changes the shared state. -/
  | change (editor : Nat) (f : σ → σ)
  /-- The editor that has the lock lets go of it. -/
  | unlock (editor : Nat)
  /-- Somebody takes the lock, makes one change and lets go, with nothing in between. -/
  | edit (f : σ → σ)
  /-- The caller tells the worker to stop. -/
  | cancel
  /-- The caller learns that the worker has ended. -/
  | join

variable {σ : Type}

/-- The worker goes on by one step, unless it has ended or somebody else has the lock it needs. -/
def work? (tick : σ → σ) (t : Timer σ) : Option (Timer σ) :=
  match t.worker with
  | .testing => some { t with worker := if t.cancelled then .ended else .locking }
  | .locking =>
    if t.lock = none then some { t with lock := some .worker, worker := .ticking } else none
  | .ticking => some { t with shared := tick t.shared, worker := .unlocking }
  | .unlocking => some { t with lock := none, worker := .counting }
  | .counting => some { t with ticks := t.ticks + 1, worker := .sleeping }
  | .sleeping => some { t with worker := .testing }
  | .ended => none

/-- What a step leads to, if it can happen now. -/
def next? (tick : σ → σ) (t : Timer σ) : Step σ → Option (Timer σ)
  | .worker => t.work? tick
  | .lock editor => if t.lock = none then some { t with lock := some (.editor editor) } else none
  | .change editor f =>
    if t.lock = some (.editor editor) then some { t with shared := f t.shared } else none
  | .unlock editor => if t.lock = some (.editor editor) then some { t with lock := none } else none
  | .edit f => if t.lock = none then some { t with shared := f t.shared } else none
  | .cancel =>
    if t.stop = .running then some { t with cancelled := true, stop := .waiting } else none
  | .join =>
    if t.stop = .waiting ∧ t.worker = .ended then some { t with stop := .stopped t.ticks.toNat }
    else none

/--
What a list of steps, each at its point in time, leads to, if each can happen in its turn. What a
tick does depends on when it is carried out.
-/
def runAt? (tick : Instant → σ → σ) (t : Timer σ) (steps : List (Instant × Step σ)) :
    Option (Timer σ) :=
  steps.foldlM (fun t (now, step) => t.next? (tick now) step) t

/-- What a list of steps leads to when the time is no matter. -/
def run? (tick : σ → σ) (t : Timer σ) (steps : List (Step σ)) : Option (Timer σ) :=
  t.runAt? (fun _ => tick) (steps.map (⟨0⟩, ·))

/-- The steps of the worker in one round of its loop. -/
def round : List (Step σ) := List.replicate 6 .worker

/-- The worker goes round its loop a number of times. -/
def rounds (tick : σ → σ) (t : Timer σ) (n : Nat) : Timer σ :=
  (run? tick t (List.replicate n round).flatten).getD t

/-- The timer is stopped: the worker is told so, ends, and is waited for. -/
def halt (tick : σ → σ) (t : Timer σ) : Timer σ :=
  (run? tick t [.cancel, .worker, .join]).getD t

end Timer

end Patchbay
