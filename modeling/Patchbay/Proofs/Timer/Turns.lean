import Mathlib.Data.List.Defs
import Patchbay.Session
import Patchbay.Timer

/-!
# Turns under the lock

Worker and editors change the shared state in turns: a turn begins when somebody takes the lock, and
all that he does until he lets go belongs to it. The turns of a run are written down in the order in
which the lock was taken. However the steps interleave, the shared state is what these turns make of
it one whole turn after the other, the count of ticks is at most one behind, and a timer that is
stopped knows how many ticks there were (`Timer.accounting`).
-/

namespace Patchbay

/-- What somebody does while he has the lock. -/
inductive Turn (σ : Type) where
  /-- A tick of the worker, and when it was carried out, if it was. -/
  | tick (finished? : Option Instant)
  /-- The changes made so far by an editor, or by somebody who makes a single one. -/
  | edit (editor? : Option Nat) (changes : List (σ → σ))

namespace Turn

variable {σ : Type}

/-- What a turn makes of the shared state. -/
def apply (tick : Instant → σ → σ) (s : σ) : Turn σ → σ
  | .tick none => s
  | .tick (some now) => tick now s
  | .edit _ changes => changes.foldl (fun s f => f s) s

/-- What turns, one whole turn after the other, make of a state. -/
def applyAll (tick : Instant → σ → σ) (start : σ) (turns : List (Turn σ)) : σ :=
  turns.foldl (apply tick) start

/-- A tick that is under way, as carried out at a point in time. -/
def finish? (now : Instant) : Turn σ → Option (Turn σ)
  | .tick none => some (.tick (some now))
  | _ => none

/-- An edit of an editor with one more change. -/
def change? (editor : Nat) (f : σ → σ) : Turn σ → Option (Turn σ)
  | .edit (some other) changes =>
    if other = editor then some (.edit (some other) (changes ++ [f])) else none
  | _ => none

def isTick : Turn σ → Bool
  | .tick _ => true
  | .edit .. => false

def isFinishedTick : Turn σ → Bool
  | .tick finished? => finished?.isSome
  | .edit .. => false

/-- The number of ticks that were begun. -/
def begun (turns : List (Turn σ)) : Nat := turns.countP isTick

/-- The number of ticks that were carried out. -/
def finished (turns : List (Turn σ)) : Nat := turns.countP isFinishedTick

variable {tick : Instant → σ → σ} {start : σ} {noted : List (Turn σ)}

@[simp]
theorem begun_reverse (turns : List (Turn σ)) : begun turns.reverse = begun turns :=
  List.countP_reverse

@[simp]
theorem finished_reverse (turns : List (Turn σ)) : finished turns.reverse = finished turns :=
  List.countP_reverse

@[simp]
theorem begun_tick (finished? : Option Instant) :
    begun (.tick finished? :: noted) = begun noted + 1 :=
  List.countP_cons_of_pos rfl

@[simp]
theorem begun_edit (editor? : Option Nat) (changes : List (σ → σ)) :
    begun (.edit editor? changes :: noted) = begun noted :=
  List.countP_cons_of_neg Bool.false_ne_true

@[simp]
theorem finished_tick_none : finished (.tick none :: noted) = finished noted :=
  List.countP_cons_of_neg Bool.false_ne_true

@[simp]
theorem finished_tick_some (now : Instant) :
    finished (.tick (some now) :: noted) = finished noted + 1 :=
  List.countP_cons_of_pos rfl

@[simp]
theorem finished_edit (editor? : Option Nat) (changes : List (σ → σ)) :
    finished (.edit editor? changes :: noted) = finished noted :=
  List.countP_cons_of_neg Bool.false_ne_true

/-- What replaces turns by turns of the same sort begins no tick. -/
theorem begun_replaceF {f : Turn σ → Option (Turn σ)}
    (hf : ∀ turn turn', f turn = some turn' → turn'.isTick = turn.isTick)
    (turns : List (Turn σ)) : begun (turns.replaceF f) = begun turns := by
  unfold begun
  induction turns with
  | nil => rfl
  | cons turn turns ih =>
    rw [List.replaceF]
    cases hturn : f turn with
    | none =>
      dsimp only
      rw [List.countP_cons, List.countP_cons, ih]
    | some turn' =>
      dsimp only
      rw [List.countP_cons, List.countP_cons, hf turn turn' hturn]

theorem isTick_finish? {turn turn' : Turn σ} {now : Instant} (h : turn.finish? now = some turn') :
    turn'.isTick = turn.isTick := by
  unfold finish? at h
  split at h
  · cases h
    rfl
  · cases h

theorem isTick_change? {turn turn' : Turn σ} {editor : Nat} {f : σ → σ}
    (h : turn.change? editor f = some turn') : turn'.isTick = turn.isTick := by
  unfold change? at h
  split at h
  · obtain ⟨-, hchanged⟩ := Option.ite_none_right_eq_some.mp h
    cases hchanged
    rfl
  · cases h

@[simp]
theorem applyAll_append_singleton (turns : List (Turn σ)) (turn : Turn σ) :
    applyAll tick start (turns ++ [turn]) = turn.apply tick (applyAll tick start turns) :=
  List.foldl_append

@[simp]
theorem apply_change (editor? : Option Nat) (changes : List (σ → σ)) (f : σ → σ) (s : σ) :
    apply tick s (.edit editor? (changes ++ [f])) = f (apply tick s (.edit editor? changes)) :=
  List.foldl_append

end Turn

namespace Timer

variable {σ : Type} {tick : Instant → σ → σ} {start : σ} {t t' : Timer σ} {noted : List (Turn σ)}
  {now : Instant} {step : Step σ}

/--
The turns, the newest first, after a step from a state: whoever takes the lock begins a turn, a
change belongs to the newest turn of its editor, and the worker carries out the tick it has begun.
-/
def note (t : Timer σ) (noted : List (Turn σ)) (now : Instant) : Step σ → List (Turn σ)
  | .worker =>
    match t.worker with
    | .locking => .tick none :: noted
    | .ticking => noted.replaceF (Turn.finish? now)
    | _ => noted
  | .lock editor => .edit (some editor) [] :: noted
  | .change editor f => noted.replaceF (Turn.change? editor f)
  | .edit f => .edit none [f] :: noted
  | .unlock _ | .cancel | .join => noted

/-- The turns, the newest first, after some steps; a step that cannot happen ends them. -/
def journal (tick : Instant → σ → σ) (t : Timer σ) (noted : List (Turn σ)) :
    List (Instant × Step σ) → List (Turn σ)
  | [] => noted
  | (now, step) :: steps =>
    match t.next? (tick now) step with
    | some t' => journal tick t' (t.note noted now step) steps
    | none => noted

/-- The turns of a run from the start, in the order in which the lock was taken. -/
def turns (tick : Instant → σ → σ) (start : σ) (steps : List (Instant × Step σ)) : List (Turn σ) :=
  (journal tick { shared := start } [] steps).reverse

/-! ## Runs -/

theorem runAt?_cons_eq_some_iff {steps : List (Instant × Step σ)} :
    t.runAt? tick ((now, step) :: steps) = some t' ↔
      ∃ middle, t.next? (tick now) step = some middle ∧ middle.runAt? tick steps = some t' :=
  Option.bind_eq_some_iff

/--
What every step keeps of a timer and its turns, the newest first, is kept by a whole run.
-/
theorem runAt?_invariant {P : Timer σ → List (Turn σ) → Prop} (noted : List (Turn σ))
    (hstep : ∀ t t' noted now step, P t noted → t.next? (tick now) step = some t' →
      P t' (t.note noted now step))
    {steps : List (Instant × Step σ)} (h : P t noted) (hrun : t.runAt? tick steps = some t') :
    P t' (journal tick t noted steps) := by
  -- on the steps still to come; what was noted so far goes along
  induction steps generalizing t noted with
  | nil =>
    obtain rfl := Option.some.inj hrun
    exact h
  | cons first steps ih =>
    obtain ⟨now, step⟩ := first
    obtain ⟨middle, hnext, hrest⟩ := runAt?_cons_eq_some_iff.mp hrun
    rw [journal, hnext]
    exact ih _ (hstep _ _ _ _ _ h hnext) hrest

theorem journal_append {before : List (Instant × Step σ)} (hrun : t.runAt? tick before = some t')
    (later : List (Instant × Step σ)) :
    journal tick t noted (before ++ later) =
      journal tick t' (journal tick t noted before) later := by
  induction before generalizing t noted with
  | nil =>
    obtain rfl := Option.some.inj hrun
    rfl
  | cons first before ih =>
    obtain ⟨now, step⟩ := first
    obtain ⟨middle, hnext, hrest⟩ := runAt?_cons_eq_some_iff.mp hrun
    rw [List.cons_append, journal, journal, hnext]
    exact ih hrest

/-! ## The books of a timer -/

/-- How a timer and its turns, the newest first, hang together at every moment of a run. -/
structure Accounted (tick : Instant → σ → σ) (start : σ) (t : Timer σ) (noted : List (Turn σ)) :
    Prop where
  /-- The worker has the lock in two phases of its loop and in no other. -/
  exclusive : t.lock = some .worker ↔ t.worker = .ticking ∨ t.worker = .unlocking
  /-- The tick that the worker is about to carry out is the newest turn. -/
  ticking : t.worker = .ticking → ∃ older, noted = .tick none :: older
  /-- The turn of the editor that has the lock is the newest. -/
  editing : ∀ editor, t.lock = some (.editor editor) →
    ∃ changes older, noted = .edit (some editor) changes :: older
  begun : Turn.begun noted = Turn.finished noted + if t.worker = .ticking then 1 else 0
  /-- The count, of which the counter has the last 64 bits, lags by the tick not counted yet. -/
  counted : ∃ count, t.ticks.toNat = count % UInt64.size ∧
    Turn.finished noted = count + if t.worker = .unlocking ∨ t.worker = .counting then 1 else 0
  shared : t.shared = Turn.applyAll tick start noted.reverse
  /-- Whoever waits for the worker has told it to stop. -/
  told : t.stop ≠ .running → t.cancelled = true
  stopped : ∀ n, t.stop = .stopped n → t.worker = .ended ∧ t.ticks.toNat = n

namespace Accounted

/-- Outside its turn the worker goes from phase to phase without a trace. -/
theorem move (h : Accounted tick start t noted) {phase : WorkerPhase}
    (hrunning : t.worker ≠ .ended)
    (hfrom : t.worker ≠ .ticking ∧ t.worker ≠ .unlocking ∧ t.worker ≠ .counting)
    (hto : phase ≠ .ticking ∧ phase ≠ .unlocking ∧ phase ≠ .counting) :
    Accounted tick start { t with worker := phase } noted where
  exclusive := by simpa [hfrom, hto] using h.exclusive
  ticking hticking := absurd hticking hto.1
  editing := h.editing
  begun := by simpa [hfrom, hto] using h.begun
  counted := by simpa [hfrom, hto] using h.counted
  shared := h.shared
  told := h.told
  stopped n hstop := absurd (h.stopped n hstop).1 hrunning

theorem work (h : Accounted tick start t noted) (hnext : t.work? (tick now) = some t') :
    Accounted tick start t' (t.note noted now .worker) := by
  have hbegun := h.begun
  have hcounted := h.counted
  cases hphase : t.worker with
  | testing =>
    simp only [work?, note, hphase, Option.some.injEq] at hnext ⊢
    subst hnext
    exact h.move (by simp [hphase]) (by simp [hphase]) (by split <;> simp)
  | locking =>
    simp only [work?, note, hphase, Option.ite_none_right_eq_some, Option.some.injEq] at hnext ⊢
    obtain ⟨hfree, rfl⟩ := hnext
    -- the turn is the newest, and so far it does nothing
    exact {
      exclusive := by simp
      ticking := fun _ => ⟨noted, rfl⟩
      editing := by simp
      begun := by simpa [hphase] using hbegun
      counted := by simpa [hphase] using hcounted
      shared := by simpa [Turn.apply] using h.shared
      told := h.told
      stopped := fun n hstop => by simpa [hphase] using h.stopped n hstop }
  | ticking =>
    simp only [work?, note, hphase, Option.some.injEq] at hnext ⊢
    obtain ⟨older, rfl⟩ := h.ticking hphase
    subst hnext
    have hlock : t.lock = some .worker := h.exclusive.mpr (.inl hphase)
    -- nobody took the lock since, so the tick carried out is the newest turn
    have hdone : (Turn.tick none :: older).replaceF (Turn.finish? now) =
        .tick (some now) :: older := by
      simp [Turn.finish?]
    rw [hdone]
    exact {
      exclusive := by simpa using hlock
      ticking := by simp
      editing := by simp [hlock]
      begun := by simpa [hphase] using hbegun
      counted := by simpa [hphase] using hcounted
      shared := by simp [h.shared, Turn.apply]
      told := h.told
      stopped := fun n hstop => by simpa [hphase] using h.stopped n hstop }
  | unlocking =>
    simp only [work?, note, hphase, Option.some.injEq] at hnext ⊢
    subst hnext
    exact {
      exclusive := by simp
      ticking := by simp
      editing := by simp
      begun := by simpa [hphase] using hbegun
      counted := by simpa [hphase] using hcounted
      shared := h.shared
      told := h.told
      stopped := fun n hstop => by simpa [hphase] using h.stopped n hstop }
  | counting =>
    simp only [work?, note, hphase, Option.some.injEq] at hnext ⊢
    subst hnext
    -- the count catches up with the tick carried out before, and the counter with its last bits
    obtain ⟨count, hticks, hfinished⟩ := hcounted
    have hcounter : (t.ticks + 1).toNat = (count + 1) % UInt64.size := by
      rw [UInt64.toNat_add, hticks]
      exact Nat.mod_add_mod count UInt64.size 1
    exact {
      exclusive := by simpa [hphase] using h.exclusive
      ticking := by simp
      editing := h.editing
      begun := by simpa [hphase] using hbegun
      counted := ⟨count + 1, hcounter, by simpa [hphase] using hfinished⟩
      shared := h.shared
      told := h.told
      stopped := fun n hstop => by simpa [hphase] using h.stopped n hstop }
  | sleeping =>
    simp only [work?, note, hphase, Option.some.injEq] at hnext ⊢
    subst hnext
    exact h.move (by simp [hphase]) (by simp [hphase]) (by simp)
  | ended => simp [work?, hphase] at hnext

theorem next (h : Accounted tick start t noted) (hnext : t.next? (tick now) step = some t') :
    Accounted tick start t' (t.note noted now step) := by
  -- a free lock finds the worker outside its turn
  have hout : t.lock = none → ¬ (t.worker = .ticking ∨ t.worker = .unlocking) := by
    intro hfree
    rw [← h.exclusive, hfree]
    simp
  cases step with
  | worker => exact h.work hnext
  | lock editor =>
    simp only [next?, note, Option.ite_none_right_eq_some, Option.some.injEq] at hnext ⊢
    obtain ⟨hfree, rfl⟩ := hnext
    refine { h with exclusive := ?_, ticking := ?_, editing := ?_, shared := ?_ }
    · simpa using hout hfree
    · exact fun hticking => absurd (.inl hticking) (hout hfree)
    · rintro _ ⟨⟩
      exact ⟨[], noted, rfl⟩
    · simpa [Turn.apply] using h.shared
  | change editor f =>
    simp only [next?, note, Option.ite_none_right_eq_some, Option.some.injEq] at hnext ⊢
    obtain ⟨hheld, rfl⟩ := hnext
    -- the editor has had the lock since its turn began, so it changes the newest turn
    obtain ⟨changes, older, rfl⟩ := h.editing editor hheld
    have hchanged : (Turn.edit (some editor) changes :: older).replaceF (Turn.change? editor f) =
        .edit (some editor) (changes ++ [f]) :: older := by
      simp [Turn.change?]
    rw [hchanged]
    refine { h with ticking := ?_, editing := ?_, begun := ?_, counted := ?_, shared := ?_ }
    · intro hticking
      simpa using h.ticking hticking
    · intro other hother
      obtain rfl : editor = other := by simpa [hheld] using hother
      exact ⟨_, older, rfl⟩
    · simpa using h.begun
    · simpa using h.counted
    · simp [h.shared]
  | unlock editor =>
    simp only [next?, note, Option.ite_none_right_eq_some, Option.some.injEq] at hnext ⊢
    obtain ⟨hheld, rfl⟩ := hnext
    refine { h with exclusive := ?_, editing := fun _ hno => nomatch hno }
    rw [← h.exclusive, hheld]
    simp
  | edit f =>
    simp only [next?, note, Option.ite_none_right_eq_some, Option.some.injEq] at hnext ⊢
    obtain ⟨hfree, rfl⟩ := hnext
    refine { h with ticking := ?_, editing := ?_, begun := ?_, counted := ?_, shared := ?_ }
    · exact fun hticking => absurd (.inl hticking) (hout hfree)
    · exact fun editor hheld => by simp [hfree] at hheld
    · simpa using h.begun
    · simpa using h.counted
    · simp [h.shared, Turn.apply]
  | cancel =>
    simp only [next?, note, Option.ite_none_right_eq_some, Option.some.injEq] at hnext ⊢
    obtain ⟨-, rfl⟩ := hnext
    exact { h with told := fun _ => rfl, stopped := fun n hno => nomatch hno }
  | join =>
    simp only [next?, note, Option.ite_none_right_eq_some, Option.some.injEq] at hnext ⊢
    obtain ⟨⟨hwaiting, hended⟩, rfl⟩ := hnext
    refine { h with told := fun _ => h.told ?_, stopped := ?_ }
    · rw [hwaiting]
      exact StopPhase.noConfusion
    · rintro _ ⟨⟩
      exact ⟨hended, rfl⟩

end Accounted

theorem accounted_start : Accounted tick start { shared := start } [] where
  exclusive := by simp
  ticking := nofun
  editing := nofun
  begun := rfl
  counted := ⟨0, rfl, rfl⟩
  shared := rfl
  told := fun h => absurd rfl h
  stopped := nofun

theorem accounted_journal {steps : List (Instant × Step σ)}
    (hrun : ({ shared := start } : Timer σ).runAt? tick steps = some t) :
    Accounted tick start t (journal tick { shared := start } [] steps) :=
  runAt?_invariant [] (fun _ _ _ _ _ h hnext => h.next hnext) accounted_start hrun

/-! ## Stopping -/

theorem work?_frame {f : σ → σ} (hnext : t.work? f = some t') :
    t'.cancelled = t.cancelled ∧ t'.stop = t.stop := by
  unfold work? at hnext
  split at hnext <;> grind

/-- An answer that was given stands. -/
theorem stopped_next {f : σ → σ} {n : Nat} (hstop : t.stop = .stopped n)
    (hnext : t.next? f step = some t') : t'.stop = .stopped n := by
  cases step with
  | worker => exact (work?_frame hnext).2.trans hstop
  | lock _ | change _ _ | unlock _ | edit _ =>
    obtain ⟨-, hafter⟩ := Option.ite_none_right_eq_some.mp hnext
    obtain rfl := Option.some.inj hafter
    exact hstop
  | cancel =>
    obtain ⟨hrunning, -⟩ := Option.ite_none_right_eq_some.mp hnext
    exact nomatch hrunning.symm.trans hstop
  | join =>
    obtain ⟨⟨hwaiting, -⟩, -⟩ := Option.ite_none_right_eq_some.mp hnext
    exact nomatch hwaiting.symm.trans hstop

/-- The worker begins a tick when it takes the lock, and nobody else begins any. -/
theorem begun_note_worker :
    Turn.begun (t.note noted now .worker) =
      Turn.begun noted + if t.worker = .locking then 1 else 0 := by
  unfold note
  cases t.worker with
  | locking => exact Turn.begun_tick none
  | ticking => exact Turn.begun_replaceF (fun _ _ => Turn.isTick_finish?) noted
  | testing | unlocking | counting | sleeping | ended => rfl

theorem begun_note_change (editor : Nat) (f : σ → σ) :
    Turn.begun (t.note noted now (.change editor f)) = Turn.begun noted :=
  Turn.begun_replaceF (fun _ _ => Turn.isTick_change?) noted

/--
How many ticks the worker will have begun when it looks again whether it is to stop: those that it
has begun, and one if it waits for the lock.
-/
def allowance (t : Timer σ) (noted : List (Turn σ)) : Nat :=
  Turn.begun noted + if t.worker = .locking then 1 else 0

theorem allowance_work? {f : σ → σ} (hcancelled : t.cancelled = true)
    (hnext : t.work? f = some t') : t'.allowance (t.note noted now .worker) = t.allowance noted := by
  have hafter : t'.worker ≠ .locking := by
    unfold work? at hnext
    split at hnext <;> grind
  rw [allowance, allowance, begun_note_worker, if_neg hafter, Nat.add_zero]

/-- A worker that was told to stop begins no other round. -/
theorem cancelled_next {f : σ → σ} (hcancelled : t.cancelled = true)
    (hnext : t.next? f step = some t') :
    t'.cancelled = true ∧ t'.allowance (t.note noted now step) = t.allowance noted := by
  cases step with
  | worker =>
    exact ⟨(work?_frame hnext).1.trans hcancelled, allowance_work? hcancelled hnext⟩
  | lock _ | edit _ =>
    obtain ⟨-, hafter⟩ := Option.ite_none_right_eq_some.mp hnext
    obtain rfl := Option.some.inj hafter
    exact ⟨hcancelled, congrArg (· + _) (Turn.begun_edit _ _)⟩
  | change editor g =>
    obtain ⟨-, hafter⟩ := Option.ite_none_right_eq_some.mp hnext
    obtain rfl := Option.some.inj hafter
    exact ⟨hcancelled, congrArg (· + _) (begun_note_change editor g)⟩
  | unlock _ | join =>
    obtain ⟨-, hafter⟩ := Option.ite_none_right_eq_some.mp hnext
    obtain rfl := Option.some.inj hafter
    exact ⟨hcancelled, rfl⟩
  | cancel =>
    obtain ⟨-, hafter⟩ := Option.ite_none_right_eq_some.mp hnext
    obtain rfl := Option.some.inj hafter
    exact ⟨rfl, rfl⟩

theorem cancelled_runAt? {steps : List (Instant × Step σ)} (hcancelled : t.cancelled = true)
    (hrun : t.runAt? tick steps = some t') :
    t'.allowance (journal tick t noted steps) = t.allowance noted := by
  have hkept : t'.cancelled = true ∧
      t'.allowance (journal tick t noted steps) = t.allowance noted := by
    refine runAt?_invariant
      (P := fun u later => u.cancelled = true ∧ u.allowance later = t.allowance noted) noted
      ?_ ⟨hcancelled, rfl⟩ hrun
    intro u u' _ now step hu hnext
    obtain ⟨hcancelled', hsame⟩ := cancelled_next hu.1 hnext
    exact ⟨hcancelled', hsame.trans hu.2⟩
  exact hkept.2

theorem stopped_runAt? {steps : List (Instant × Step σ)} {n : Nat} (hstop : t.stop = .stopped n)
    (hrun : t.runAt? tick steps = some t') : t'.stop = .stopped n :=
  runAt?_invariant (P := fun u _ => u.stop = .stopped n) []
    (fun _ _ _ _ _ hu hnext => stopped_next hu hnext) hstop hrun

/-! ## What a run amounts to -/

/--
A timer is started on a state and goes through some steps, and later through some more. Then it has
counted all the ticks that were carried out, or all but the last; its counter has 64 bits, and is
exact as long as they suffice. If it was told to stop by then, the worker begins no more than one
tick later on. If it was stopped by then, the answer is the number of ticks that were carried out,
as far as the counter goes, and later no tick is begun. And the shared state is what all turns make
of the first state, one whole turn after the other, in the order in which the lock was taken.
-/
theorem accounting {before later : List (Instant × Step σ)}
    (hbefore : ({ shared := start } : Timer σ).runAt? tick before = some t)
    (hlater : t.runAt? tick later = some t') :
    let done := Turn.finished (turns tick start before)
    ((∃ count, t.ticks.toNat = count % UInt64.size ∧ (count = done ∨ count + 1 = done)) ∧
      (done < UInt64.size → t.ticks.toNat = done ∨ t.ticks.toNat + 1 = done)) ∧
    (t.cancelled = true →
      Turn.begun (turns tick start (before ++ later)) ≤
        Turn.begun (turns tick start before) + 1) ∧
    (∀ n, t.stop = .stopped n →
      n = done % UInt64.size ∧ (done < UInt64.size → n = done) ∧
        Turn.begun (turns tick start (before ++ later)) = done ∧ t'.stop = .stopped n) ∧
    t.shared = Turn.applyAll tick start (turns tick start before) := by
  have hnow := accounted_journal hbefore
  have hlast : Accounted tick start t' (journal tick { shared := start } [] (before ++ later)) := by
    rw [journal_append hbefore]
    exact runAt?_invariant _ (fun _ _ _ _ _ h hnext => h.next hnext) hnow hlater
  simp only [turns, Turn.begun_reverse, Turn.finished_reverse]
  have hallowance (hcancelled : t.cancelled = true) :
      t'.allowance (journal tick { shared := start } [] (before ++ later)) =
        t.allowance (journal tick { shared := start } [] before) := by
    rw [journal_append hbefore]
    exact cancelled_runAt? hcancelled hlater
  obtain ⟨count, hticks, hcount⟩ := hnow.counted
  refine ⟨⟨⟨count, hticks, ?_⟩, fun hfits => ?_⟩, fun hcancelled => ?_, fun n hstop => ?_,
    hnow.shared⟩
  · -- the count lags from the end of a tick until the worker has counted it
    split at hcount <;> omega
  · have hbelow : count < UInt64.size := by omega
    rw [Nat.mod_eq_of_lt hbelow] at hticks
    split at hcount <;> omega
  · have hsame := hallowance hcancelled
    unfold allowance at hsame
    split at hsame <;> split at hsame <;> omega
  · -- a worker that has ended is in no turn, so all that was begun is carried out and counted
    obtain ⟨hended, rfl⟩ := hnow.stopped n hstop
    have hstop' := stopped_runAt? hstop hlater
    have hended' : t'.worker = .ended := (hlast.stopped _ hstop').1
    have hcancelled : t.cancelled = true := by
      apply hnow.told
      rw [hstop]
      exact StopPhase.noConfusion
    have hsame := hallowance hcancelled
    have hbegun := hnow.begun
    simp only [allowance, hended, hended', reduceCtorEq, or_self, if_false, Nat.add_zero]
      at hsame hbegun hcount
    rw [hcount, ← hticks]
    refine ⟨rfl, fun hfits => ?_, hsame.trans (hbegun.trans hcount), hstop'⟩
    rw [hticks, Nat.mod_eq_of_lt hfits]

/--
An editor wires a battery to a memory and gives it a text while the worker waits for the lock, which
it cannot have before. The worker is told to stop in the middle of its only tick, and the patch is
edited once more afterwards.
-/
theorem accounting_edited_and_stopped :
    let tick := fun now (s : Session) => (s.perform (.edit (.tick now))).session
    let perform := fun e (s : Session) => (s.perform (.edit e)).session
    let node := fun (kind : NodeKind) id => Node.ofType kind.nodeType (.ofNat id)
    let start := Session.ofGraph
      { Graph.blank {} (.ofSeed 7) with nodes := [node .battery 1, node .memory 2] }
    let timer : Timer Session := { shared := start }
    let hasty : List (Instant × Step Session) := [(⟨0⟩, .worker), (⟨0⟩, .lock 0), (⟨1⟩, .worker)]
    let before : List (Instant × Step Session) := [
      (⟨0⟩, .worker), (⟨0⟩, .lock 0), (⟨1⟩, .change 0 (perform (.connect (.ofNat 1) (.ofNat 2) 0))),
      (⟨2⟩, .change 0 (perform (.setLiteral (.ofNat 2) 1 (.text "kept")))), (⟨3⟩, .unlock 0),
      (⟨3⟩, .worker), (⟨4⟩, .cancel), (⟨5⟩, .worker), (⟨6⟩, .worker), (⟨7⟩, .worker),
      (⟨8⟩, .worker), (⟨9⟩, .worker), (⟨9⟩, .join)]
    let later : List (Instant × Step Session) :=
      [(⟨10⟩, .edit (perform (.clearInput (.ofNat 2) 0)))]
    let done := Turn.finished (turns tick start before)
    (timer.runAt? tick hasty).isNone ∧
      ∃ t t', timer.runAt? tick before = some t ∧ t.runAt? tick later = some t' ∧
        t.cancelled = true ∧ t.stop = .stopped 1 ∧
        (t.ticks.toNat = done ∨ t.ticks.toNat + 1 = done) ∧
        Turn.begun (turns tick start (before ++ later)) ≤
          Turn.begun (turns tick start before) + 1 ∧
        done = 1 ∧ Turn.begun (turns tick start (before ++ later)) = 1 ∧
        t.shared = Turn.applyAll tick start (turns tick start before) := by
  intro tick perform node start timer hasty before later done
  have hheld : (timer.runAt? tick hasty).isNone := by decide +kernel
  have hruns : (timer.runAt? tick before).bind
      (fun t => (t.runAt? tick later).map fun _ => (t.cancelled, t.stop)) =
        some (true, .stopped 1) := by
    decide +kernel
  obtain ⟨t, hbefore, hrest⟩ := Option.bind_eq_some_iff.mp hruns
  obtain ⟨t', hlater, hphase⟩ := Option.map_eq_some_iff.mp hrest
  obtain ⟨hcancelled, hstop⟩ := Prod.mk.inj hphase
  have hfits : done < UInt64.size := by decide +kernel
  obtain ⟨⟨-, hticks⟩, hbegun, hanswer, hshared⟩ := accounting hbefore hlater
  obtain ⟨-, hdone, hall, -⟩ := hanswer 1 hstop
  exact ⟨hheld, t, t', hbefore, hlater, hcancelled, hstop, hticks hfits, hbegun hcancelled,
    (hdone hfits).symm, hall.trans (hdone hfits).symm, hshared⟩

end Timer

end Patchbay
