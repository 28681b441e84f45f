import Patchbay.Proofs.Graph.Course

/-!
# Cycles

A number cycler remembers when it was turned on, and nothing of how it has been wired or of the
times at which it was on before: how far it is along its range is counted from the first tick of
those, without a break, in which it has been on (`Session.cycles_since_rise`).
-/

namespace Patchbay

theorem Instant.secondsSince_eq_zero {now start : Instant}
    (h : now.nanoseconds ≤ start.nanoseconds) : now.secondsSince start = 0 := by
  rw [secondsSince, Nat.sub_eq_zero_of_le h]
  decide +kernel

/-- What an input read as a number. -/
def Sample.number (x : Sample) (index : Nat) : Double := (inputAt x.inputs index).toNumber

/-- The value of a cycler that has been on since some time. -/
def Sample.wrapped (x : Sample) (since : Instant) : Double :=
  x.number 1 + x.now.secondsSince since * x.number 3 % (x.number 2 - x.number 1)

theorem NodeKind.next_numberCycler (x : Sample) (draws : Random) (before : Value × NodeState) :
    NodeKind.numberCycler.next x draws before =
      if x.isOn then
        let started := before.2.cycleStarted.getD x.now
        (.number (x.wrapped started), { before.2 with cycleStarted := some started })
      else (.number 0, { before.2 with cycleStarted := none }) := by
  change NodeKind.cycle x.inputs x.now before.2 = _
  unfold NodeKind.cycle
  cases hon : x.isOn
  · exact if_neg (by rw [← Sample.isOn, hon]; decide)
  · exact if_pos hon

/-- The timer runs since the tick that turned the node on, and not while it is off. -/
def Timed (xs : List Sample) (k : Nat) (state : NodeState) : Prop :=
  match state.cycleStarted with
  | none => onAt xs k = false
  | some started => ∃ first, OnSince xs k first ∧ first.now = started

section

variable {xs : List Sample} {k : Nat}

theorem Timed.next {before : Value × NodeState} (h : Timed xs k before.2) {x : Sample}
    (hx : xs[k]? = some x) (draws : Random) :
    Timed xs (k + 1) (NodeKind.numberCycler.next x draws before).2 := by
  rw [NodeKind.next_numberCycler]
  cases hon : x.isOn with
  | false => exact (onAt_succ hx).trans hon
  | true =>
    unfold Timed at h
    cases hstarted : before.2.cycleStarted with
    | none =>
      -- turned on in this very tick
      rw [hstarted] at h
      exact ⟨x, onSince_self hx hon h, rfl⟩
    | some started =>
      rw [hstarted] at h
      obtain ⟨first, hfirst, rfl⟩ := h
      exact ⟨first, hfirst.succ ((onAt_succ hx).trans hon), rfl⟩

/-- What a cycler shows and remembers after a tick. -/
theorem NodeKind.Course.cycled {final : Value × NodeState}
    (h : NodeKind.numberCycler.Course (.unset, {}) xs final) {x : Sample} (hx : xs[k]? = some x) :
    (x.isOn = false → x.state.cycleStarted = none ∧ x.output = .number 0) ∧
      (x.isOn = true → ∃ first, OnSince xs (k + 1) first ∧
        x.state.cycleStarted = some first.now ∧ x.output = .number (x.wrapped first.now)) := by
  have hstart : Timed xs 0 {} := rfl
  obtain ⟨htimed, before, draws, hleft⟩ :=
    h.carried (P := fun k left => Timed xs k left.2) hstart
      (fun _ _ _ draws hx hbefore => hbefore.next hx draws) hx
  rw [NodeKind.next_numberCycler] at hleft
  refine ⟨fun hoff => ?_, fun hon => ?_⟩
  · rw [hoff] at hleft
    obtain ⟨houtput, hstate⟩ := Prod.mk.inj hleft
    exact ⟨congrArg NodeState.cycleStarted hstate, houtput⟩
  · rw [hon] at hleft
    obtain ⟨houtput, hstate⟩ := Prod.mk.inj hleft
    have hstarted : x.state.cycleStarted = _ := congrArg NodeState.cycleStarted hstate
    change Timed xs (k + 1) x.state at htimed
    rw [Timed, hstarted] at htimed
    obtain ⟨first, hfirst, hnow⟩ := htimed
    refine ⟨first, hfirst, ?_, ?_⟩
    · rw [hstarted, hnow]
    · rw [houtput, hnow]

end

/--
A number cycler that has not been evaluated yet is 0 after each tick in which it is off, and its
timer is clear. After one in which it is on the timer holds the time of the tick that turned it on,
and its output is as far along the range of that tick as it gets in the seconds since then, none if
the clock has gone backwards. Between ticks timer and output stay, whatever is edited.
-/
theorem Session.cycles_since_rise {s : Session} (hg : s.graph.Reachable) {id : NodeId} {n : Node}
    (hn : s.graph.node? id = some n) (hkind : n.kind = .numberCycler) (hfresh : n.Fresh)
    {actions : List Action} (hkept : s.Keeps id actions) :
    let xs := s.samples id actions
    xs.map (·.now) = actions.filterMap Action.tickTime? ∧
      (∀ k x, xs[k]? = some x →
        (x.isOn = false → x.state.cycleStarted = none ∧ x.output = .number 0) ∧
        (x.isOn = true → ∃ first, OnSince xs (k + 1) first ∧
          x.state.cycleStarted = some first.now ∧
          x.output = .number (x.wrapped first.now) ∧
          (x.now.nanoseconds ≤ first.now.nanoseconds → x.now.secondsSince first.now = 0))) ∧
      ∃ m, (s.run actions).graph.node? id = some m ∧
        (m.output, m.state) = (xs.getLast?.map Sample.left).getD (.unset, {}) := by
  intro xs
  obtain ⟨htimes, m, hm, hcourse⟩ := Session.course_samples hg.sound hn hkept
  rw [hkind, hfresh.output, hfresh.state] at hcourse
  refine ⟨htimes, fun k x hx => ?_, m, hm, hcourse.final_eq⟩
  obtain ⟨hoff, hon⟩ := hcourse.cycled hx
  refine ⟨hoff, fun h => ?_⟩
  obtain ⟨first, hfirst, hstarted, houtput⟩ := hon h
  exact ⟨first, hfirst, hstarted, houtput, Instant.secondsSince_eq_zero⟩

/--
A cycler is on from second 10 to second 12.5, then its rate is changed and the clock goes back, it
is turned off and on again. The timer is set twice.
-/
theorem Session.cycles_since_rise_twice :
    let cycler := Node.ofType NodeKind.numberCycler.nodeType (.ofNat 1)
    let s := (Session.ofGraph (.blank {} (.ofSeed 5))).run [.edit (.add cycler)]
    let set (index : Nat) (v : Value) := Action.edit (.setLiteral cycler.id index v)
    let tickAt (milliseconds : Nat) := Action.edit (.tick ⟨milliseconds * 1000000⟩)
    let actions :=
      [set 0 (.bool true), set 1 (.number 0), set 2 (.number 1), set 3 (.number (1 / 2)),
        tickAt 10000, tickAt 12500, set 3 (.number 2), tickAt 9000, set 0 .unset, tickAt 13000,
        set 0 (.text "on"), tickAt 20000, tickAt 20250, set 3 (.number 7)]
    let xs := s.samples cycler.id actions
    s.graph.Reachable ∧ s.graph.node? cycler.id = some cycler ∧ cycler.Fresh ∧
      s.Keeps cycler.id actions ∧
      xs.map (·.state.cycleStarted) = [some ⟨10000000000⟩, some ⟨10000000000⟩,
        some ⟨10000000000⟩, none, some ⟨20000000000⟩, some ⟨20000000000⟩] ∧
      xs.map (·.output) =
        [.number 0, .number (1 / 4), .number 0, .number 0, .number 0, .number (1 / 2)] ∧
      ∃ m, (s.run actions).graph.node? cycler.id = some m ∧ m.output = .number (1 / 2) := by
  intro cycler s set tickAt actions xs
  have hg : s.graph.Reachable := ⟨_, _, _, rfl⟩
  have hn : s.graph.node? cycler.id = some cycler := by decide +kernel
  have hfresh : cycler.Fresh := Node.fresh_ofType _ _
  have hkept : s.Keeps cycler.id actions := by decide +kernel
  obtain ⟨-, -, m, hm, hleft⟩ := cycles_since_rise hg hn rfl hfresh hkept
  have houtput : m.output = _ := congrArg Prod.fst hleft
  exact ⟨hg, hn, hfresh, hkept, by decide +kernel, by decide +kernel, m, hm,
    houtput.trans (by decide +kernel)⟩

end Patchbay
