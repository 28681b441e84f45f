import Patchbay.Proofs.Graph.Course

/-!
# Pulses

A pulsifier remembers whether its input was on in the last tick, so that it sends one pulse each
time that the input turns on, however long it stays on and whatever is edited in the meantime
(`Session.pulses_on_rise`).
-/

namespace Patchbay

/-- What a pulsifier shows after the tick of a number, which counts from one. -/
def pulseAt (xs : List Sample) (k : Nat) : Value :=
  if risesAt xs k then .bool true
  else if ∃ j < k, risesAt xs j = true then .bool false
  else .unset

theorem NodeKind.pulse_eq (on : Bool) (output : Value) (state : NodeState) :
    pulse on output state =
      (if on && !state.wasTriggered then .bool true
        else if state.wasTriggered then .bool false else output,
        { state with wasTriggered := on }) := by
  obtain ⟨wasTriggered, cycleStarted⟩ := state
  cases on <;> cases wasTriggered <;> rfl

theorem NodeKind.next_pulsifier (x : Sample) (draws : Random) (before : Value × NodeState) :
    NodeKind.pulsifier.next x draws before =
      (if x.isOn && !before.2.wasTriggered then .bool true
        else if before.2.wasTriggered then .bool false else before.1,
        { before.2 with wasTriggered := x.isOn }) := pulse_eq x.isOn before.1 before.2

section

variable {xs : List Sample} {k : Nat}

theorem pulseAt_eq_true_iff : pulseAt xs k = .bool true ↔ risesAt xs k = true := by
  unfold pulseAt
  split
  · exact iff_of_true rfl ‹_›
  · split <;> exact iff_of_false nofun ‹_›

theorem pulseAt_zero (xs : List Sample) : pulseAt xs 0 = .unset := by
  have hnone : ¬∃ j < 0, risesAt xs j = true := fun ⟨_, hj, _⟩ => Nat.not_lt_zero _ hj
  rw [pulseAt, if_neg hnone]
  rfl

theorem pulseAt_succ (xs : List Sample) (k : Nat) :
    pulseAt xs (k + 1) =
      if onAt xs (k + 1) && !onAt xs k then .bool true
      else if onAt xs k then .bool false
      else pulseAt xs k := by
  change (if onAt xs (k + 1) && !onAt xs k then _ else _) = _
  refine ite_congr rfl (fun _ => rfl) fun _ => ?_
  cases hon : onAt xs k with
  | true =>
    obtain ⟨first, j, hj, -, hrise, -⟩ := exists_onSince hon
    exact if_pos ⟨j + 1, Nat.succ_lt_succ hj, hrise⟩
  | false =>
    have hflat : risesAt xs k = false := by rw [risesAt, hon, Bool.false_and]
    -- the last tick adds nothing to those before
    have hearlier : (∃ j < k + 1, risesAt xs j = true) ↔ ∃ j < k, risesAt xs j = true := by
      constructor
      · rintro ⟨j, hj, hrise⟩
        refine ⟨j, Nat.lt_of_le_of_ne (Nat.le_of_lt_succ hj) ?_, hrise⟩
        rintro rfl
        rw [hflat] at hrise
        cases hrise
      · rintro ⟨j, hj, hrise⟩
        exact ⟨j, Nat.lt_succ_of_lt hj, hrise⟩
    rw [if_neg Bool.false_ne_true, pulseAt, hflat, if_neg Bool.false_ne_true]
    exact if_congr hearlier rfl rfl

/-- The latch is what the input was in the last tick, and the output is the pulse of that tick. -/
def Latched (xs : List Sample) (k : Nat) (left : Value × NodeState) : Prop :=
  left.1 = pulseAt xs k ∧ left.2.wasTriggered = onAt xs k

theorem Latched.next {before : Value × NodeState} (h : Latched xs k before) {x : Sample}
    (hx : xs[k]? = some x) (draws : Random) :
    Latched xs (k + 1) (NodeKind.pulsifier.next x draws before) := by
  obtain ⟨houtput, hlatch⟩ := h
  rw [NodeKind.next_pulsifier]
  refine ⟨?_, (onAt_succ hx).symm⟩
  rw [pulseAt_succ, onAt_succ hx, ← hlatch, ← houtput]

theorem NodeKind.Course.output_eq_pulseAt {final : Value × NodeState}
    (h : NodeKind.pulsifier.Course (.unset, {}) xs final) {x : Sample} (hx : xs[k]? = some x) :
    x.output = pulseAt xs (k + 1) := by
  have hstart : Latched xs 0 (.unset, {}) := ⟨(pulseAt_zero xs).symm, rfl⟩
  obtain ⟨⟨houtput, -⟩, -⟩ :=
    h.carried hstart (fun _ _ _ draws hx hbefore => hbefore.next hx draws) hx
  exact houtput

end

theorem countP_eq_countP_range {α : Type} {xs : List α} {p : α → Bool} {q : Nat → Bool}
    (h : ∀ k x, xs[k]? = some x → p x = q k) :
    xs.countP p = (List.range xs.length).countP q := by
  have hmap : xs.map p = (List.range xs.length).map q := by
    apply List.ext_getElem?
    intro k
    rw [List.getElem?_map, List.getElem?_map]
    cases hx : xs[k]? with
    | none =>
      have hlen := List.getElem?_eq_none_iff.mp hx
      rw [List.getElem?_eq_none (by simpa using hlen)]
      rfl
    | some x =>
      have hlen : k < xs.length := (List.getElem?_eq_some_iff.mp hx).1
      rw [List.getElem?_range hlen, Option.map_some, Option.map_some, h k x hx]
  have hcount := congrArg (List.countP id) hmap
  rwa [List.countP_map, List.countP_map] at hcount

/--
A pulsifier that has not been evaluated yet is true after exactly those ticks in which its input
turned on, unset until the first of them and false after every other tick, and between ticks its
output stays. So it is never true after two ticks in a row, and it is true as often as its input
turned on.
-/
theorem Session.pulses_on_rise {s : Session} (hg : s.graph.Reachable) {id : NodeId} {n : Node}
    (hn : s.graph.node? id = some n) (hkind : n.kind = .pulsifier) (hfresh : n.Fresh)
    {actions : List Action} (hkept : s.Keeps id actions) :
    let xs := s.samples id actions
    xs.map (·.now) = actions.filterMap Action.tickTime? ∧
      (∀ k x, xs[k]? = some x → x.output = pulseAt xs (k + 1)) ∧
      (∃ m, (s.run actions).graph.node? id = some m ∧
        (m.output, m.state) = (xs.getLast?.map Sample.left).getD (.unset, {})) ∧
      (∀ (k : Nat) (x y : Sample), xs[k]? = some x → xs[k + 1]? = some y →
        x.output = .bool true → y.output ≠ .bool true) ∧
      xs.countP (·.output = .bool true) =
        (List.range xs.length).countP fun k => risesAt xs (k + 1) := by
  intro xs
  obtain ⟨htimes, m, hm, hcourse⟩ := Session.course_samples hg.sound hn hkept
  rw [hkind, hfresh.output, hfresh.state] at hcourse
  have houtput : ∀ k x, xs[k]? = some x → x.output = pulseAt xs (k + 1) :=
    fun k x hx => hcourse.output_eq_pulseAt hx
  refine ⟨htimes, houtput, ⟨m, hm, hcourse.final_eq⟩, ?_, ?_⟩
  · intro k x y hx hy hpulse hagain
    rw [houtput k x hx, pulseAt_eq_true_iff, risesAt, Bool.and_eq_true] at hpulse
    rw [houtput _ y hy, pulseAt_eq_true_iff, risesAt, Bool.and_eq_true, Nat.add_sub_cancel,
      hpulse.1] at hagain
    exact absurd hagain.2 Bool.false_ne_true
  · apply countP_eq_countP_range
    intro k x hx
    rw [houtput k x hx, Bool.eq_iff_iff, decide_eq_true_eq]
    exact pulseAt_eq_true_iff

/--
A pulsifier is wired to a battery, renamed, unwired and turned on by hand between the ticks. It
pulses twice.
-/
theorem Session.pulses_on_rise_rewired :
    let pulsifier := Node.ofType NodeKind.pulsifier.nodeType (.ofNat 1)
    let battery := Node.ofType NodeKind.battery.nodeType (.ofNat 2)
    let s := (Session.ofGraph (.blank {} (.ofSeed 5))).run
      [.edit (.add pulsifier), .edit (.add battery)]
    let actions := [.edit (.tick ⟨0⟩), .edit (.connect battery.id pulsifier.id 0),
      .edit (.tick ⟨1⟩), .edit (.rename pulsifier.id "p"), .edit (.tick ⟨2⟩),
      .edit (.clearInput pulsifier.id 0), .edit (.tick ⟨3⟩),
      .edit (.setLiteral pulsifier.id 0 (.text "on")), .edit (.tick ⟨4⟩),
      .edit (.select battery.id)]
    let xs := s.samples pulsifier.id actions
    s.graph.Reachable ∧ s.graph.node? pulsifier.id = some pulsifier ∧ pulsifier.Fresh ∧
      s.Keeps pulsifier.id actions ∧
      xs.map (·.now) = [⟨0⟩, ⟨1⟩, ⟨2⟩, ⟨3⟩, ⟨4⟩] ∧
      xs.map (·.output) = [.unset, .bool true, .bool false, .bool false, .bool true] ∧
      xs.countP (·.output = .bool true) = 2 := by
  intro pulsifier battery s actions xs
  have hg : s.graph.Reachable := ⟨_, _, _, rfl⟩
  have hn : s.graph.node? pulsifier.id = some pulsifier := by decide +kernel
  have hfresh : pulsifier.Fresh := Node.fresh_ofType _ _
  have hkept : s.Keeps pulsifier.id actions := by decide +kernel
  obtain ⟨htimes, -, -, -, hcount⟩ := pulses_on_rise hg hn rfl hfresh hkept
  exact ⟨hg, hn, hfresh, hkept, htimes, by decide +kernel,
    hcount.trans (by decide +kernel)⟩

end Patchbay
