import Patchbay.Catalog
import Patchbay.Node.Basic
import Patchbay.Random

/-!
# Evaluation

What a node of each kind does in one tick. `NodeKind.evaluate` takes the values that the inputs
read, the time of the tick, the source of random draws, and the node's output and state; it gives
the new output and state, the line logged if any, and the source after its draws. An input past
the last value reads as unset.
-/

namespace Patchbay

/-- What one evaluation of a node leaves behind. -/
structure Evaluation where
  output : Value
  state : NodeState
  random : Random
  log : Option String := none

/-- The value at an index, unset past the end. -/
def inputAt (inputs : List Value) (index : Nat) : Value :=
  inputs[index]?.getD .unset

/-- The pieces of a text between its commas; an empty text is one empty piece. -/
def splitAtCommas : List Char → List (List Char)
  | [] => [[]]
  | c :: r =>
    if c = ',' then [] :: splitAtCommas r
    else
      match splitAtCommas r with
      | word :: words => (c :: word) :: words
      | [] => [[c]]

/-- The words of a list. -/
def wordsOf (list : String) : List String :=
  (splitAtCommas list.toList).map String.ofList

namespace NodeKind

/-- The first input turns most kinds on. -/
def isOn (inputs : List Value) : Bool :=
  (inputAt inputs 0).isTruthy

/--
A pulse lasts one tick: it is sent when the input turns on, and the input has to go off before the
next one. The output stays as it is until the first pulse.
-/
def pulse (on : Bool) (output : Value) (state : NodeState) : Value × NodeState :=
  let output := if state.wasTriggered then .bool false else output
  if on then
    if state.wasTriggered then (output, state)
    else (.bool true, { state with wasTriggered := true })
  else (output, { state with wasTriggered := false })

/--
While the input is on, the seconds since it turned on, times the rate, wrapped into the range from
low to high. Off stops the clock and puts the output back to zero.
-/
def cycle (inputs : List Value) (now : Instant) (state : NodeState) : Value × NodeState :=
  if isOn inputs then
    let started := state.cycleStarted.getD now
    let low := (inputAt inputs 1).toNumber
    let high := (inputAt inputs 2).toNumber
    let rate := (inputAt inputs 3).toNumber
    let along := now.secondsSince started * rate % (high - low)
    (.number (low + along), { state with cycleStarted := some started })
  else (.number 0, { state with cycleStarted := none })

/-- While the input is on and there is a list of words, one of them at random. -/
def pickWord (inputs : List Value) (output : Value) (random : Random) : Value × Random :=
  if isOn inputs then
    match inputAt inputs 1 with
    | .text list =>
      if list.isEmpty then (output, random)
      else
        let words := wordsOf list
        let (index, random) := random.below words.length
        (.text (words[index]?.getD ""), random)
    | _ => (output, random)
  else (output, random)

/-- One evaluation of a node. -/
def evaluate (kind : NodeKind) (inputs : List Value) (now : Instant) (random : Random)
    (output : Value) (state : NodeState) : Evaluation :=
  match kind with
  | battery => ⟨.bool true, state, random, none⟩
  | pulsifier =>
    let (output, state) := pulse (isOn inputs) output state
    ⟨output, state, random, none⟩
  | memory => ⟨if isOn inputs then inputAt inputs 1 else output, state, random, none⟩
  | logger =>
    ⟨output, state, random, if isOn inputs then some (inputAt inputs 1).display else none⟩
  | echoer =>
    if isOn inputs then
      ⟨inputAt inputs 1, state, random, some (inputAt inputs 1).display⟩
    else ⟨output, state, random, none⟩
  | calculator =>
    let result :=
      (inputAt inputs 0).calculate (inputAt inputs 1).toNumber (inputAt inputs 2).toNumber
    ⟨.number result, state, random, none⟩
  | comparison =>
    ⟨.bool ((inputAt inputs 0).comparison (inputAt inputs 1) (inputAt inputs 2)), state, random,
      none⟩
  | conditionalPicker =>
    ⟨inputAt inputs (if (inputAt inputs 0).isTrue then 1 else 2), state, random, none⟩
  | numberCycler =>
    let (output, state) := cycle inputs now state
    ⟨output, state, random, none⟩
  | randomWordGenerator =>
    let (output, random) := pickWord inputs output random
    ⟨output, state, random, none⟩

end NodeKind

end Patchbay
