import Patchbay.Catalog
import Patchbay.Graph.Wires

/-!
# The demonstration patch

A battery powers a generator of words and a number cycler. Whenever the cycler climbs past one
half, a comparison turns on, a pulsifier fires once, and a logger writes the current word.
-/

namespace Patchbay

/-- The nodes of the demonstration. -/
structure Demo where
  battery : NodeId
  words : NodeId
  /-- The number that runs from zero to one in two seconds. -/
  cycler : NodeId
  /-- Whether the number is past one half. -/
  comparison : NodeId
  /-- One pulse each time it gets there. -/
  pulse : NodeId
  /-- The logger of the current word. -/
  logger : NodeId
deriving DecidableEq

namespace Demo

/-- The words of the generator. -/
def wordList : String := "Apple,Banana,Chair,Rainbow,Unicorn"

/-- The nodes, in the size that the configuration gives. -/
def nodes (d : Demo) (size : Offset) : List Node :=
  let place (kind : NodeKind) (id : NodeId) (x y : Float32) : Node :=
    { Node.ofType kind.nodeType id with size := size, position := ⟨x, y⟩ }
  [place .battery d.battery 40 160,
    place .randomWordGenerator d.words 160 60,
    place .numberCycler d.cycler 160 260,
    place .comparison d.comparison 280 260,
    place .pulsifier d.pulse 400 260,
    place .logger d.logger 520 160]

/-- The bindings of the inputs, in the order in which they are made. -/
def bindings (d : Demo) : List (NodeId × Nat × Binding) :=
  [(d.words, 0, .reference d.battery),
    (d.words, 1, .literal (.text wordList)),
    (d.cycler, 0, .reference d.battery),
    (d.cycler, 1, .literal (.number 0)),
    (d.cycler, 2, .literal (.number 1)),
    (d.cycler, 3, .literal (.number 0.5)),
    (d.comparison, 0, .literal (.text ">")),
    (d.comparison, 1, .reference d.cycler),
    (d.comparison, 2, .literal (.number 0.5)),
    (d.pulse, 0, .reference d.comparison),
    (d.logger, 0, .reference d.pulse),
    (d.logger, 1, .reference d.words)]

/-- The edits that build the demonstration in a patch. -/
def edits (d : Demo) (size : Offset) : List (Graph → Except GraphError (Change Unit)) :=
  (d.nodes size).map (fun n g => (g.add n).map fun c => ⟨(), c.graph, c.events⟩) ++
    d.bindings.map (fun (id, index, b) g =>
      (g.bind id index b).map fun c => ⟨(), c.graph, c.events⟩) ++
    [fun g => g.rename d.logger "Word Logger"]

end Demo

/-- Makes edits one after the other until one is refused, and gathers their notifications. -/
def Graph.editAll (g : Graph) :
    List (Graph → Except GraphError (Change Unit)) → Except GraphError (Change Unit)
  | [] => .ok ⟨(), g, []⟩
  | edit :: edits =>
    match edit g with
    | .error err => .error err
    | .ok c => (c.graph.editAll edits).map fun r => ⟨(), r.graph, c.events ++ r.events⟩

/-- Builds the demonstration in a patch, under names that are not in use. -/
def Demo.build (d : Demo) (g : Graph) : Except GraphError (Change Unit) :=
  g.editAll (d.edits g.config.nodeSize.toOffset)

end Patchbay
