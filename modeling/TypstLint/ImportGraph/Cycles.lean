import TypstLint.ImportGraph.Components

set_option autoImplicit false

/-! # Import cycles

The cycles of an import graph lie in its strongly connected components. Within one, `loopsWithin` looks
at the steps from file to file in the order of the paths and, within a file, of the directives
(`stepsWithin`). A step that is part of no loop found so far gives the shortest loop through it
(`loopThrough`), for which the component is searched breadth first (`searchTrail`, `followTrail`). So
every step lies on a loop that is found, but a step that a longer loop covers gives none of its own
(`addLoop`).

A loop is turned so that it starts at the file whose path comes first (`rotated`), and becomes a `Cycle`
with the first directive of that file that leads on to the next one (`cycleOf?`). As loops are turned and
sorted by paths, the cycles do not depend on how the nodes are numbered. The searches run on fuel, which
the number of members bounds; a path within a component always exists, so it is not used up. -/

namespace TypstLint.ImportGraph

/-- A loop of imports. -/
structure Cycle where
  /-- The paths on the loop; the first one comes again at the end. -/
  path : List String
  /-- The directive of the first step. -/
  directive : Markup.Directive
  deriving Repr

namespace Cycle

/-- The file at which a cycle is reported. -/
def anchor (c : Cycle) : String := c.path.headD ""

/-- The wording of a cycle. -/
def message (c : Cycle) : String := "Import cycle: " ++ " -> ".intercalate c.path

end Cycle

/-! ## Shortest loops -/

/-- How each node was reached: the node before it, or none for the start. -/
abbrev Trail := List (Nat × Option Nat)

/-- Searches breadth first until `goal` is taken from the queue; `fuel` bounds the nodes taken. -/
def searchTrail (next : Nat → List Nat) (goal : Nat) (fuel : Nat) (trail : Trail)
    (queue : List Nat) : Trail :=
  match fuel, queue with
  | fuel + 1, node :: queue =>
    if node == goal then trail
    else
      let new := ((next node).eraseDups).filter fun child => (trail.lookup child).isNone
      searchTrail next goal fuel (trail ++ new.map (·, some node)) (queue ++ new)
  | _, _ => trail

/-- The nodes on the way to a node, last one first; `fuel` bounds their number. -/
def followTrail (trail : Trail) (fuel : Nat) (node : Nat) : List Nat :=
  match fuel with
  | 0 => []
  | fuel + 1 =>
    node :: match (trail.lookup node).join with
      | some before => followTrail trail fuel before
      | none => []

/-- The shortest path between two nodes of a component. -/
def shortestPath (next : Nat → List Nat) (members : List Nat) (start goal : Nat) : List Nat :=
  let inside := fun node => (next node).filter members.contains
  let trail := searchTrail inside goal members.length [(start, none)] [start]
  (followTrail trail (members.length + 1) goal).reverse

/-- The shortest loop that starts with the edge from `source` to `target`. -/
def loopThrough (next : Nat → List Nat) (members : List Nat) (source target : Nat) : List Nat :=
  if target == source then [source]
  else source :: (shortestPath next members target source).dropLast

/-- The steps of a loop. -/
def stepsOf (loop : List Nat) : List (Nat × Nat) := loop.zip (loop.drop 1 ++ loop.take 1)

/-! ## All loops -/

/-- The first of the elements that is least in an order. -/
def firstLeast? {α : Type} (lt : α → α → Bool) : List α → Option α
  | [] => none
  | x :: xs => some (xs.foldl (fun least y => if lt y least then y else least) x)

/-- A loop turned so that it starts at the node whose path comes first. -/
def rotated (g : ImportGraph) (loop : List Nat) : List Nat :=
  match firstLeast? (fun a b => decide (g.pathOf a < g.pathOf b)) loop with
  | none => []
  | some first => loop.dropWhile (· != first) ++ loop.takeWhile (· != first)

/-- The edges out of a node in the order of the text. -/
def sortedEdges (g : ImportGraph) (node : Nat) : List Edge :=
  (g.outgoing node).mergeSort fun a b => decide (a.directive.span.start ≤ b.directive.span.start)

/-- The steps of a component in the order in which they are looked at. -/
def stepsWithin (g : ImportGraph) (members : List Nat) : List (Nat × Nat) :=
  (members.mergeSort fun a b => decide (g.pathOf a ≤ g.pathOf b)).flatMap fun node =>
    ((g.sortedEdges node).filterMap Edge.target?).filter members.contains |>.map (node, ·)

/-- Adds the loop through a step to the loops that were found, the latest one first, unless the step is
part of one of them; `found` also holds the steps of these loops. -/
def addLoop (g : ImportGraph) (next : Nat → List Nat) (members : List Nat)
    (found : List (List Nat) × List (Nat × Nat)) (step : Nat × Nat) :
    List (List Nat) × List (Nat × Nat) :=
  let (loops, covered) := found
  if covered.contains step then (loops, covered)
  else
    let loop := loopThrough next members step.1 step.2
    (g.rotated loop :: loops, stepsOf loop ++ covered)

/-- The loops of a component, the latest one first. A step that is part of a loop gives no other one. -/
def loopsWithin (g : ImportGraph) (next : Nat → List Nat) (members : List Nat) : List (List Nat) :=
  ((g.stepsWithin members).foldl (g.addLoop next members) ([], [])).1

/-- The cycle of a loop. -/
def cycleOf? (g : ImportGraph) (loop : List Nat) : Option Cycle :=
  match loop with
  | [] => none
  | anchor :: rest =>
    let following := rest.headD anchor
    let edges := (g.outgoing anchor).filter (·.target? == some following)
    (firstLeast? (fun a b => decide (a.directive.span.start < b.directive.span.start)) edges).map
      fun edge => ⟨(loop ++ [anchor]).map g.pathOf, edge.directive⟩

/-- Whether one list of paths comes before another one in the order of dictionaries. -/
def comesBefore (xs ys : List String) : Bool := List.lex xs ys fun x y => decide (x < y)

/-- The loops of all components; two components have none in common. -/
def loops (g : ImportGraph) : List (List Nat) :=
  let table := g.successorTable
  g.components.flatMap fun members =>
    (g.loopsWithin (fun node => (table[node]?).getD []) members).reverse

/-- The cycles of an import graph, in the order of their paths. -/
def cycles (g : ImportGraph) : List Cycle :=
  (g.loops.eraseDups.filterMap g.cycleOf?).mergeSort fun a b => !comesBefore b.path a.path

end TypstLint.ImportGraph
