import TypstLint.ImportGraph.Basic

set_option autoImplicit false

/-! # Strongly connected components

A depth-first search numbers the nodes in the order in which it enters them and keeps the entered nodes
of unfinished components on a stack (`Search`). When it leaves a node from which no node entered earlier
and still on the stack was met, that node and those above it on the stack are a component (`finish`).

`visit` returns the least number met as a value, where the textbook keeps one for each node; the least
number of a node is only asked for by the node from which it is visited. It takes the successors as a
function, so the theory of the search knows nothing of import graphs; `components` runs it on the
successors of all nodes, computed once (`successorTable`). The fuel of `visit` bounds the nodes on the
way, of which there are no more than nodes in all. -/

namespace TypstLint.ImportGraph

/-- What a search knows about a node. -/
inductive Mark where
  | unseen
  /-- The node is on the stack, and was the one with this number to be entered. -/
  | entered (number : Nat)
  | done
  deriving DecidableEq, Repr

/-- A search that is under way. -/
structure Search where
  marks : Array Mark
  /-- How many nodes were entered. -/
  count : Nat
  /-- The nodes of unfinished components, the latest one first. -/
  stack : List Nat
  /-- The finished components, the latest one first. -/
  components : List (List Nat)

namespace Search

/-- The start of a search over `size` nodes. -/
def start (size : Nat) : Search := ⟨Array.replicate size .unseen, 0, [], []⟩

/-- What is known about a node; nodes that do not exist are done. -/
def markOf (s : Search) (node : Nat) : Mark := (s.marks[node]?).getD .done

/-- Enters a node. -/
def enter (s : Search) (node : Nat) : Search :=
  { s with
    marks := s.marks.setIfInBounds node (.entered s.count)
    count := s.count + 1
    stack := node :: s.stack }

/-- Takes the stack down to a node off as a component. -/
def finish (s : Search) (node : Nat) : Search :=
  let above := s.stack.takeWhile (· != node)
  let component := above ++ [node]
  { s with
    marks := component.foldl (fun marks n => marks.setIfInBounds n .done) s.marks
    stack := s.stack.drop component.length
    components := component :: s.components }

end Search

/-- The lesser of two numbers of nodes, where there may be none. -/
def least : Option Nat → Option Nat → Option Nat
  | some a, some b => some (min a b)
  | some a, none => some a
  | none, b => b

/-- Goes on to a child of the node that is visited. `found` is the least number met so far, and the
search. -/
def meet (visit : Search → Nat → Option Nat × Search) (found : Option Nat × Search) (child : Nat) :
    Option Nat × Search :=
  let (low, s) := found
  match s.markOf child with
  | .unseen =>
    let (below, s) := visit s child
    (least low below, s)
  | .entered n => (least low (some n), s)
  | .done => (low, s)

/-- Visits a node that was not entered before. Returns the least number met of a node that is still on
the stack. `fuel` bounds the nodes on the way. -/
def visit (next : Nat → List Nat) (fuel : Nat) (s : Search) (node : Nat) : Option Nat × Search :=
  match fuel with
  | 0 => (none, s)
  | fuel + 1 =>
    let number := s.count
    let (low, s) := (next node).foldl (meet (visit next fuel)) (some number, s.enter node)
    if low == some number then (none, s.finish node) else (low, s)

/-- Visits a node unless it was met before. -/
def visitRoot (next : Nat → List Nat) (size : Nat) (s : Search) (root : Nat) : Search :=
  if s.markOf root == .unseen then (visit next (size + 1) s root).2 else s

/-- The components of the graph with `size` nodes, in the order in which they are finished. -/
def componentsOf (next : Nat → List Nat) (size : Nat) : List (List Nat) :=
  ((List.range size).foldl (visitRoot next size) (Search.start size)).components.reverse

/-- The successors of every node. -/
def successorTable (g : ImportGraph) : Array (List Nat) :=
  ((List.range g.nodes.length).map g.successors).toArray

/-- The strongly connected components of an import graph. -/
def components (g : ImportGraph) : List (List Nat) :=
  let table := g.successorTable
  componentsOf (fun node => (table[node]?).getD []) g.nodes.length

end TypstLint.ImportGraph
