import TypstLint.ImportGraph.Cycles
import TypstLint.Json.Value

set_option autoImplicit false

/-! # Import graphs as values

Edges, components and cycles of an import graph, as JSON values. -/

namespace TypstLint

open Json (Value)

/-- An edge. -/
def Edge.toValue (e : Edge) : Value :=
  let r := e.resolution
  .obj [("source", .ofNat e.source), ("target", .ofInt? (e.target?.map Int.ofNat)),
    ("kind", .str r.kindText), ("status", .str r.statusText),
    ("package", .ofText? (r.spec?.map Spec.render)), ("problem", .ofText? r.problem?),
    ("internal", .bool e.target?.isSome), ("directive", .ofText? (e.directive.target.map (·.text))),
    ("span", .ofSpan e.directive.span)]

namespace ImportGraph

/-- A cycle. -/
def Cycle.toValue (c : Cycle) : Value :=
  .obj [("anchor", .str c.anchor), ("span", .ofSpan c.directive.span), ("path", .ofTexts c.path),
    ("message", .str c.message)]

/-- What the edges of a graph make up: the successors of the nodes, components and cycles. -/
def summaryMembers (g : ImportGraph) : List (String × Value) :=
  let numbers (ns : List Nat) : Value := .arr (ns.map .ofNat)
  [("successors", .arr ((List.range g.nodes.length).map fun n => numbers (g.successors n))),
    ("components", .arr (g.components.map numbers)),
    ("cycles", .arr (g.cycles.map Cycle.toValue))]

end ImportGraph

end TypstLint
