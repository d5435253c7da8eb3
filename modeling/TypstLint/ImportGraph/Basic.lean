import TypstLint.Markup.Finding
import TypstLint.Package.Spec

set_option autoImplicit false

/-! # Import graphs

The nodes of an `ImportGraph` are the files that are reached from the entrypoints of a package, numbered
in the order in which they were reached. Every directive of such a file with a literal target is an
`Edge`, whatever the target leads to (`Resolution`): a file of the package, the package itself by its
specification, another package, or nothing, for one of several reasons.

An edge that leads to a file has its number in the resolution, so `successors` and everything built on it
only looks at numbers. The sources that are not reached are kept by their paths (`unreachable`). -/

namespace TypstLint

open Markup (Directive)

/-- What is known about another package. -/
inductive PackageStatus where
  | found
  | notFound
  /-- There is no registry to look in. -/
  | unchecked
  deriving DecidableEq, Repr

/-- What the target of a directive leads to. -/
inductive Resolution where
  /-- To a file of the package. -/
  | file (node : Nat)
  /-- To the entrypoint of the package, by its specification. -/
  | self (spec : Spec) (node : Nat)
  /-- Out of the package. -/
  | outside (target : String)
  /-- To a path at which there is no file. -/
  | missing (target path : String)
  /-- To another package. -/
  | package (spec : Spec) (status : PackageStatus)
  /-- Nowhere, because the target is no specification. -/
  | invalidSpec (error : SpecError)
  deriving DecidableEq, Repr

namespace Resolution

/-- The node of the package that a target leads to. -/
def node? : Resolution → Option Nat
  | file node | self _ node => some node
  | _ => none

/-- Which sort of target a resolution is of. -/
def kindText : Resolution → String
  | file _ | outside _ | missing .. => "relative"
  | self .. => "package-self"
  | package .. | invalidSpec _ => "external-package"

/-- How a target was resolved. -/
def statusText : Resolution → String
  | file _ | self .. | package _ .found => "resolved"
  | outside _ | missing .. | invalidSpec _ => "unresolved"
  | package _ .notFound => "package-not-found"
  | package _ .unchecked => "unchecked"

/-- The specification of a package that a target names. -/
def spec? : Resolution → Option Spec
  | self spec _ | package spec _ => some spec
  | _ => none

/-- Why a target leads nowhere. -/
def problem? : Resolution → Option String
  | outside target => some s!"`{target}` points outside of the package"
  | missing target path => some s!"`{target}` does not exist (resolved to `{path}`)"
  | invalidSpec error => some error.message
  | _ => none

end Resolution

/-- A directive of a file, and what its target leads to. -/
structure Edge where
  source : Nat
  directive : Directive
  resolution : Resolution
  deriving Repr

/-- The node that an edge leads to within the package. -/
def Edge.target? (e : Edge) : Option Nat := e.resolution.node?

/-- An import graph. -/
structure ImportGraph where
  nodes : List String := []
  edges : List Edge := []
  entrypoints : List Nat := []
  /-- The Typst sources that are not reached. -/
  unreachable : List String := []

namespace ImportGraph

/-- The path of a node. -/
def pathOf (g : ImportGraph) (node : Nat) : String := (g.nodes[node]?).getD ""

/-- The number of a path. -/
def index? (g : ImportGraph) (path : String) : Option Nat := g.nodes.idxOf? path

/-- The edges out of a node, in the order of its directives. -/
def outgoing (g : ImportGraph) (node : Nat) : List Edge := g.edges.filter (·.source == node)

/-- The edges out of the node with a path. -/
def edgesFrom (g : ImportGraph) (path : String) : List Edge :=
  match g.index? path with
  | some node => g.outgoing node
  | none => []

/-- The nodes that the edges out of a node lead to. -/
def successors (g : ImportGraph) (node : Nat) : List Nat := (g.outgoing node).filterMap Edge.target?

end ImportGraph

end TypstLint
