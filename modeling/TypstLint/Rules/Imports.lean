import TypstLint.ImportGraph.Cycles
import TypstLint.Rules.Basic

set_option autoImplicit false

/-! # Rules about imports

The rules about the edges of the import graph and about its nodes. An import that leads nowhere and one
of a package that is not in the registry are told by different rules (`unresolvedImports`,
`packagesNotFound`). What an edge leads to is taken from the graph; only `outdatedImports` asks the
registry again, for the versions of packages that are there. -/

namespace TypstLint.Rules

/-- A diagnostic at the target of an edge. -/
def edgeDiagnostic (ctx : Context) (severity : Severity) (ruleId message : String) (e : Edge) :
    Diagnostic where
  severity
  ruleId
  message
  file := ctx.graph.pathOf e.source
  span := some ((e.directive.target.map (·.span)).getD e.directive.span)

/-- The error about an edge that leads nowhere. -/
def unresolvedDiagnostic? (ctx : Context) (e : Edge) : Option Diagnostic :=
  e.resolution.problem?.map fun problem =>
    edgeDiagnostic ctx .error "imports/unresolved"
      s!"Unresolved {e.directive.kind.word}: {problem}" e

/-- Every import has to lead to a file or to a package. -/
def unresolvedImports : Rule :=
  .total "imports/unresolved" fun ctx => ctx.graph.edges.filterMap (unresolvedDiagnostic? ctx)

/-- The error about an edge to a package that is not in the registry. -/
def notFoundDiagnostic? (ctx : Context) (e : Edge) : Option Diagnostic :=
  match e.resolution with
  | .package spec .notFound =>
    some (edgeDiagnostic ctx .error "imports/package-not-found"
      s!"Package {spec.render} was not found in the package repository" e)
  | _ => none

/-- Imported packages have to be in the registry. -/
def packagesNotFound : Rule :=
  .total "imports/package-not-found" fun ctx => ctx.graph.edges.filterMap (notFoundDiagnostic? ctx)

/-- Files must not import each other in a circle. -/
def importCycles : Rule :=
  .total "imports/cycle" fun ctx =>
    ctx.graph.cycles.map fun c =>
      { severity := .error
        ruleId := "imports/cycle"
        message := c.message
        file := c.anchor
        span := c.directive.span }

/-- Whether an edge is a relative import of the package's entrypoint from its template. -/
def importsEntrypoint (ctx : Context) (e : Edge) : Bool :=
  match e.resolution with
  | .file target =>
    ctx.package.entrypoint == some (ctx.graph.pathOf target)
      && ctx.package.inTemplate (ctx.graph.pathOf e.source)
  | _ => false

/-- A template should import its package by specification. -/
def relativeEntrypoint : Rule :=
  .total "imports/relative-entrypoint" fun ctx =>
    (ctx.graph.edges.filter (importsEntrypoint ctx)).map
      (edgeDiagnostic ctx .warning "imports/relative-entrypoint"
        "This import should use the package specification, not a relative path.")

/-- The hint that an imported package has a newer version, if it has. -/
def newerVersion (ctx : Context) (r : Registry) (e : Edge) : Except Fault (List Diagnostic) :=
  match e.resolution with
  | .package spec .found => do
    match ← r.latestVersion spec.namespaceName spec.name with
    | some latest =>
      if latest.le spec.version then return []
      else
        return [edgeDiagnostic ctx .hint "imports/outdated"
          s!"A newer version of {spec.versionless} is available: {latest.render}" e]
    | none => return []
  | _ => .ok []

/-- Imports of packages that have a newer version. -/
def outdatedImports : Rule where
  id := "imports/outdated"
  evaluate ctx :=
    match ctx.registry with
    | none => .ok []
    | some r => (ctx.graph.edges.mapM (newerVersion ctx r)).map List.flatten

/-- Typst sources that are never imported. -/
def unreachableFiles : Rule :=
  .total "files/unreachable" fun ctx =>
    ctx.graph.unreachable.map fun path =>
      { severity := .hint
        ruleId := "files/unreachable"
        message := "This file is never imported from the entrypoint or the template"
        file := some path }

end TypstLint.Rules
