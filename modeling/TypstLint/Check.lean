import TypstLint.Report.Basic
import TypstLint.Rules.Files
import TypstLint.Rules.Imports
import TypstLint.Rules.Manifest
import TypstLint.Rules.Names

set_option autoImplicit false

/-! # Checking packages

`check` loads the manifest, builds the import graph, applies the rules and makes a report of what they
find. Problems of the manifest are found first and are no reason to stop: without a manifest the graph is
empty (`importGraph`), and the rules still look at the files. Only `shortCircuit` ends a check there,
with nothing but those problems in the report. All that the rules look at is put into a `Context` before
the first one runs, so they cannot depend on each other (`Rule.runAll`).

`checkDirectory` checks a directory on its own, and `checkRegistryPackage` a version in a registry with
the files of an overlay in place of its own; for everything else, such as the versions of other packages,
the registry is asked as it is. A check fails with a `Fault` where no report can be made: at an escape or
a numeral that is too large, a name that is too long, or a link that leads back to itself. -/

namespace TypstLint

/-- The rules that every check applies. -/
def Rules.all : List Rule :=
  [manifestProblems, manifestIdentity, manifestMetadata, licenseFile, unresolvedImports,
   packagesNotFound, importCycles, relativeEntrypoint, outdatedImports, unreachableFiles,
   fileEncoding, fileSize, fontFiles, escapingLinks, sourceIssues, kebabCase, readmeMissing,
   readmeExtensions, readmeExamples, authorsChanged]

/-- How a package is checked. -/
structure CheckOptions where
  /-- The specification under which the package is checked. -/
  spec : Option Spec := none
  registry : Option Registry := none
  /-- Whether the package is about to be published. -/
  publication : Bool := false
  /-- Whether problems of the manifest end the check. -/
  shortCircuit : Bool := false
  rules : List Rule := Rules.all

/-- What a check gives. -/
structure CheckResult where
  package : Package
  graph : ImportGraph
  report : Report

/-- The import graph of a package; empty without a manifest. -/
def importGraph (package : Package) (registry : Option Registry) (outlines : Outlines) :
    Except Fault ImportGraph :=
  if package.manifest.isSome then ImportGraph.build ⟨package, registry, outlines⟩ else .ok {}

/-- Checks the files of a package. -/
def check (files : FileSet) (options : CheckOptions) : Except Fault CheckResult := do
  let loaded := Manifest.load files
  let package : Package := ⟨files, loaded.manifest, options.spec⟩
  let outlines := files.outlines
  let stops := options.shortCircuit && !loaded.problems.isEmpty
  let graph ← if stops then pure {} else importGraph package options.registry outlines
  let ctx : Context :=
    { package
      graph
      outlines
      manifestProblems := loaded.problems
      registry := options.registry
      publication := options.publication
      manifestText := loaded.text }
  let rules := if stops then [Rules.manifestProblems] else options.rules
  return ⟨package, graph, .ofDiagnostics package.label (Rule.runAll rules ctx)⟩

/-- Checks the package in a directory on its own. -/
def checkDirectory (t : Tree) (path : List String) (registry : Option Registry) :
    Except Fault CheckResult := do
  check (← t.load path none) { registry, shortCircuit := true }

/-- The report about a version that is not in the registry. -/
def notFoundReport (spec : Spec) : Report :=
  .ofDiagnostics spec.render
    [{ severity := .error
       ruleId := "package/not-found"
       message := Registry.notFoundMessage spec }]

/-- Checks a version of a package in a registry, changed by an overlay. -/
def checkRegistryPackage (r : Registry) (spec : Spec) (overlay : Option Overlay)
    (publication : Bool) : Except Fault CheckResult := do
  match ← r.load spec overlay with
  | none => return ⟨⟨.empty, none, some spec⟩, {}, notFoundReport spec⟩
  | some files => check files { spec, registry := r, publication }

end TypstLint
