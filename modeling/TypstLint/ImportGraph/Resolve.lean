import TypstLint.ImportGraph.Basic
import TypstLint.Markup.Scan
import TypstLint.Package.Basic
import TypstLint.Registry

set_option autoImplicit false

/-! # Building the import graph of a package

`build` visits the files in the order in which they are reached, starting with the entrypoints
(`explore`). Each directive of a visited file adds an edge, and its target a node if it is new
(`edgesOf`).

What a target leads to is found by `resolveTarget`. One that starts with `@` names a package: the package
itself (`isSelf`), or another one, for which the registry is asked (`packageStatus`). Any other is a
path, seen from the file or from the root of the package (`resolveRelative`). A file that cannot be
scanned, or a specification that cannot be read because of its size, is the `Fault` of the whole graph. -/

namespace TypstLint

open Markup (Directive Outline)

/-- The outlines of the Typst sources of a package that are valid UTF-8, by path. -/
abbrev Outlines := List (String × Except Fault Outline)

/-- Scans the Typst sources of a package. -/
def FileSet.outlines (fs : FileSet) : Outlines :=
  fs.typstFiles.filterMap fun f => f.text?.map fun text => (f.path, Markup.scan text)

/-- The package-relative path of a target named in the file `source`, unless it leads out of the
package. A target that starts with a slash starts at the root of the package. -/
def resolveRelative (source target : String) : Option String :=
  let joined :=
    if target.toList.head? == some '/' then target.toList.dropWhile (· == '/')
    else Text.Path.joinChars (Text.Path.parentChars source.toList) target.toList
  let path := Text.Path.normalizeChars joined
  if path == ".".toList || path == "..".toList || "../".toList.isPrefixOf path then none
  else some (String.ofList path)

/-- Whether a specification names a package itself. -/
def Package.isSelf (p : Package) (spec : Spec) : Bool :=
  p.name == some spec.name && p.version == some spec.version.render
    && p.spec.all (·.namespaceName == spec.namespaceName)

namespace ImportGraph

/-- What an import graph is built from. -/
structure Input where
  package : Package
  registry : Option Registry
  outlines : Outlines

/-- The number of a path, and the nodes with the path added if it is new. -/
def addNode (nodes : List String) (path : String) : List String × Nat :=
  match nodes.idxOf? path with
  | some node => (nodes, node)
  | none => (nodes ++ [path], nodes.length)

/-- What is known about another package. -/
def packageStatus (registry : Option Registry) (spec : Spec) : Except Fault PackageStatus :=
  match registry with
  | none => .ok .unchecked
  | some r => (r.hasPackage spec).map fun found => if found then .found else .notFound

/-- Resolves a target that names a package. -/
def resolvePackage (input : Input) (nodes : List String) (target : String) :
    Except Fault (List String × Resolution) :=
  match Spec.parse target with
  | .error (.numeralTooLong digits) => .error (.numeralTooLong digits)
  | .error e => .ok (nodes, .invalidSpec e)
  | .ok spec =>
    match input.package.entrypoint.filter fun entrypoint =>
        input.package.isSelf spec && input.package.files.contains entrypoint with
    | some entrypoint =>
      let (nodes, node) := addNode nodes entrypoint
      .ok (nodes, .self spec node)
    | none => (packageStatus input.registry spec).map fun status => (nodes, .package spec status)

/-- Resolves a target named in the file `source`. -/
def resolveTarget (input : Input) (nodes : List String) (source target : String) :
    Except Fault (List String × Resolution) :=
  if target.toList.head? == some '@' then resolvePackage input nodes target
  else
    match resolveRelative source target with
    | none => .ok (nodes, .outside target)
    | some path =>
      if input.package.files.contains path then
        let (nodes, node) := addNode nodes path
        .ok (nodes, .file node)
      else .ok (nodes, .missing target path)

/-- The edges of directives of the file `source`, whose number is `node`; new targets are added to the
nodes. -/
def edgesOf (input : Input) (node : Nat) (source : String) (nodes : List String) :
    List Directive → Except Fault (List String × List Edge)
  | [] => .ok (nodes, [])
  | d :: rest =>
    match d.target with
    | none => edgesOf input node source nodes rest
    | some target => do
      let (nodes, resolution) ← resolveTarget input nodes source target.text
      let (nodes, edges) ← edgesOf input node source nodes rest
      return (nodes, ⟨node, d, resolution⟩ :: edges)

/-- The directives of a file; none if it is no readable Typst source. -/
def directivesOf (input : Input) (path : String) : Except Fault (List Directive) :=
  match input.outlines.lookup path with
  | none => .ok []
  | some outline => outline.map (·.directives)

/-- Visits the nodes from `next` on; `fuel` bounds their number. -/
def explore (input : Input) (fuel next : Nat) (nodes : List String) (edges : List Edge) :
    Except Fault (List String × List Edge) :=
  match fuel with
  | 0 => .ok (nodes, edges)
  | fuel + 1 =>
    match nodes[next]? with
    | none => .ok (nodes, edges)
    | some path => do
      let directives ← directivesOf input path
      let (nodes, new) ← edgesOf input next path nodes directives
      explore input fuel (next + 1) nodes (edges ++ new)

/-- The import graph of a package. Only files of the package become nodes, so their number bounds the
visits. -/
def build (input : Input) : Except Fault ImportGraph := do
  let files := input.package.files
  let starts := (input.package.entrypoints.filter files.contains).eraseDups
  let (nodes, edges) ← explore input (files.files.length + 1) 0 starts []
  let unreachable :=
    if starts.isEmpty then []
    else (files.typstFiles.map (·.path)).filter fun path =>
      !nodes.contains path && !input.package.isExcluded path
  return { nodes, edges, entrypoints := List.range starts.length, unreachable }

end ImportGraph

end TypstLint
