import TypstLint.Rules.Basic

set_option autoImplicit false

/-! # Rules about names

The names that a package offers are those of its entrypoint: its bindings, what it imports by name, and
the names of the files that it imports with a wildcard (`publicNames`). They should be in kebab case.
Wildcards may lead back to a file that is still being visited, so `moduleScope` carries the files visited
so far along.

`kebabCase` looks for bindings with these names in all files that the entrypoint imports
(`importedFiles`), by the name alone. -/

namespace TypstLint.Rules

open Markup (Binding Directive Outline)

/-! ## Spelling -/

/-- Whether a text is runs of characters with property `p` between single separators, up to one line
end behind it. -/
def isRuns (isSeparator p : Char → Bool) (cs : List Char) : Bool :=
  (Text.splitWhere isSeparator (dropLineFeed cs)).all fun run => !run.isEmpty && run.all p

/-- Whether a name is in kebab case: small letters and digits between hyphens. -/
def isKebabCase (name : String) : Bool := isRuns (· == '-') isNameChar name.toList

/-- Whether a name is that of a constant: capital letters and digits between hyphens or underscores,
with at least one letter. -/
def isConstantName (name : String) : Bool :=
  isRuns (fun c => c == '-' || c == '_') (fun c => c.isUpper || c.isDigit) name.toList
    && name.toList.any Text.isLetter

/-! ## Public names -/

/-- What was scanned of a file, if it could be. -/
def outlineOf (ctx : Context) (path : String) : Except Fault (Option Outline) :=
  match ctx.outlines.lookup path with
  | none => .ok none
  | some outline => outline.map some

/-- The file that a directive of a file leads to by a relative path. -/
def relativeTarget (ctx : Context) (path : String) (d : Directive) : Option String :=
  (ctx.graph.edgesFrom path).reverse.findSome? fun e =>
    match e.resolution with
    | .file node => if e.directive == d then some (ctx.graph.pathOf node) else none
    | _ => none

/-- The names that a file defines or imports by name. -/
def ownNames (outline : Outline) : List String :=
  outline.bindings.map (·.name)
    ++ (outline.directives.filter (·.kind == .importing)).flatMap fun d =>
      (d.newName.filter (!·.isEmpty)).toList ++ d.items

/-- The files that a file imports with a wildcard, as far as they are given by relative paths. -/
def wildcardTargets (ctx : Context) (path : String) (outline : Outline) : List String :=
  (outline.directives.filter fun d => d.kind == .importing && d.wildcard).filterMap
    (relativeTarget ctx path)

/-- Names that were collected, and the files that were visited for them. -/
structure Scope where
  names : List String
  visited : List String

/-- The names of a file, and of the files that it imports with a wildcard. A file that was visited gives
no names again, also while it is still being visited. `fuel` bounds how deep the imports lead. -/
def moduleScope (ctx : Context) (fuel : Nat) (visited : List String) (path : String) :
    Except Fault Scope :=
  match fuel with
  | 0 => .ok ⟨[], visited⟩
  | fuel + 1 => do
    match ← outlineOf ctx path with
    | none => return ⟨[], visited⟩
    | some outline =>
      if visited.contains path then return ⟨[], visited⟩
      else
        (wildcardTargets ctx path outline).foldlM (fun scope target => do
            let found ← moduleScope ctx fuel scope.visited target
            return ⟨scope.names ++ found.names, found.visited⟩)
          ⟨ownNames outline, path :: visited⟩

/-- The names that a file offers. Imports lead deeper only to nodes that were not visited. -/
def publicNames (ctx : Context) (path : String) : Except Fault (List String) :=
  (moduleScope ctx (ctx.graph.nodes.length + 2) [] path).map (·.names)

/-- The files in a list from the one with number `next` on, and those that they import by relative
paths, each once. -/
def importedFrom (ctx : Context) (fuel next : Nat) (found : List String) : List String :=
  match fuel with
  | 0 => found
  | fuel + 1 =>
    match found[next]? with
    | none => found
    | some path =>
      let targets := (ctx.graph.edgesFrom path).filterMap fun e =>
        match e.resolution with
        | .file node => if e.directive.kind == .importing then some (ctx.graph.pathOf node) else none
        | _ => none
      let new := targets.eraseDups.filter (!found.contains ·)
      importedFrom ctx fuel (next + 1) (found ++ new)

/-- A file and those that it imports, in the order in which they are reached. -/
def importedFiles (ctx : Context) (path : String) : List String :=
  importedFrom ctx (ctx.graph.nodes.length + 1) 0 [path]

/-! ## The rule -/

/-- A warning about a name. -/
def nameWarning (path message : String) (span : Text.Span) : Diagnostic where
  severity := .warning
  ruleId := "naming/kebab-case"
  message
  file := path
  span

/-- The warnings about a public binding and its parameters. -/
def bindingWarnings (path : String) (b : Binding) : List Diagnostic :=
  (if isConstantName b.name || isKebabCase b.name then []
    else [nameWarning path
      s!"`{b.name}` seems to be public. It is recommended to use kebab-case names." b.span])
  ++ (b.params.filter (!isKebabCase ·.name)).map fun param =>
    nameWarning path
      s!"`{param.name}` seems to be an argument of the public function `{b.name}`. It is recommended to use kebab-case names."
      param.span

/-- The warnings about the bindings of a file that are public. -/
def fileWarnings (ctx : Context) (names : List String) (path : String) :
    Except Fault (List Diagnostic) := do
  match ← outlineOf ctx path with
  | none => return []
  | some outline =>
    return (outline.bindings.filter fun b =>
      names.contains b.name && b.name.toList.head? != some '_').flatMap (bindingWarnings path)

/-- Public names and the parameters of public functions should be in kebab case. -/
def kebabCase : Rule where
  id := "naming/kebab-case"
  evaluate ctx :=
    match ctx.package.entrypoint.filter ctx.graph.nodes.contains with
    | none => .ok []
    | some entrypoint => do
      let names ← publicNames ctx entrypoint
      let found ← (importedFiles ctx entrypoint).mapM (fileWarnings ctx names)
      return found.flatten

end TypstLint.Rules
