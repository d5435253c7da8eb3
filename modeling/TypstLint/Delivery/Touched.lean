import TypstLint.Assoc
import TypstLint.Fault
import TypstLint.GitHub.Model
import TypstLint.Package.Spec

set_option autoImplicit false

/-! # What a pull request touches

A pull request touches the versions of packages in whose directories it changes a file (`touched`). A
path belongs to a version, to the registry around the versions, or to the rest of the repository
(`placeOf`). Of a renamed file both paths count (`changedPaths`).

For each version there is an overlay that tells where to find the files at the head of the pull request
(`overlayOf`). The changes are entered one by one in the order in which they are listed (`addChange`),
and what is entered later about a path replaces what was entered before. -/

namespace TypstLint.Delivery

open GitHub (ChangedFile)

/-- What a changed path belongs to. -/
inductive Place where
  /-- The rest of the repository. -/
  | outside
  /-- The registry, but no version of a package. -/
  | between
  /-- A version of a package. -/
  | package (spec : Spec)
  deriving DecidableEq, Repr

/-- The place of a file in the directory `version` of a package. -/
def placeInPackage (namespaceName name version : List Char) : Except Fault Place :=
  match Version.parse (String.ofList version) with
  | .ok v => .ok (.package ⟨String.ofList namespaceName, String.ofList name, v⟩)
  | .error (.numeralTooLong digits) => .error (.numeralTooLong digits)
  | .error _ => .ok .between

/-- The place of a path. -/
def placeOf (path : String) : Except Fault Place :=
  match Text.splitOn '/' path.toList with
  | top :: rest =>
    if String.ofList top != "packages" then .ok .outside
    else
      match rest with
      | namespaceName :: name :: version :: _ :: _ => placeInPackage namespaceName name version
      | _ => .ok .between
  | [] => .ok .outside

/-- The paths of changed files, new and old. -/
def changedPaths (files : List ChangedFile) : List String :=
  files.flatMap fun f => (f.filename :: f.previousFilename.toList).filter (!·.isEmpty)

/-- The versions that a pull request touches, in the order of their texts, and whether it changes
anything else. -/
def touched (files : List ChangedFile) : Except Fault (List Spec × Bool) := do
  let places ← (changedPaths files).mapM placeOf
  let specs := places.filterMap fun
    | .package spec => some spec
    | _ => none
  return (specs.eraseDups.mergeSort (fun a b => decide (a.render ≤ b.render)),
    places.contains .outside)

/-! ## Overlays -/

/-- Where a path lies in the directory of a version. -/
def relative? (spec : Spec) (path : String) : Option String :=
  let dir := spec.registryPath.toList ++ ['/']
  if dir.isPrefixOf path.toList then some (String.ofList (path.toList.drop dir.length)) else none

/-- Adds a changed file to an overlay. -/
def addChange (spec : Spec) (overlay : List (String × Option String)) (f : ChangedFile) :
    List (String × Option String) :=
  let moved := match f.previousFilename.bind (relative? spec) with
    | some path => Assoc.set overlay path none
    | none => overlay
  match relative? spec f.filename with
  | some path => Assoc.set moved path (if f.isRemoved then none else some f.filename)
  | none => moved

/-- The overlay of a version: for each changed path in it the path in the repository where the content
is found, or none if the file is gone. -/
def overlayOf (spec : Spec) (files : List ChangedFile) : List (String × Option String) :=
  files.foldl (addChange spec) []

end TypstLint.Delivery
