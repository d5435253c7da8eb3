import TypstLint.Package.Spec
import TypstLint.Text.Lines
import TypstLint.Tree.Load

set_option autoImplicit false

/-! # Package registries

A registry is a directory in which every version of a package has a directory of its own, named by its
specification (`packageDir`). A version is there if it has a manifest (`hasPackage`), but it is listed
among the `versions` of its package if its directory has the name of one. Both follow links. -/

namespace TypstLint

/-- A registry: a tree, and the directory in it that holds the packages' directories. -/
structure Registry where
  tree : Tree
  root : List String

namespace Registry

/-- The place of a path inside a registry. -/
def pathOf (r : Registry) (path : String) : List String := r.root ++ Tree.componentsOf path

/-- The directory of a version. -/
def packageDir (r : Registry) (spec : Spec) : List String := r.pathOf spec.registryPath

/-- The manifest of a version. -/
def manifestFile (r : Registry) (spec : Spec) : List String := r.packageDir spec ++ ["typst.toml"]

/-- Whether a registry has a version: whether there is a manifest. -/
def hasPackage (r : Registry) (spec : Spec) : Except Fault Bool :=
  match r.tree.find (r.manifestFile spec) with
  | .error _ => .error .nameTooLong
  | .ok (some (_, .file _)) => .ok true
  | .ok _ => .ok false

/-- The names of the entries of a directory. Those above the root are not known. -/
def entryNames (t : Tree) (dir : Place) : List String :=
  if dir.above != 0 then []
  else t.entries.filterMap fun (path, _) => if path.dropLast == dir.path then path.getLast? else none

/-- The version that a name in the directory at a path stands for, if it leads to a directory, also
through links, and is a version. -/
def versionAt (t : Tree) (path : List String) (name : String) : Except Fault (Option Version) :=
  (t.findDir (path ++ [name])).map fun dir? =>
    if dir?.isSome then (Version.parse name).toOption else none

/-- The versions of a package, in ascending order. Directories whose name is no version do not
count. -/
def versions (r : Registry) (namespaceName name : String) : Except Fault (List Version) := do
  let path := r.pathOf s!"packages/{namespaceName}/{name}"
  match ← r.tree.findDir path with
  | none => return []
  | some dir =>
    return Version.sort ((← (entryNames r.tree dir).mapM (versionAt r.tree path)).filterMap id)

/-- The greatest version of a package. -/
def latestVersion (r : Registry) (namespaceName name : String) : Except Fault (Option Version) :=
  (r.versions namespaceName name).map List.getLast?

/-- The greatest other version of a package. -/
def previousVersion (r : Registry) (spec : Spec) : Except Fault (Option Spec) :=
  (r.versions spec.namespaceName spec.name).map fun versions =>
    ((versions.filter (· != spec.version)).getLast?).map spec.withVersion

/-- The message about a version that a registry does not have. -/
def notFoundMessage (spec : Spec) : String :=
  s!"Package {spec.render} was not found in the local package repository"

/-- Loads a version with an overlay; none if there is neither a directory nor an overlay. -/
def load (r : Registry) (spec : Spec) (overlay : Option Overlay) :
    Except Fault (Option FileSet) := do
  let dir? ← r.tree.findDir (r.packageDir spec)
  if dir?.isNone && (overlay.getD []).isEmpty then return none
  return some (← r.tree.load (r.packageDir spec) overlay)

/-- The text of the manifest of a version, with line feeds as line ends, if it can be read. -/
def readManifest (r : Registry) (spec : Spec) : Option (List Char) :=
  match r.tree.find (r.manifestFile spec) with
  | .ok (some (_, .file content)) => (Text.Utf8.decode? content).map Text.unifyNewlines
  | _ => none

end Registry

end TypstLint
