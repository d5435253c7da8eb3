import TypstLint.Package.FileSet
import TypstLint.Tree.Walk

set_option autoImplicit false

/-! # Loading a package from a tree

A package is read from a directory (`readPackage`): every file that lies physically below it, and every
link to a file below it. Links that lead out of the directory are not followed but recorded (`readLink`).
Directories of a version control system are left out.

An overlay has the last word on the paths that it names (`FileSet.overlaid`). It is laid over the files
that were read, so it changes nothing about the links that were recorded. -/

namespace TypstLint

/-- Changes to the files of a package: new content, or none where a file is removed. -/
abbrev Overlay := List (String × Option ByteArray)

/-- A file set with the changes of an overlay. -/
def FileSet.overlaid (fs : FileSet) (overlay : Overlay) : FileSet :=
  overlay.foldl (fun fs (path, content?) =>
    match content? with
    | some content => fs.insert path content
    | none => fs.erase path) fs

namespace Tree

/-- The name of directories that are left out. -/
def skippedDirectory : String := ".git"

/-- What an entry of a directory means for the package. -/
inductive Reading where
  | file (content : ByteArray)
  | escaped
  | nothing

/-- What the link at a path means for the package in the directory `root`. A link to a directory is
not entered, because what lies there is reached in its own place, or is none of the package. -/
def readLink (t : Tree) (root : Place) (path : List String) : Except Fault Reading :=
  let target? := (walkFrom t maxLinks .root path).toOption
  let leadsToDir := target?.any t.isDirAt
  if leadsToDir && path.getLast? == some skippedDirectory then .ok .nothing
  else
    (t.resolve path).map fun resolved =>
      if !resolved.isWithin root then .escaped
      else
        match target?.bind t.at? with
        | some (.file content) => .file content
        | _ => .nothing

/-- What an entry at a path means for the package in the directory `root`. -/
def readEntry (t : Tree) (root : Place) (path : List String) : Node → Except Fault Reading
  | .file content => .ok (.file content)
  | .dir => .ok .nothing
  | .link _ => t.readLink root path

/-- The entries below a directory, with the components of their paths from there; those in directories
that are left out do not count. -/
def entriesBelow (t : Tree) (root : Place) : List (List String × Node) :=
  if root.above != 0 then []
  else
    t.entries.filterMap fun (path, node) =>
      let inner := path.drop root.path.length
      if root.path.isPrefixOf path && !inner.isEmpty && !inner.dropLast.contains skippedDirectory then
        some (inner, node)
      else none

/-- The path of components in text form. -/
def pathText (components : List String) : String := "/".intercalate components

/-- The files of the package in the directory `root`, which is found at a path. -/
def readPackage (t : Tree) (path : List String) (root : Place) : Except Fault FileSet := do
  let readings ← (t.entriesBelow root).mapM fun (inner, node) => do
    return (pathText inner, ← t.readEntry root (path ++ inner) node)
  let files := readings.filterMap fun
    | (path, .file content) => some (path, content)
    | _ => none
  let escaped := readings.filterMap fun
    | (path, .escaped) => some path
    | _ => none
  return (FileSet.ofList files).withEscapedLinks escaped

/-- The directory at a path, if there is one. -/
def findDir (t : Tree) (path : List String) : Except Fault (Option Place) :=
  match t.find path with
  | .error _ => .error .nameTooLong
  | .ok (some (p, .dir)) => .ok (some p)
  | .ok _ => .ok none

/-- Loads the package in the directory at a path. A directory that does not exist is a fault unless
there is an overlay, which then is all there is of the package. -/
def load (t : Tree) (path : List String) (overlay : Option Overlay) : Except Fault FileSet := do
  let files ← match (← t.findDir path), overlay with
    | some root, _ => t.readPackage path root
    | none, some _ => pure .empty
    | none, none => throw .missingDirectory
  return files.overlaid (overlay.getD [])

end Tree

end TypstLint
