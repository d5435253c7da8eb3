import TypstLint.Fault
import TypstLint.Tree.Basic

set_option autoImplicit false

/-! # Finding entries

A `walk` goes from place to place along a path and follows the links that it meets, up to a number of
them. Every component before the last one has to be a directory. With it entries are found (`find`) and
made (`make`).

Resolving (`resolve`) is another way to follow a path: it looks at links only, does not care whether
anything is there, and notices a link that leads back to itself instead of counting. In both, one level
of links is a recursion along the components (`walkWith`, `resolveWith`) that is given what to do at a
link, and the levels are added by a recursion on their number (`walkFrom`, `resolveFrom`). -/

namespace TypstLint.Tree

/-- Why a walk does not arrive. -/
inductive WalkError where
  | notFound
  | notDirectory
  /-- Too many links were followed. -/
  | loop
  /-- A name or the whole path is longer than a directory tree admits. -/
  | nameTooLong
  deriving DecidableEq, Repr

/-- The number of links that a walk follows at most. -/
def maxLinks : Nat := 40

/-- The number of bytes of a name at most. -/
def maxNameBytes : Nat := 255

/-- The number of bytes of a path at most, with the slashes. -/
def maxPathBytes : Nat := 4095

/-- Walks along components from a place. `follow` goes on from the directory of a link, along the
components of its target and those behind it. -/
def walkWith (t : Tree) (follow : Place → List String → Except WalkError Place) (p : Place) :
    List String → Except WalkError Place
  | [] => .ok p
  | c :: rest =>
    if !t.isDirAt p then .error .notDirectory
    else if c.isEmpty || c == "." then walkWith t follow p rest
    else if c == ".." then walkWith t follow (t.parent p) rest
    else if maxNameBytes < c.utf8ByteSize then .error .nameTooLong
    else
      match t.at? (t.child p c) with
      | none => .error .notFound
      | some (.link target) =>
        let target := componentsOf target
        follow (t.targetStart p target) (target ++ rest)
      | some _ => walkWith t follow (t.child p c) rest

/-- Walks along components from a place and follows at most `links` links. -/
def walkFrom (t : Tree) : Nat → Place → List String → Except WalkError Place
  | 0 => walkWith t fun _ _ => .error .loop
  | links + 1 => walkWith t (walkFrom t links)

/-- The place that components lead to from the root. -/
def walk (t : Tree) (components : List String) : Except WalkError Place :=
  if maxPathBytes < components.foldl (fun n c => n + c.utf8ByteSize + 1) 0 then .error .nameTooLong
  else walkFrom t maxLinks .root components

/-- What components lead to from the root; only a name that is too long is an error. -/
def find (t : Tree) (components : List String) : Except WalkError (Option (Place × Node)) :=
  match t.walk components with
  | .ok p => .ok ((t.at? p).map (p, ·))
  | .error .nameTooLong => .error .nameTooLong
  | .error _ => .ok none

/-! ## Making entries -/

/-- Makes the directories along components from a place that are missing, and returns the last one. -/
def makeDirs (t : Tree) (p : Place) : List String → Tree × Place
  | [] => (t, p)
  | c :: rest =>
    match walkFrom t maxLinks p [c] with
    | .ok q => makeDirs t q rest
    | .error _ => makeDirs (t.put (t.child p c).path .dir) (t.child p c) rest

/-- Makes an entry at a path, and the directories above it. A file is written through a link. -/
def make (t : Tree) (path : String) (node : Node) : Tree :=
  let components := (componentsOf path).filter fun c => !c.isEmpty && c != "."
  match components.reverse with
  | [] => t
  | name :: above =>
    let (t, dir) := t.makeDirs .root above.reverse
    match node with
    | .dir => (t.makeDirs dir [name]).1
    | .link _ => t.put (t.child dir name).path node
    | .file _ =>
      match walkFrom t maxLinks dir [name] with
      | .ok p => t.put p.path node
      | .error _ => t.put (t.child dir name).path node

/-- The tree of some entries, made in order. -/
def ofList (entries : List (String × Node)) : Tree :=
  entries.foldl (fun t (path, node) => t.make path node) empty

/-! ## Resolving links

Resolving replaces every link of a path by its target, whether anything is there or not; a `..` undoes
the component before it. Where a link leads back to itself the path stays as it is from there on. -/

/-- The links met so far; one that is being resolved has no place yet. -/
abbrev SeenLinks := List (List String × Option Place)

/-- What resolving leads to. -/
inductive Resolution where
  | place (p : Place)
  /-- A link that leads back to itself, and the components behind it. -/
  | loop (p : Place) (rest : List String)

/-- Resolves components from a place. `expand` resolves the target of a link. -/
def resolveWith (t : Tree)
    (expand : SeenLinks → Place → List String → Resolution × SeenLinks)
    (seen : SeenLinks) (p : Place) : List String → Resolution × SeenLinks
  | [] => (.place p, seen)
  | c :: rest =>
    if c.isEmpty || c == "." then resolveWith t expand seen p rest
    else if c == ".." then resolveWith t expand seen (t.parent p) rest
    else
      let next := t.child p c
      match t.linkAt? next with
      | none => resolveWith t expand seen next rest
      | some target =>
        match seen.lookup next.path with
        | some (some q) => resolveWith t expand seen q rest
        | some none => (.loop next rest, seen)
        | none =>
          let target := componentsOf target
          match expand ((next.path, none) :: seen) (t.targetStart p target) target with
          | (.loop q behind, seen) => (.loop q (behind ++ rest), seen)
          | (.place q, seen) => resolveWith t expand ((next.path, some q) :: seen) q rest

/-- Resolves components from a place; every level of links within links uses one up. -/
def resolveFrom (t : Tree) : Nat → SeenLinks → Place → List String → Resolution × SeenLinks
  | 0 => resolveWith t fun seen p target => (.loop p target, seen)
  | links + 1 => resolveWith t (resolveFrom t links)

/-- The place that the link at `components` leads to. A link that leads back to itself is a fault
unless the components behind it lead somewhere else. -/
def resolve (t : Tree) (components : List String) : Except Fault Place :=
  match (resolveFrom t t.entries.length [] .root components).1 with
  | .place p => .ok p
  | .loop p rest =>
    let q := t.descend p rest
    match walkFrom t maxLinks ⟨q.above, []⟩ q.path with
    | .error .loop => .error .linkLoop
    | _ => .ok q

end TypstLint.Tree
