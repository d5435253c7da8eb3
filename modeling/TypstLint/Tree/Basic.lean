import TypstLint.Text.Blank

set_option autoImplicit false

/-! # Directory trees

A `Tree` holds files, directories and symbolic links below a root. Every entry is named by the components
of its place below the root; the directories on the way are entries themselves. A `Place` can also lie
above the root: nothing is known there but the directories that lead to the root, so that a path out of
the tree and back into it still arrives (`child`, `parent`). -/

namespace TypstLint

/-- An entry of a tree. -/
inductive Node where
  | file (content : ByteArray)
  | dir
  | link (target : String)

/-- A place: a number of levels above the root of a tree, and components from there. -/
structure Place where
  above : Nat
  path : List String
  deriving DecidableEq, Repr

namespace Place

/-- The root of the tree. -/
def root : Place := ⟨0, []⟩

/-- Whether a place is another one or lies below it. -/
def isWithin (p q : Place) : Bool := p.above == q.above && q.path.isPrefixOf p.path

end Place

/-- A tree: its entries in the order in which they were made, and the names of the directories on the
way from the root of the file system to its root. A name that is not known is empty. -/
structure Tree where
  entries : List (List String × Node)
  location : List String := []

namespace Tree

/-- The tree without entries, in a place that is not known. -/
def empty : Tree := ⟨[], [""]⟩

/-- The place with a name in a directory. From above the root, the names of the location lead back. -/
def child (t : Tree) (p : Place) (name : String) : Place :=
  match p with
  | ⟨above + 1, []⟩ =>
    if t.location.reverse[above]? == some name then ⟨above, []⟩ else ⟨above + 1, [name]⟩
  | ⟨above, path⟩ => ⟨above, path ++ [name]⟩

/-- The place right above; there is none above the root of the file system. -/
def parent (t : Tree) (p : Place) : Place :=
  if !p.path.isEmpty then { p with path := p.path.dropLast }
  else if p.above < t.location.length then ⟨p.above + 1, []⟩
  else p

/-- The place that components lead to if every `..` undoes the component before it. -/
def descend (t : Tree) (p : Place) (components : List String) : Place :=
  components.foldl (fun p c =>
    if c.isEmpty || c == "." then p else if c == ".." then t.parent p else t.child p c) p

/-- Where the components of a link in a directory start: those of an absolute target start at the root
of the file system. -/
def targetStart (t : Tree) (p : Place) (target : List String) : Place :=
  if target.head? == some "" && target.length != 1 then ⟨t.location.length, []⟩ else p

/-- What is at a place. -/
def at? (t : Tree) (p : Place) : Option Node :=
  if p.path.isEmpty then some .dir else if p.above == 0 then t.entries.lookup p.path else none

/-- Whether there is a directory at a place. -/
def isDirAt (t : Tree) (p : Place) : Bool :=
  match t.at? p with
  | some .dir => true
  | _ => false

/-- The target of the link at a place. -/
def linkAt? (t : Tree) (p : Place) : Option String :=
  match t.at? p with
  | some (.link target) => some target
  | _ => none

/-- Adds an entry, or replaces the one at its place. -/
def put (t : Tree) (path : List String) (node : Node) : Tree :=
  if t.entries.any (·.1 == path) then
    { t with entries := t.entries.map fun (q, old) => if q == path then (q, node) else (q, old) }
  else { t with entries := t.entries ++ [(path, node)] }

/-- The components of a path in text form. -/
def componentsOf (path : String) : List String :=
  (Text.splitOn '/' path.toList).map String.ofList

end Tree

end TypstLint
