import TypstLint.Text.Blank

set_option autoImplicit false

/-! # Slash-separated paths

Normalising works on text alone: empty and `.` components vanish and `..` takes back the component
before it, if there is one to take back. -/

namespace TypstLint.Text.Path

/-- The components between slashes. -/
def components (p : List Char) : List (List Char) := splitOn '/' p

/-- The path with the given components. -/
def ofComponents (cs : List (List Char)) : List Char := joinWith ['/'] cs

/-- The leading slashes that normalising keeps: one, but two where there are exactly two. -/
def rootOf (p : List Char) : List Char :=
  match (p.takeWhile (· == '/')).length with
  | 0 => []
  | 2 => ['/', '/']
  | _ => ['/']

/-- Adds a component to a stack of components, last first. -/
def pushComponent (rooted : Bool) (stack : List (List Char)) (c : List Char) :
    List (List Char) :=
  if c == [] || c == ['.'] then stack
  else if c == ['.', '.'] then
    match stack with
    | [] => if rooted then [] else [c]
    | top :: below => if top == ['.', '.'] then c :: stack else below
  else c :: stack

/-- The components of the normal form. -/
def normalComponents (rooted : Bool) (cs : List (List Char)) : List (List Char) :=
  (cs.foldl (pushComponent rooted) []).reverse

/-- The normal form; `.` for the path that leads nowhere. -/
def normalizeChars (p : List Char) : List Char :=
  let root := rootOf p
  let path := root ++ ofComponents (normalComponents (!root.isEmpty) (components p))
  if path.isEmpty then ['.'] else path

/-- The path `q` seen from `p`. -/
def joinChars (p q : List Char) : List Char :=
  if q.head? == some '/' then q
  else if p.isEmpty || p.getLast? == some '/' then p ++ q
  else p ++ '/' :: q

/-- What stands before the last slash; trailing slashes go unless nothing else is left. -/
def parentChars (p : List Char) : List Char :=
  let head := (p.reverse.dropWhile (· != '/')).reverse
  if head.all (· == '/') then head else dropEndWhile (· == '/') head

/-- The normal form; `.` for the path that leads nowhere. -/
def normalize (p : String) : String := String.ofList (normalizeChars p.toList)

/-- The path `q` seen from `p`. -/
def join (p q : String) : String := String.ofList (joinChars p.toList q.toList)

/-- The components that matter when a path is shown or followed: neither empty nor `.`. -/
def properComponents (p : String) : List (List Char) :=
  (components p.toList).filter fun c => !(c.isEmpty || c == ['.'])

/-- A path as it is shown: without empty and `.` components, but with its `..`. -/
def display (p : String) : String :=
  let path := rootOf p.toList ++ ofComponents (properComponents p)
  if path.isEmpty then "." else String.ofList path

/-- The final component of a path as it is shown. -/
def fileName (p : String) : List Char := (properComponents p).getLast?.getD []

/-- Where the extension of a file name starts: its last dot, unless that is the first or the last
character. -/
def stemOf (name : List Char) : List Char :=
  let tail := name.reverse.takeWhile (· != '.')
  let stem := name.take (name.length - tail.length - 1)
  if tail.length == name.length || tail.isEmpty || stem.isEmpty then name else stem

/-- The path with the extension of its file name replaced by `extension`. -/
def withExtension (p extension : String) : String :=
  let name := fileName p
  let shown := (display p).toList
  String.ofList (shown.take (shown.length - name.length) ++ stemOf name) ++ extension

end TypstLint.Text.Path
