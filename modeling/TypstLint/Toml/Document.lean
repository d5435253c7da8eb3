import TypstLint.Toml.Value

set_option autoImplicit false

/-! # Building a TOML document

A document grows key by key and header by header (`defineAt`, `openTable`, `appendTable`). The tree of
`Node`s remembers how each table came to be (`Origin`), because that decides what may still be added: a
table opened by its header is not opened again, the tables that dotted keys make belong to their section,
and inline tables and arrays are closed. -/

namespace TypstLint.Toml

/-- How a table came to be. -/
inductive Origin where
  /-- On the way to the table of a longer header. -/
  | implied
  /-- By a dotted key of the section with this number. -/
  | dotted (number : Nat)
  /-- By its own header. -/
  | header
  deriving DecidableEq

/-- A node of a document that is being built. -/
inductive Node where
  | value (v : Value)
  | table (origin : Origin) (members : List (String × Node))
  /-- An array of tables: those before the last one, and the last one. -/
  | tables (before : List (List (String × Node))) (last : List (String × Node))

/-- The members of a table that is being built. -/
abbrev Members := List (String × Node)

/-- Replaces the node with a name by what `f` makes of it, at its place or at the end. -/
def alter (name : String) (f : Option Node → Option Node) : Members → Option Members
  | [] => (f none).map fun node => [(name, node)]
  | (k, node) :: rest =>
    if k == name then (f (some node)).map fun node => (k, node) :: rest
    else (alter name f rest).map ((k, node) :: ·)

/-- Alters the node at the end of a path. Tables on the way are made where they are missing, and the
last table of an array stands for the array. -/
def alterAt (f : Option Node → Option Node) : List String → Members → Option Members
  | [], _ => none
  | [name], members => alter name f members
  | name :: path, members =>
    alter name (fun node =>
      match node with
      | none => (alterAt f path []).map (.table .implied ·)
      | some (.table origin inner) => (alterAt f path inner).map (.table origin ·)
      | some (.tables before last) => (alterAt f path last).map (.tables before ·)
      | some (.value _) => none) members

/-- Defines a key, which may be dotted, in a table. -/
def define (number : Nat) (v : Value) : List String → Members → Option Members
  | [], _ => none
  | [name], members =>
    alter name (fun node => if node.isNone then some (.value v) else none) members
  | name :: path, members =>
    alter name (fun node =>
      match node with
      | none => (define number v path []).map (.table (.dotted number) ·)
      | some (.table origin inner) =>
        if origin == .implied || origin == .dotted number then
          (define number v path inner).map (.table (.dotted number) ·)
        else none
      | some _ => none) members

/-- Opens the table of a header. -/
def openTable (path : List String) (members : Members) : Option Members :=
  alterAt (fun node =>
    match node with
    | none => some (.table .header [])
    | some (.table .implied inner) => some (.table .header inner)
    | some _ => none) path members

/-- Adds a table to the array of tables of a header. -/
def appendTable (path : List String) (members : Members) : Option Members :=
  alterAt (fun node =>
    match node with
    | none => some (.tables [] [])
    | some (.tables before last) => some (.tables (before ++ [last]) [])
    | some _ => none) path members

/-- Defines a key in the table of the header `path`. -/
def defineAt (number : Nat) (path : List String) (key : List String) (v : Value)
    (members : Members) : Option Members :=
  if path.isEmpty then define number v key members
  else
    alterAt (fun node =>
      match node with
      | some (.table origin inner) => (define number v key inner).map (.table origin ·)
      | some (.tables before last) => (define number v key last).map (.tables before ·)
      | _ => none) path members

mutual

/-- The value of a node. -/
def Node.toValue : Node → Value
  | .value v => v
  | .table _ members => .table (membersToValues members)
  | .tables before last => .array (tablesToValues before ++ [.table (membersToValues last)])

/-- The values of the members of a table. -/
def membersToValues : List (String × Node) → List (String × Value)
  | [] => []
  | (name, node) :: rest => (name, node.toValue) :: membersToValues rest

/-- The values of the tables of an array. -/
def tablesToValues : List (List (String × Node)) → List Value
  | [] => []
  | members :: rest => .table (membersToValues members) :: tablesToValues rest

end

end TypstLint.Toml
