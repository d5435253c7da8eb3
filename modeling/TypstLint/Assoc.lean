set_option autoImplicit false

/-! # Association lists

Lists of names with values in which every name occurs once. A new name goes to the end, and a known one
keeps its place when it gets a new value (`set`), so a list tells in which order its names came in. -/

namespace TypstLint.Assoc

variable {α β : Type} [BEq α]

/-- Gives a name a value. -/
def set (entries : List (α × β)) (name : α) (value : β) : List (α × β) :=
  if entries.any (·.1 == name) then
    entries.map fun e => if e.1 == name then (name, value) else e
  else entries ++ [(name, value)]

/-- Removes a name. -/
def erase (entries : List (α × β)) (name : α) : List (α × β) := entries.filter (·.1 != name)

end TypstLint.Assoc
