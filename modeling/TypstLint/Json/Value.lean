import TypstLint.Text.Binary64
import TypstLint.Text.Span

set_option autoImplicit false

/-! # JSON values

The members of an object are kept in the order in which they are written; where a name is given
twice, reading keeps the place of the first and the value of the last. -/

namespace TypstLint.Json

/-- A JSON value. Besides the numbers of the standard there are the infinities and `nan`. -/
inductive Value where
  | null
  | bool (b : Bool)
  | int (n : Int)
  | real (x : Text.Binary64)
  | nan
  | str (s : String)
  | arr (items : List Value)
  | obj (members : List (String × Value))
  deriving Repr, Inhabited

namespace Value

/-- The value of a member of an object. -/
def get? : Value → String → Option Value
  | .obj members, name => (members.find? (·.1 == name)).map (·.2)
  | _, _ => none

/-- A text, or null. -/
def ofText? : Option String → Value
  | some s => .str s
  | none => .null

/-- Texts. -/
def ofTexts (texts : List String) : Value := .arr (texts.map .str)

/-- A natural number. -/
def ofNat (n : Nat) : Value := .int n

/-- A span, as the offsets of its ends. -/
def ofSpan (s : Text.Span) : Value := .arr [.int s.start, .int s.stop]

/-- An integer, or null. -/
def ofInt? : Option Int → Value
  | some n => .int n
  | none => .null

end Value

end TypstLint.Json
