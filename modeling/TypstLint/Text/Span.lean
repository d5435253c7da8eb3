set_option autoImplicit false

/-! # Spans -/

namespace TypstLint.Text

/-- The characters of a text from the offset `start` up to the offset `stop`. -/
structure Span where
  start : Int
  stop : Int
  deriving DecidableEq, Repr

/-- The span of `length` characters from an offset on. -/
def Span.ofLength (start length : Nat) : Span := ⟨start, start + length⟩

/-- The span from one offset to another. -/
def Span.between (start stop : Nat) : Span := ⟨start, stop⟩

end TypstLint.Text
