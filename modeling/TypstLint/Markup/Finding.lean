import TypstLint.Text.Span

set_option autoImplicit false

/-! # What a scan finds

A `Directive` brings in another file, a `Binding` defines a name at the top level of a file, and an
`Issue` is a place where the text does not lex. A scan yields them in the order of the text, as
`Finding`s; an `Outline` has them sorted by their kind. -/

namespace TypstLint.Markup

open Text (Span)

/-- The two words that bring in another file. -/
inductive DirectiveKind where
  | importing
  | including
  deriving DecidableEq, Repr

/-- The word of a directive. -/
def DirectiveKind.word : DirectiveKind → String
  | importing => "import"
  | including => "include"

/-- A string literal: the text it stands for and its place. -/
structure Literal where
  text : String
  span : Span
  deriving DecidableEq, Repr

/-- A directive. It has no target if the file is named by an expression other than a literal. -/
structure Directive where
  kind : DirectiveKind
  target : Option Literal
  span : Span
  items : List String := []
  wildcard : Bool := false
  newName : Option String := none
  deriving DecidableEq, Repr

/-- Whether a directive names a package. -/
def Directive.isPackage (d : Directive) : Bool := d.target.any (·.text.startsWith "@")

/-- A parameter of a closure; a named one has a default. -/
structure Param where
  name : String
  span : Span
  named : Bool
  deriving DecidableEq, Repr

/-- A binding at the top level of a file. -/
structure Binding where
  name : String
  span : Span
  params : List Param
  isClosure : Bool
  deriving DecidableEq, Repr

/-- What is wrong at a place. -/
inductive IssueKind where
  | unterminatedString
  | unterminatedComment
  | unterminatedRawText
  | unterminatedRawBlock
  | unclosed (delimiter : Char)
  deriving DecidableEq, Repr

/-- The wording of an issue. -/
def IssueKind.message : IssueKind → String
  | unterminatedString => "Unterminated string"
  | unterminatedComment => "Unterminated block comment"
  | unterminatedRawText => "Unterminated raw text"
  | unterminatedRawBlock => "Unterminated raw block"
  | unclosed delimiter => "Unclosed delimiter `" ++ String.ofList [delimiter, '\x60']

/-- A place where the text does not lex. -/
structure Issue where
  kind : IssueKind
  span : Span
  deriving DecidableEq, Repr

/-- The issue of a delimiter without partner. -/
def Issue.unclosedAt (delimiter : Char) (opener : Nat) : Issue :=
  ⟨.unclosed delimiter, .ofLength opener 1⟩

/-- What a scan finds, in the order of the text. -/
inductive Finding where
  | directive (d : Directive)
  | binding (b : Binding)
  | issue (i : Issue)
  deriving DecidableEq, Repr

/-- What a scan of a file found. -/
structure Outline where
  directives : List Directive
  bindings : List Binding
  issues : List Issue
  deriving DecidableEq, Repr

namespace Finding

/-- The directive that was found. -/
def directive? : Finding → Option Directive
  | directive d => some d
  | _ => none

/-- The binding that was found. -/
def binding? : Finding → Option Binding
  | binding b => some b
  | _ => none

/-- The issue that was found. -/
def issue? : Finding → Option Issue
  | issue i => some i
  | _ => none

end Finding

/-- Findings sorted by their kind. -/
def Outline.ofFindings (found : List Finding) : Outline where
  directives := found.filterMap Finding.directive?
  bindings := found.filterMap Finding.binding?
  issues := found.filterMap Finding.issue?

end TypstLint.Markup
