import TypstLint.Markup.Cursor
import TypstLint.Markup.Group
import TypstLint.Text.Blank

set_option autoImplicit false

/-! # Directives

A directive is its word, a string literal and, after `import`, a new name for the module and the items
that are taken from it (`readDirective`, `readClauses`). The items stand in parentheses or go on to the
end of the line (`bareLength`). Either way they are split at every comma of the text (`itemNames`). -/

namespace TypstLint.Markup

/-- The name that an item binds: the one after `as`, or the last part of a path. -/
def itemName? (item : List Char) : Option (List Char) :=
  match Text.words item, (Text.words item).reverse with
  | first :: _ :: _ :: _, last :: word :: _ =>
    if word == "as".toList then some last else some (Text.afterLast '.' first)
  | first :: _, _ => some (Text.afterLast '.' first)
  | [], _ => none

/-- The names that a list of items binds. -/
def itemNames (body : List Char) : List String :=
  ((Text.splitOn ',' body).filterMap itemName?).map String.ofList

/-- The length of a list of items without parentheses: up to the end of the line or of the code around
it, or to a comment. `n` characters were read. -/
def bareLength (n : Nat) : List Char → Nat
  | [] => n
  | '/' :: '/' :: _ => n
  | '/' :: '*' :: _ => n
  | c :: rest =>
    if c == '\n' || c == ';' || c == ']' || c == '\x7d' then n else bareLength (n + 1) rest

/-- What stands behind the target of an import. -/
structure Clauses where
  newName : Option String := none
  items : List String := []
  wildcard : Bool := false
  issues : List Issue := []
  /-- The place behind the last clause. -/
  behind : Cursor

/-- Reads the name behind `as`; the cursor stands behind the target. -/
def readAlias (cur : Cursor) : Clauses :=
  let word := cur.skipBlanks
  if identOf word.rest == "as".toList then
    let behindWord := Cursor.advance 2 word
    let name := behindWord.skipBlanks
    let ident := identOf name.rest
    if ident.isEmpty then { behind := behindWord }
    else { newName := some (String.ofList ident), behind := Cursor.advance ident.length name }
  else { behind := cur }

/-- Reads the items behind a colon; the cursor stands behind the colon. -/
def readItems (clauses : Clauses) (cur : Cursor) : Except Fault Clauses :=
  let start := cur.skipBlanks
  if start.meets '*' then .ok { clauses with wildcard := true, behind := start.next }
  else if start.meets '(' then
    (Group.read start).map fun group =>
      { clauses with items := itemNames group.body, issues := group.issues, behind := group.behind }
  else
    let body := start.rest.take (bareLength 0 start.rest)
    .ok { clauses with
      items := itemNames body
      behind := Cursor.advance (Text.dropEndWhile Text.isBlank body).length start }

/-- Reads the clauses of an import; the cursor stands behind the target. -/
def readClauses (cur : Cursor) : Except Fault Clauses :=
  let clauses := readAlias cur
  let colon := clauses.behind.skipBlanks
  if colon.meets ':' then readItems clauses colon.next else .ok clauses

/-- Reads what may stand behind the target of a directive; only an import has clauses. -/
def DirectiveKind.readClauses (kind : DirectiveKind) (behind : Cursor) : Except Fault Clauses :=
  match kind with
  | .importing => Markup.readClauses behind
  | .including => .ok { behind }

/-- Reads a directive whose word started at `start`; the cursor stands behind the word. Without
a string literal the directive is its word alone. -/
def readDirective (kind : DirectiveKind) (start : Nat) (cur : Cursor) :
    Except Fault (Cursor × List Finding) := do
  let quote := cur.skipBlanks
  if !quote.meets '\x22' then
    return (cur, [.directive { kind, target := none, span := .between start cur.pos }])
  let (text?, length) ← readLiteral quote.rest
  let behind := Cursor.advance length quote
  let span := Text.Span.ofLength quote.pos length
  match text? with
  | none => return (behind, [.issue ⟨.unterminatedString, span⟩])
  | some text =>
    let clauses ← kind.readClauses behind
    let directive : Directive :=
      { kind
        target := some ⟨String.ofList text, span⟩
        span := .between start clauses.behind.pos
        items := clauses.items
        wildcard := clauses.wildcard
        newName := clauses.newName }
    return (clauses.behind, clauses.issues.map .issue ++ [.directive directive])

end TypstLint.Markup
