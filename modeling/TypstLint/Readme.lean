import TypstLint.Text.Case
import TypstLint.Text.Character
import TypstLint.Text.Lines
import TypstLint.Text.Span

set_option autoImplicit false

/-! # The introduction to a package

An introduction is Markdown: lines, some of which belong to fenced code blocks (`scan`). A `Fence` opens
a block, and a line with nothing but the mark, at least as often, closes it. Alert boxes and task lists
are recognised line by line outside of blocks (`extensions`). -/

namespace TypstLint.Readme

open Text (Span)

/-! ## Fences -/

/-- The number of spaces at the start of a line, if there are at most three. -/
def indent? (line : List Char) : Option Nat :=
  let n := (line.takeWhile (· == ' ')).length
  if n ≤ 3 then some n else none

/-- What opens a code block: a run of a mark, and the language behind it. -/
structure Fence where
  mark : Char
  length : Nat
  language : String
  deriving DecidableEq, Repr

/-- The fence that a line opens a block with: at least three backticks or tildes. -/
def Fence.opening? (line : List Char) : Option Fence :=
  match indent? line with
  | none => none
  | some n =>
    match line.drop n with
    | [] => none
    | mark :: rest =>
      let length := 1 + (rest.takeWhile (· == mark)).length
      if (mark == '\x60' || mark == '~') && 3 ≤ length then
        let info := (rest.drop (length - 1)).dropWhile Text.isBlank
        let language := info.takeWhile fun c => c != '\x60' && !Text.isBlank c
        some ⟨mark, length, String.ofList (Text.toLower language)⟩
      else none

/-- Whether a line closes a block: nothing but the mark, at least as often as in the opening line. -/
def Fence.closes (fence : Fence) (line : List Char) : Bool :=
  let body := Text.trim line
  fence.length ≤ body.length && body.all (· == fence.mark)

/-! ## Lines and blocks -/

/-- A line without its line end, and whether it belongs to a code block. -/
structure Line where
  text : List Char
  start : Nat
  inCode : Bool
  deriving DecidableEq, Repr

/-- The span of a line. -/
def Line.span (line : Line) : Span := .ofLength line.start line.text.length

/-- A code block. Its span reaches from the opening line to the closing one. -/
structure Block where
  language : String
  body : List Char
  bodyStart : Nat
  span : Span
  deriving DecidableEq, Repr

/-- A block that is not closed yet; its lines are kept last one first. -/
structure OpenBlock where
  fence : Fence
  start : Nat
  bodyStart : Nat
  lines : List (List Char)

/-- The block that ends at an offset. -/
def OpenBlock.close (b : OpenBlock) (stop : Nat) : Block :=
  ⟨b.fence.language, b.lines.reverse.flatten, b.bodyStart, .between b.start stop⟩

/-- What was read of an introduction: lines and blocks, the latest one first, and the open block. -/
structure Scan where
  offset : Nat := 0
  lines : List Line := []
  blocks : List Block := []
  open? : Option OpenBlock := none

/-- Reads a line with its line end. -/
def Scan.read (s : Scan) (raw : List Char) : Scan :=
  let text := Text.dropEndWhile (fun c => c == '\r' || c == '\n') raw
  let next := s.offset + raw.length
  match s.open? with
  | none =>
    let opened := (Fence.opening? text).map fun fence => OpenBlock.mk fence s.offset next []
    { s with
      offset := next
      lines := ⟨text, s.offset, opened.isSome⟩ :: s.lines
      open? := opened }
  | some b =>
    let lines := ⟨text, s.offset, true⟩ :: s.lines
    if b.fence.closes text then
      { offset := next
        lines
        blocks := b.close (s.offset + text.length) :: s.blocks }
    else { s with offset := next, lines, open? := some { b with lines := raw :: b.lines } }

/-- An introduction. -/
structure Outline where
  lines : List Line
  blocks : List Block
  deriving DecidableEq, Repr

/-- Splits a text into lines and code blocks. A block that is not closed reaches to the end. -/
def scan (text : List Char) : Outline :=
  let s := (Text.lines text).foldl Scan.read {}
  ⟨s.lines.reverse, s.blocks.reverse ++ s.open?.toList.map (·.close s.offset)⟩

/-! ## Extensions -/

/-- A letter in a form in which its cases do not differ; a dot on a letter does not matter either. -/
def foldLetter (c : Char) : Char := if c == '\u0130' || c == '\u0131' then 'i' else c.toLower

/-- The kinds of alert boxes. -/
def alertKinds : List String := ["note", "tip", "important", "warning", "caution"]

/-- Whether a line starts an alert box: a quotation that starts with the kind of box in brackets. -/
def isAlert (line : List Char) : Bool :=
  (indent? line).any fun n =>
    match line.drop n with
    | '>' :: rest =>
      match rest.dropWhile Text.isBlank with
      | '[' :: '!' :: body =>
        alertKinds.any fun kind =>
          (kind.toList ++ [']']).isPrefixOf ((body.take (kind.length + 1)).map foldLetter)
      | _ => false
    | _ => false

/-- The text behind the mark of a list item: a bullet, or a number with a point or bracket. -/
def afterItemMark? (cs : List Char) : Option (List Char) :=
  match cs with
  | [] => none
  | c :: rest =>
    if c == '-' || c == '*' || c == '+' then some rest
    else
      let number := cs.takeWhile fun c => (Text.decimalDigit? c).isSome
      match cs.drop number.length with
      | mark :: rest =>
        if !number.isEmpty && (mark == '.' || mark == ')') then some rest else none
      | [] => none

/-- Whether a line is an item of a task list: a list item that starts with a box. -/
def isTask (line : List Char) : Bool :=
  match afterItemMark? (line.dropWhile Text.isBlank) with
  | none => false
  | some rest =>
    let body := rest.dropWhile Text.isBlank
    rest.head?.any Text.isBlank &&
      match body with
      | '[' :: box :: ']' :: tail =>
        (box == ' ' || box == 'x' || box == 'X') && (tail.head?.all Text.isBlank)
      | _ => false

/-- Whether a line ends a task list: it is blank, or it is not indented. -/
def endsTaskList (line : List Char) : Bool :=
  line.all Text.isBlank || !(line.head?.any fun c => c == ' ' || c == '\t')

/-- What an introduction uses that is not Markdown. -/
inductive Extension where
  | alert
  | taskList
  deriving DecidableEq, Repr

/-- The extensions that lines use, with their places. `inList` tells whether a task list goes on. -/
def extensions (inList : Bool) : List Line → List (Extension × Span)
  | [] => []
  | line :: rest =>
    if line.inCode then extensions false rest
    else
      let task := isTask line.text
      let found := (if isAlert line.text then [(Extension.alert, line.span)] else [])
        ++ (if task && !inList then [(.taskList, line.span)] else [])
      found ++ extensions (task || (inList && !endsTaskList line.text)) rest

end TypstLint.Readme
