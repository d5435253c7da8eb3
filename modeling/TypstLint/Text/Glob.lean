set_option autoImplicit false

/-! # File name patterns

`*` stands for any text, slashes included, `?` for any character, and `[…]` for one character of a
class; `!` at the start of a class turns it round. An unclosed bracket stands for itself. Inside a
class a hyphen between two characters makes a range, and a range that runs backwards is dropped
together with its end points. -/

namespace TypstLint.Text.Glob

/-- A character of a class, or the hyphen of a range. -/
inductive ClassItem where
  | char (c : Char)
  | hyphen
  deriving DecidableEq, Repr

/-- One element of a pattern. -/
inductive Token where
  | star
  | anyChar
  | literal (c : Char)
  | oneOf (negated : Bool) (ranges : List (Char × Char))
  deriving DecidableEq, Repr

/-! ## Classes -/

/-- Cuts the body of a class at the hyphens that make ranges. A hyphen can make a range only behind
at least one character, and the two characters behind it belong to the next piece. `guarded` counts
the characters that cannot be such a hyphen. -/
def classPieces (guarded : Nat) (piece : List Char) : List Char → List (List Char)
  | [] => [piece.reverse]
  | c :: cs =>
    match guarded with
    | guarded + 1 => classPieces guarded (c :: piece) cs
    | 0 => if c == '-' then piece.reverse :: classPieces 2 [] cs else classPieces 0 (c :: piece) cs

/-- A hyphen at the very end of a class makes no range: it joins the piece before it. -/
def closeTrailing : List (List Char) → List (List Char)
  | [] => []
  | [p] => [p]
  | [p, []] => [p ++ ['-']]
  | p :: ps => p :: closeTrailing ps

/-- Joins a piece with the pieces behind it, dropping a range that runs backwards. -/
def mergeBackwards (piece : List Char) : List (List Char) → List (List Char)
  | [] => [piece]
  | next :: rest =>
    match piece.getLast?, next.head? with
    | some a, some b => if b < a then (piece.dropLast ++ next.tail) :: rest else piece :: next :: rest
    | _, _ => piece :: next :: rest

/-- The pieces as one row of characters and range hyphens. -/
def classItems : List (List Char) → List ClassItem
  | [] => []
  | [p] => p.map .char
  | p :: ps => p.map .char ++ .hyphen :: classItems ps

/-- The ranges that a row of characters and hyphens stands for. A hyphen right after a range stands
for itself. -/
def classRanges : List ClassItem → List (Char × Char)
  | [] => []
  | .char a :: .hyphen :: .char b :: rest => (a, b) :: classRanges rest
  | .char a :: rest => (a, a) :: classRanges rest
  | .hyphen :: rest => ('-', '-') :: classRanges rest

/-- The element for a bracketed class with the given body. -/
def classToken (body : List Char) : Token :=
  let guarded := if body.head? == some '!' then 2 else 1
  let pieces := closeTrailing (classPieces guarded [] body)
  let items := classItems (pieces.foldr (fun p rest => mergeBackwards p rest) [])
  match items with
  | .char '!' :: rest => .oneOf true (classRanges rest)
  | items => .oneOf false (classRanges items)

/-! ## Patterns -/

/-- The body of a class, given what follows its opening bracket, or nothing if no bracket closes it.
A closing bracket right at the start, or right behind the exclamation mark, belongs to the body. -/
def classBody? (cs : List Char) : Option (List Char) :=
  let lead := if cs.head? == some '!' then 1 else 0
  let lead := if (cs.drop lead).head? == some ']' then lead + 1 else lead
  let tail := cs.drop lead
  if tail.contains ']' then some (cs.take lead ++ tail.takeWhile (· != ']')) else none

/-- The elements of a pattern; `skip` characters belong to the class before. -/
def tokensFrom (skip : Nat) : List Char → List Token
  | [] => []
  | c :: cs =>
    match skip with
    | skip + 1 => tokensFrom skip cs
    | 0 =>
      if c == '*' then .star :: tokensFrom 0 cs
      else if c == '?' then .anyChar :: tokensFrom 0 cs
      else if c == '[' then
        match classBody? cs with
        | some body => classToken body :: tokensFrom (body.length + 1) cs
        | none => .literal c :: tokensFrom 0 cs
      else .literal c :: tokensFrom 0 cs

/-- The elements of a pattern. -/
def tokens (pattern : List Char) : List Token := tokensFrom 0 pattern

/-- Whether an element for a single character admits `c`. -/
def Token.admits : Token → Char → Bool
  | .star, _ => false
  | .anyChar, _ => true
  | .literal a, c => a == c
  | .oneOf negated ranges, c => ranges.any (fun r => r.1 ≤ c && c ≤ r.2) != negated

/-- Whether some end of the text has property `p`. -/
def anySuffix (p : List Char → Bool) : List Char → Bool
  | [] => p []
  | c :: cs => p (c :: cs) || anySuffix p cs

/-- Whether the elements match the whole text. -/
def matchTokens : List Token → List Char → Bool
  | [], cs => cs.isEmpty
  | .star :: ts, cs => anySuffix (matchTokens ts) cs
  | t :: ts, cs =>
    match cs with
    | [] => false
    | c :: cs => t.admits c && matchTokens ts cs

/-! ## Matching all ends of a text at once -/

/-- What `p` says of every end of a text, the whole text first. -/
def overSuffixes (p : List Char → Bool) : List Char → List Bool
  | [] => [p []]
  | c :: cs => p (c :: cs) :: overSuffixes p cs

/-- For every place of a list, whether there is a `true` from there on. -/
def anyFrom (row : List Bool) : List Bool :=
  row.foldr (fun b rest => (b || rest.headD false) :: rest) []

/-- Whether the elements match the ends of a text, the whole text first. -/
def matchRow : List Token → List Char → List Bool
  | [], cs => cs.foldr (fun _ rest => false :: rest) [true]
  | .star :: ts, cs => anyFrom (matchRow ts cs)
  | t :: ts, cs => List.zipWith (fun c b => t.admits c && b) cs (matchRow ts cs).tail ++ [false]

/-- Whether the pattern matches the whole text. -/
def isMatch (pattern text : String) : Bool :=
  (matchRow (tokens pattern.toList) text.toList).headD false

theorem headD_overSuffixes (p : List Char → Bool) (cs : List Char) :
    (overSuffixes p cs).headD false = p cs := by
  cases cs <;> rfl

theorem anyFrom_overSuffixes (p : List Char → Bool) (cs : List Char) :
    anyFrom (overSuffixes p cs) = overSuffixes (anySuffix p) cs := by
  induction cs with
  | nil => simp [overSuffixes, anyFrom, anySuffix]
  | cons c cs ih =>
    have h : anyFrom (overSuffixes p (c :: cs))
        = (p (c :: cs) || (anyFrom (overSuffixes p cs)).headD false) :: anyFrom (overSuffixes p cs) := rfl
    rw [h, ih, headD_overSuffixes]
    rfl

theorem zipWith_overSuffixes (q : Char → Bool) (p : List Char → Bool) (cs : List Char) :
    List.zipWith (fun c b => q c && b) cs (overSuffixes p cs).tail ++ [false]
      = overSuffixes (fun | [] => false | c :: cs => q c && p cs) cs := by
  induction cs with
  | nil => rfl
  | cons c cs ih =>
    have h : overSuffixes p cs = p cs :: (overSuffixes p cs).tail := by cases cs <;> rfl
    simp only [overSuffixes, List.tail_cons]
    rw [h, List.zipWith_cons_cons, List.cons_append, ih]

/-- A row is the elements matched with one end of the text after another. -/
theorem matchRow_eq (ts : List Token) (cs : List Char) :
    matchRow ts cs = overSuffixes (matchTokens ts) cs := by
  induction ts with
  | nil =>
    induction cs with
    | nil => rfl
    | cons c cs ih => simp_all [matchRow, overSuffixes, matchTokens]
  | cons t ts ih =>
    cases t with
    | star =>
      have h : matchTokens (.star :: ts) = anySuffix (matchTokens ts) := by
        funext cs
        cases cs <;> rfl
      rw [matchRow, ih, anyFrom_overSuffixes, h]
    | _ =>
      simp only [matchRow, ih]
      rw [zipWith_overSuffixes]
      rfl

/-- A pattern matches a text if its elements do. -/
theorem isMatch_eq (pattern text : String) :
    isMatch pattern text = matchTokens (tokens pattern.toList) text.toList := by
  rw [isMatch, matchRow_eq, headD_overSuffixes]

end TypstLint.Text.Glob
