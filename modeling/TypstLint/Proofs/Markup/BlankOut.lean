import TypstLint.Proofs.Markup.ListText
import TypstLint.Proofs.Markup.Returns

set_option autoImplicit false

/-! # Blanks in the place of a comment

Blanks in the place of a comment leave everything as it is but for what the text of the comment does to the
statement behind it in a block, to the items of the list of an import and to the parameters of a closure
(`scan_blankOut`). -/

namespace TypstLint.Markup

variable {cs list tail rest past before blanks : List Char} {c : Char} {depth : Nat} {frame : Frame}
  {frames outer : List Frame} {group group' : Group}

/-! ## Groups -/

/-- A text in a group up to the parenthesis that closes the group, or all of it if there is none. -/
def upToClose (depth : Nat) (text : List Char) : List Char :=
  match findClose 0 0 depth text with
  | .ok (some close, _) => text.take close
  | _ => text

/-- A group with a comment between the parts `list` and `tail` of its text, and the group with blanks in
its place; `before` is what was read up to the comment, last character first. -/
structure Group.IsBlankedOut (before list cs tail : List Char) (group group' : Group) : Prop where
  closed_eq : group.closed = group'.closed
  issues_eq : group.issues = group'.issues
  body_eq : group.body = list ++ (cs ++ tail)
  body_eq' : group'.body = list ++ (blankOut cs ++ tail)
  behind : ∃ recent rest, (')' ∈ recent ∨ rest = [])
    ∧ group.behind = .between (recent ++ (cs.reverse ++ before)) rest
    ∧ group'.behind = .between (recent ++ ((blankOut cs).reverse ++ before)) rest

/-- A group that is closed is the text up to its end. -/
theorem Group.read_of_closed {body : List Char} {issues : List Issue}
    (h : findClose past.length 0 0 ('(' :: (body ++ ')' :: rest))
      = .ok (some (past.length + 1 + body.length), issues)) :
    Group.read (.between past ('(' :: (body ++ ')' :: rest)))
      = .ok ⟨body, true, issues, .between (')' :: (body.reverse ++ '(' :: past)) rest⟩ := by
  have hlength : past.length + 1 + body.length - past.length = ('(' :: body).length := by
    rw [List.length_cons]
    omega
  have htext : '(' :: (body ++ ')' :: rest) = '(' :: (body ++ [')']) ++ rest := by simp
  have hbehind : Cursor.advance (('(' :: body).length + 1) (.between past ('(' :: (body ++ ')' :: rest)))
      = .between (')' :: (body.reverse ++ '(' :: past)) rest := by
    have hsucc : ('(' :: body).length + 1 = ('(' :: (body ++ [')'])).length := by simp
    rw [hsucc, htext, Cursor.advance_over]
    simp
  have hbody : ('(' :: (body ++ ')' :: rest)).take ('(' :: body).length = '(' :: body := by
    rw [← List.cons_append, List.take_left]
  simp only [Group.read, Cursor.pos_between, Cursor.rest_between, h, Except.map, hlength, hbehind, hbody,
    List.drop_succ_cons, List.drop_zero]

/-- A group that is not closed is the rest of the text. -/
theorem Group.read_of_unclosed {text : List Char} {issues : List Issue}
    (h : findClose past.length 0 0 ('(' :: text) = .ok (none, issues)) :
    Group.read (.between past ('(' :: text))
      = .ok ⟨text, false, issues ++ [.unclosedAt '(' past.length], .between (text.reverse ++ '(' :: past) []⟩ := by
  have hend : (Cursor.between past ('(' :: text)).atEnd = .between (text.reverse ++ '(' :: past) [] := by
    rw [Cursor.atEnd, Cursor.rest_between, Cursor.advance_between, List.take_length, List.drop_length]
    simp
  simp only [Group.read, Cursor.pos_between, Cursor.rest_between, h, Except.map, hend, List.drop_succ_cons,
    List.drop_zero]

/-- The comment hides nothing from the search for the end of the group. -/
theorem Group.read_blankOut {admits : List Char → Prop} (hcs : IsComment cs)
    (hlist : ListText admits 1 list depth) (past rest : List Char) :
    Agree (Group.IsBlankedOut (list.reverse ++ '(' :: past) list cs (upToClose depth rest))
      (Group.read (.between past ('(' :: (list ++ (cs ++ rest)))))
      (Group.read (.between past ('(' :: (list ++ (blankOut cs ++ rest))))) := by
  have hopen : ∀ text, findClose past.length 0 0 ('(' :: text) = findClose (past.length + 1) 0 1 text :=
    fun text => rfl
  have hfind : findClose past.length 0 0 ('(' :: (list ++ (cs ++ rest)))
      = findClose (0 + (past.length + 1 + list.length + cs.length)) 0 depth rest := by
    rw [hopen, hlist.findClose_eq, findClose_comment hcs, Nat.zero_add]
  have hfind' : findClose past.length 0 0 ('(' :: (list ++ (blankOut cs ++ rest)))
      = findClose (0 + (past.length + 1 + list.length + cs.length)) 0 depth rest := by
    rw [hopen, hlist.findClose_eq, findClose_blankOut, Nat.zero_add]
  rw [findClose_add] at hfind hfind'
  cases hclose : findClose 0 0 depth rest with
  | error fault =>
    rw [hclose] at hfind hfind'
    simp only [Group.read, Cursor.pos_between, Cursor.rest_between, hfind, hfind']
    exact .error fault
  | ok result =>
    obtain ⟨close?, issues⟩ := result
    rw [hclose] at hfind hfind'
    cases close? with
    | none =>
      rw [Group.read_of_unclosed hfind, Group.read_of_unclosed hfind']
      exact .ok
        { closed_eq := rfl
          issues_eq := rfl
          body_eq := by simp [upToClose, hclose]
          body_eq' := by simp [upToClose, hclose]
          behind := ⟨rest.reverse, [], .inr rfl, by simp, by simp⟩ }
    | some close =>
      obtain ⟨body, rest, rfl, hpos⟩ := exists_of_findClose hclose
      obtain rfl : close = body.length := by omega
      have htail : upToClose depth (body ++ ')' :: rest) = body := by simp [upToClose, hclose]
      have hend : ∀ inner : List Char, inner.length = cs.length →
          body.length + (past.length + 1 + list.length + cs.length)
            = past.length + 1 + (list ++ (inner ++ body)).length := by
        intro inner hinner
        simp only [List.length_append, hinner]
        omega
      have hassoc : ∀ inner : List Char,
          list ++ (inner ++ (body ++ ')' :: rest)) = list ++ (inner ++ body) ++ ')' :: rest := by simp
      simp only [Except.map, Option.map_some, hassoc] at hfind hfind'
      rw [hend cs rfl] at hfind
      rw [hend (blankOut cs) (length_blankOut cs)] at hfind'
      rw [hassoc, hassoc, Group.read_of_closed hfind, Group.read_of_closed hfind', htail]
      exact .ok
        { closed_eq := rfl
          issues_eq := rfl
          body_eq := rfl
          body_eq' := rfl
          behind := ⟨')' :: body.reverse, rest, .inl List.mem_cons_self, by simp, by simp⟩ }

theorem Group.IsBlankedOut.pos_eq (h : Group.IsBlankedOut before list cs tail group group') :
    group.behind.pos = group'.behind.pos := by
  obtain ⟨recent, rest, -, hbehind, hbehind'⟩ := h.behind
  simp [hbehind, hbehind']

/-- Behind the group scans do the same. -/
theorem Group.IsBlankedOut.outlineFrom_eq (h : Group.IsBlankedOut before list cs tail group group')
    (hcs : IsComment cs) (hopened : ∀ frame ∈ frames, frame.opener < before.length) :
    outlineFrom ⟨group.behind, frames⟩ = outlineFrom ⟨group'.behind, frames⟩ := by
  obtain ⟨recent, rest, hrecent, hbehind, hbehind'⟩ := h.behind
  rw [hbehind, hbehind']
  rcases hrecent with hparen | rfl
  · have halike : State.Alike (before.reverse ++ cs) (before.reverse ++ blankOut cs) 0
        ⟨.between (recent ++ (cs.reverse ++ before)) rest, frames⟩
        ⟨.between (recent ++ ((blankOut cs).reverse ++ before)) rest, frames⟩ :=
      ⟨matches_blankOut hcs hopened recent rest, sameBehind_scheme_blankOut hcs before recent,
        fun _ => sameBehind_statement ⟨')', hparen, by decide⟩⟩
    rw [outlineFrom_alike halike]
    simp only [Outline.shift_zero]
    cases outlineFrom _ <;> rfl
  · rw [outlineFrom_of_nil rfl, outlineFrom_of_nil rfl]

/-! ## Statements -/

/-- A statement is read where it starts, and the text goes on behind what was read. -/
theorem outlineFrom_statement {word : List Char} {result : Except Fault (Cursor × List Finding)}
    (hcode : frame.isCode = true) (hword : IsIdent word)
    (hread : wordStep frame ⟨.between past (word ++ rest), frame :: outer⟩
      = result.map fun (cursor, found) => (⟨cursor, frame :: outer⟩, found)) :
    outlineFrom ⟨.between past (word ++ rest), frame :: outer⟩
      = result.bind fun (cursor, found) =>
        (outlineFrom ⟨cursor, frame :: outer⟩).map (Outline.ofFindings found).append := by
  obtain ⟨c, more, hcons, hc, -⟩ := hword.exists_start
  have hhead : word ++ rest = c :: (more ++ rest) := by rw [hcons, List.cons_append]
  have hstep : State.step c ⟨.between past (word ++ rest), frame :: outer⟩
      = result.map fun (cursor, found) => (⟨cursor, frame :: outer⟩, found) := by
    rw [step_eq_codeStep hcode, codeStep_of_isIdentStart _ hhead hc, hread]
  cases result with
  | error fault => exact outlineFrom_of_error hhead hstep
  | ok outcome =>
    exact (Runs.one (s := ⟨.between past (word ++ rest), frame :: outer⟩) hhead hstep).outlineFrom_eq

/-! ## Imports -/

/-- The text of the new name of a module, if it has one. -/
inductive AliasText : List Char → Option String → Prop
  | none : AliasText [] none
  | some {blanks blanks' name : List Char} : (∀ c ∈ blanks, isInlineBlank c = true) →
      (∀ c ∈ blanks', isInlineBlank c = true) → blanks' ≠ [] → IsIdent name →
      AliasText (blanks ++ ("as".toList ++ (blanks' ++ name))) (some (String.ofList name))

/-- The text of an import between its word and the parenthesis of its items. -/
inductive ImportHead : List Char → Prop
  | mk {blanks literal contents renamed blanks' blanks'' : List Char} {newName : Option String} :
      (∀ c ∈ blanks, isInlineBlank c = true) → literal.head? = some '\x22' →
      (∀ rest, readLiteral (literal ++ rest) = .ok (some contents, literal.length)) →
      AliasText renamed newName → (∀ c ∈ blanks', isInlineBlank c = true) →
      (∀ c ∈ blanks'', isInlineBlank c = true) →
      ImportHead (blanks ++ (literal ++ (renamed ++ (blanks' ++ ':' :: blanks''))))

theorem isIdentContinue_of_isInlineBlank (h : isInlineBlank c = true) : isIdentContinue c = false := by
  have hblank : c = ' ' ∨ c = '\t' := by simpa [isInlineBlank] using h
  rcases hblank with rfl | rfl <;> decide

theorem isInlineBlank_of_isIdentStart (h : isIdentStart c = true) : isInlineBlank c = false := by
  rw [isInlineBlank, ne_of_isIdentStart h (by decide), ne_of_isIdentStart h (by decide), Bool.or_false]

/-- Behind blanks and a colon, or other blanks, no word goes on. -/
theorem isIdentContinue_head_blanks (hblanks : ∀ c ∈ blanks, isInlineBlank c = true) :
    ∀ c ∈ (blanks ++ ':' :: rest).head?, isIdentContinue c = false := by
  cases blanks with
  | nil =>
    rintro c ⟨rfl⟩
    decide
  | cons d blanks =>
    rintro c ⟨rfl⟩
    exact isIdentContinue_of_isInlineBlank (hblanks d List.mem_cons_self)

theorem readAlias_text {renamed : List Char} {newName : Option String} (h : AliasText renamed newName)
    (hblanks : ∀ c ∈ blanks, isInlineBlank c = true) :
    readAlias (.between past (renamed ++ (blanks ++ ':' :: rest)))
      = { newName, behind := .between (renamed.reverse ++ past) (blanks ++ ':' :: rest) } := by
  cases h with
  | none =>
    have hskip : (Cursor.between past (blanks ++ ':' :: rest)).skipBlanks
        = .between (blanks.reverse ++ past) (':' :: rest) :=
      Cursor.skipBlanks_between hblanks (by
        rintro c ⟨rfl⟩
        decide)
    have hident : (identOf (':' :: rest) == "as".toList) = false := rfl
    simp only [readAlias, List.nil_append, hskip, Cursor.rest_between, hident, Bool.false_eq_true, if_false]
    rfl
  | @some blanks₁ blanks₂ name hblanks₁ hblanks₂ hne hname =>
    obtain ⟨c, more, hcons, hc, -⟩ := hname.exists_start
    obtain ⟨d, blanks₃, rfl⟩ := List.exists_cons_of_ne_nil hne
    have hskip : ∀ text, (Cursor.between past (blanks₁ ++ ("as".toList ++ text))).skipBlanks
        = .between (blanks₁.reverse ++ past) ("as".toList ++ text) := fun text =>
      Cursor.skipBlanks_between hblanks₁ (by
        rintro c ⟨rfl⟩
        decide)
    have hword : ∀ text, identOf ("as".toList ++ (d :: text)) = "as".toList := fun text =>
      IsIdent.identOf_append (by decide) (by
        rintro c ⟨rfl⟩
        exact isIdentContinue_of_isInlineBlank (hblanks₂ d List.mem_cons_self))
    have hskip' : ∀ past : List Char,
        (Cursor.between past (d :: blanks₃ ++ (name ++ (blanks ++ ':' :: rest)))).skipBlanks
          = .between ((d :: blanks₃).reverse ++ past) (name ++ (blanks ++ ':' :: rest)) := fun past =>
      Cursor.skipBlanks_between hblanks₂ (by
        rw [hcons]
        rintro c ⟨rfl⟩
        exact isInlineBlank_of_isIdentStart hc)
    have hadvance : ∀ past text : List Char,
        Cursor.advance 2 (.between past ("as".toList ++ text)) = .between ("as".toList.reverse ++ past) text :=
      fun past text => Cursor.advance_over "as".toList past text
    have hident : identOf (name ++ (blanks ++ ':' :: rest)) = name :=
      hname.identOf_append (isIdentContinue_head_blanks hblanks)
    have hempty : name.isEmpty = false := by simpa using hname.1
    simp only [readAlias, List.append_assoc, hskip, Cursor.rest_between, List.cons_append, hword,
      beq_self_eq_true, if_true, hadvance]
    simp only [← List.cons_append, hskip', Cursor.rest_between, hident, hempty, Cursor.advance_over,
      Bool.false_eq_true, if_false]
    simp

theorem head?_literal_notBlank {literal : List Char} (hopen : literal.head? = some '\x22') :
    ∀ c ∈ (literal ++ rest).head?, isInlineBlank c = false := by
  obtain ⟨more, rfl⟩ := List.head?_eq_some_iff.mp hopen
  rintro c ⟨rfl⟩
  decide

/-- The directive of an import that starts at `start`, with a literal at `pos` that is read as `contents`. -/
def importOf (start pos length : Nat) (contents : List Char) (clauses : Clauses) : Directive where
  kind := .importing
  target := some ⟨String.ofList contents, .ofLength pos length⟩
  span := .between start clauses.behind.pos
  items := clauses.items
  wildcard := clauses.wildcard
  newName := clauses.newName

/-- The literal behind the word of an import is its target, behind which its clauses are read. -/
theorem readDirective_literal {literal contents : List Char} (hblanks : ∀ c ∈ blanks, isInlineBlank c = true)
    (hopen : literal.head? = some '\x22')
    (hread : ∀ rest, readLiteral (literal ++ rest) = .ok (some contents, literal.length)) (start : Nat)
    (past rest : List Char) :
    readDirective .importing start (.between past (blanks ++ (literal ++ rest)))
      = (readClauses (.between (literal.reverse ++ (blanks.reverse ++ past)) rest)).map fun clauses =>
        (clauses.behind, clauses.issues.map .issue
          ++ [.directive (importOf start (blanks.reverse ++ past).length literal.length contents clauses)]) := by
  have hquote : (Cursor.between past (blanks ++ (literal ++ rest))).skipBlanks
      = .between (blanks.reverse ++ past) (literal ++ rest) :=
    Cursor.skipBlanks_between hblanks (head?_literal_notBlank hopen)
  have hmeets : (Cursor.between (blanks.reverse ++ past) (literal ++ rest)).meets '\x22' = true := by
    obtain ⟨more, rfl⟩ := List.head?_eq_some_iff.mp hopen
    rfl
  simp only [readDirective, hquote, hmeets, Cursor.rest_between, hread, bind, Except.bind, Cursor.advance_over,
    DirectiveKind.readClauses, Bool.not_true, Bool.false_eq_true, if_false]
  cases readClauses _ <;> rfl

/-- Behind the new name of a module, if it has one, and a colon its items are read. -/
theorem readClauses_text {renamed : List Char} {newName : Option String} (h : AliasText renamed newName)
    (hblanks : ∀ c ∈ blanks, isInlineBlank c = true) (past rest : List Char) :
    readClauses (.between past (renamed ++ (blanks ++ ':' :: rest)))
      = readItems { newName, behind := .between (renamed.reverse ++ past) (blanks ++ ':' :: rest) }
        (.between (':' :: (blanks.reverse ++ (renamed.reverse ++ past))) rest) := by
  have hcolon : (Cursor.between (renamed.reverse ++ past) (blanks ++ ':' :: rest)).skipBlanks
      = .between (blanks.reverse ++ (renamed.reverse ++ past)) (':' :: rest) := by
    refine Cursor.skipBlanks_between hblanks ?_
    rintro c ⟨rfl⟩
    decide
  have hmeets : (Cursor.between (blanks.reverse ++ (renamed.reverse ++ past)) (':' :: rest)).meets ':' = true := rfl
  simp only [readClauses, readAlias_text h hblanks, hcolon, hmeets, Cursor.next_between, if_true]

/-- The items in parentheses are those of a group. -/
theorem readItems_paren (hblanks : ∀ c ∈ blanks, isInlineBlank c = true) (clauses : Clauses) (past rest : List Char) :
    readItems clauses (.between past (blanks ++ '(' :: rest))
      = (Group.read (.between (blanks.reverse ++ past) ('(' :: rest))).map fun group =>
        { clauses with items := itemNames group.body, issues := group.issues, behind := group.behind } := by
  have hstart : (Cursor.between past (blanks ++ '(' :: rest)).skipBlanks
      = .between (blanks.reverse ++ past) ('(' :: rest) := by
    refine Cursor.skipBlanks_between hblanks ?_
    rintro c ⟨rfl⟩
    decide
  have hstar : (Cursor.between (blanks.reverse ++ past) ('(' :: rest)).meets '*' = false := rfl
  have hparen : (Cursor.between (blanks.reverse ++ past) ('(' :: rest)).meets '(' = true := rfl
  simp only [readItems, hstart, hstar, hparen, Bool.false_eq_true, if_true, if_false]

/-- The list of an import is its group. -/
theorem readDirective_list {head : List Char} (h : ImportHead head) (past : List Char) :
    ∃ target newName, ∀ start text,
      readDirective .importing start (.between past (head ++ '(' :: text))
        = (Group.read (.between (head.reverse ++ past) ('(' :: text))).map fun group =>
          (group.behind, group.issues.map .issue ++ [.directive
            { kind := .importing, target, span := .between start group.behind.pos,
              items := itemNames group.body, newName }]) := by
  cases h with
  | @mk blanks literal contents renamed blanks' blanks'' newName hblanks hopen hread hrenamed hblanks'
    hblanks'' =>
  refine ⟨some ⟨String.ofList contents, .ofLength (blanks.reverse ++ past).length literal.length⟩, newName,
    fun start text => ?_⟩
  have hpast : (blanks ++ (literal ++ (renamed ++ (blanks' ++ ':' :: blanks'')))).reverse ++ past
      = blanks''.reverse ++ ':' :: (blanks'.reverse ++ (renamed.reverse ++ (literal.reverse
        ++ (blanks.reverse ++ past)))) := by simp
  simp only [List.append_assoc, List.cons_append]
  rw [readDirective_literal hblanks hopen hread, readClauses_text hrenamed hblanks', readItems_paren hblanks'', hpast]
  cases Group.read _ <;> rfl

theorem ImportHead.head_notContinue {head : List Char} (h : ImportHead head) :
    ∀ c ∈ (head ++ rest).head?, isIdentContinue c = false := by
  cases h with
  | @mk blanks literal _ _ _ _ _ hblanks hopen =>
  obtain ⟨more, rfl⟩ := List.head?_eq_some_iff.mp hopen
  cases blanks with
  | nil =>
    rintro c ⟨rfl⟩
    decide
  | cons d blanks =>
    rintro c ⟨rfl⟩
    exact isIdentContinue_of_isInlineBlank (hblanks d List.mem_cons_self)

/-- Where a statement starts does not depend on what comes next. -/
theorem startsStatement_between (frame : Frame) (past rest rest' : List Char) :
    startsStatement frame (.between past rest) = startsStatement frame (.between past rest') := by
  cases frame with
  | code opener parens => cases parens <;> rfl
  | content | math | embed => rfl

/-- An import is read where a statement starts, and the text goes on behind its clauses. -/
theorem outlineFrom_import {rest' : List Char} (hcode : frame.isCode = true)
    (hstarts : startsStatement frame (.between past rest') = true)
    (hrest : ∀ c ∈ rest.head?, isIdentContinue c = false) :
    outlineFrom ⟨.between past ("import".toList ++ rest), frame :: outer⟩
      = (readDirective .importing (statementPos frame (.between past rest'))
          (.between ("import".toList.reverse ++ past) rest)).bind fun (cursor, found) =>
        (outlineFrom ⟨cursor, frame :: outer⟩).map (Outline.ofFindings found).append := by
  have hword : IsIdent "import".toList := by decide
  refine outlineFrom_statement hcode hword ?_
  have hident : identOf ("import".toList ++ rest) = "import".toList := hword.identOf_append hrest
  have hkind : directiveKind? "import".toList = some .importing := by decide
  have hstarts' : startsStatement frame (.between past ("import".toList ++ rest)) = true :=
    (startsStatement_between ..).trans hstarts
  have hpos : statementPos frame (.between past ("import".toList ++ rest))
      = statementPos frame (.between past rest') := by cases frame <;> rfl
  simp only [wordStep, hstarts', Cursor.rest_between, hident, hkind, hpos, Cursor.advance_over,
    Bool.not_true, Bool.false_eq_true, if_false]

/-- What was found with other items of the directive number `n`. -/
def Outline.withItems (n : Nat) (items : List String) (o : Outline) : Outline :=
  { o with directives := o.directives.modify n fun d => { d with items } }

/-- In the list of an import a comment is like blanks but for the items: the text of the list is split at
its commas with the comment in it. -/
theorem outlineFrom_blankOut_items {admits : List Char → Prop} {head : List Char} (hcs : IsComment cs)
    (hhead : ImportHead head) (hlist : ListText admits 1 list depth) (hcode : frame.isCode = true)
    (hstarts : startsStatement frame (.between past rest) = true)
    (hopened : ∀ frame' ∈ frame :: outer, frame'.opener < past.length) :
    outlineFrom ⟨.between past ("import".toList ++ (head ++ '(' :: (list ++ (cs ++ rest)))), frame :: outer⟩
      = (outlineFrom ⟨.between past ("import".toList ++ (head ++ '(' :: (list ++ (blankOut cs ++ rest)))),
          frame :: outer⟩).map
        (·.withItems 0 (itemNames (list ++ (cs ++ upToClose depth rest)))) := by
  obtain ⟨target, newName, hread⟩ := readDirective_list hhead ("import".toList.reverse ++ past)
  have houtline : ∀ text, outlineFrom ⟨.between past ("import".toList ++ (head ++ '(' :: text)), frame :: outer⟩
      = (readDirective .importing (statementPos frame (.between past rest))
          (.between ("import".toList.reverse ++ past) (head ++ '(' :: text))).bind fun (cursor, found) =>
        (outlineFrom ⟨cursor, frame :: outer⟩).map (Outline.ofFindings found).append :=
    fun text => outlineFrom_import hcode hstarts hhead.head_notContinue
  have hbefore : ∀ frame' ∈ frame :: outer, frame'.opener
      < (list.reverse ++ '(' :: (head.reverse ++ ("import".toList.reverse ++ past))).length := by
    intro frame' hframe
    have hlt := hopened frame' hframe
    simp only [List.length_append, List.length_cons]
    omega
  have hgroup := Group.read_blankOut hcs hlist (head.reverse ++ ("import".toList.reverse ++ past)) rest
  rw [houtline, houtline, hread, hread]
  revert hgroup
  generalize Group.read (.between _ ('(' :: (list ++ (cs ++ rest)))) = result,
    Group.read (.between _ ('(' :: (list ++ (blankOut cs ++ rest)))) = result'
  intro hgroup
  cases hgroup with
  | error fault => rfl
  | @ok group group' h =>
    simp only [Except.map, Except.bind]
    rw [h.outlineFrom_eq hcs hbefore]
    cases hlater : outlineFrom ⟨group'.behind, frame :: outer⟩ with
    | error fault => rfl
    | ok later =>
      simp only [h.issues_eq, h.pos_eq, h.body_eq, Outline.ofFindings_append]
      simp only [Outline.append, Outline.withItems, Outline.ofFindings, filterMap_directive?_issues,
        List.nil_append]
      rfl

/-! ## Closures -/

/-- The parts of a list have the same issues with a comment without quotes and with blanks in its place. -/
theorem splitSegments_blankOut (hlist : ListText ('\x22' ∉ ·) 1 list depth) (hquote : '\x22' ∉ cs) (tail : List Char)
    (pos : Nat) (segments : Segments) (rest : List Char) :
    Agree (fun parts parts' : List Segment × List Issue => parts.2 = parts'.2)
      (splitSegments (list ++ (cs ++ tail)).length pos 0 0 segments (list ++ (cs ++ rest)))
      (splitSegments (list ++ (blankOut cs ++ tail)).length pos 0 0 segments
        (list ++ (blankOut cs ++ rest))) := by
  have hquote' : '\x22' ∉ blankOut cs := fun hmem => by
    rcases mem_blankOut hmem with h | h <;> cases h
  obtain ⟨level, segments₁, hfirst⟩ := hlist.splitsOver pos 0 segments
  obtain ⟨level₂, segments₂, hcomment⟩ := splitsOver_of_no_quote hquote (pos + list.length) level segments₁
  obtain ⟨level₃, segments₃, hblanks⟩ := splitsOver_of_no_quote hquote' (pos + list.length) level segments₁
  simp only [List.length_append, hfirst, hcomment, hblanks]
  rw [length_blankOut]
  exact splitSegments_agree ..

/-- What a closure leads to: the issues of its group, and those of its parts and its binding if the group is
closed. -/
def closureResult (topLevel : Bool) (binding : Binding) (group : Group)
    (parts : Except Fault (List Segment × List Issue)) : Except Fault (Cursor × List Finding) :=
  if group.closed then
    parts.map fun (segments, issues) =>
      (group.behind, (group.issues ++ issues).map .issue ++
        if topLevel then [.binding { binding with params := segments.filterMap Segment.param? }] else [])
  else .ok (group.behind, group.issues.map .issue)

theorem readBinding_closure {name : List Char} (topLevel : Bool)
    (hblanks : ∀ c ∈ blanks, isInlineBlank c = true) (hname : IsIdent name) (past text : List Char) :
    readBinding topLevel (.between past (blanks ++ (name ++ '(' :: text)))
      = (Group.read (.between (name.reverse ++ (blanks.reverse ++ past)) ('(' :: text))).bind fun group =>
        closureResult topLevel
          ⟨String.ofList name, .ofLength (blanks.reverse ++ past).length name.length, [], true⟩ group
          (splitSegments group.body.length ('(' :: (name.reverse ++ (blanks.reverse ++ past))).length 0 0
            { start := ('(' :: (name.reverse ++ (blanks.reverse ++ past))).length } text) := by
  have hskip : (Cursor.between past (blanks ++ (name ++ '(' :: text))).skipBlanks
      = .between (blanks.reverse ++ past) (name ++ '(' :: text) := by
    obtain ⟨c, more, rfl, hc, -⟩ := hname.exists_start
    refine Cursor.skipBlanks_between hblanks ?_
    rintro d ⟨rfl⟩
    exact isInlineBlank_of_isIdentStart hc
  have hident : identOf (name ++ '(' :: text) = name := hname.identOf_append (by
    rintro c ⟨rfl⟩
    decide)
  have hempty : name.isEmpty = false := by simpa using hname.1
  have hmeets : ∀ past : List Char, (Cursor.between past ('(' :: text)).meets '(' = true := fun past => rfl
  simp only [readBinding, hskip, Cursor.rest_between, hident, hempty, Cursor.advance_over, hmeets,
    Cursor.next_between, Cursor.pos_between, Bool.not_true, Bool.false_eq_true, if_false, bind]
  cases Group.read (.between (name.reverse ++ (blanks.reverse ++ past)) ('(' :: text)) with
  | error fault => rfl
  | ok group =>
    simp only [Except.bind, closureResult]
    cases group.closed with
    | false => rfl
    | true =>
      simp only [Bool.not_true, Bool.false_eq_true, if_false, if_true]
      cases splitSegments group.body.length _ 0 0 _ text <;> rfl

/-- A binding is read where a statement starts, and the text goes on behind it. -/
theorem outlineFrom_let {rest' : List Char} (hcode : frame.isCode = true)
    (hstarts : startsStatement frame (.between past rest') = true)
    (hrest : ∀ c ∈ rest.head?, isIdentContinue c = false) :
    outlineFrom ⟨.between past ("let".toList ++ rest), frame :: outer⟩
      = (readBinding (isTopLevel frame) (.between ("let".toList.reverse ++ past) rest)).bind
        fun (cursor, found) => (outlineFrom ⟨cursor, frame :: outer⟩).map (Outline.ofFindings found).append := by
  have hword : IsIdent "let".toList := by decide
  refine outlineFrom_statement hcode hword ?_
  have hident : identOf ("let".toList ++ rest) = "let".toList := hword.identOf_append hrest
  have hkind : directiveKind? "let".toList = none := by decide
  have hstarts' : startsStatement frame (.between past ("let".toList ++ rest)) = true :=
    (startsStatement_between ..).trans hstarts
  simp only [wordStep, hstarts', Cursor.rest_between, hident, hkind, beq_self_eq_true, Cursor.advance_over,
    Bool.not_true, Bool.false_eq_true, if_false, if_true]

/-- What was found with other parameters of the binding number `n`. -/
def Outline.withParams (n : Nat) (params : List Param) (o : Outline) : Outline :=
  { o with bindings := o.bindings.modify n fun b => { b with params } }

/-- In the parameters of a closure a comment without quotes is like blanks but for the parameters. -/
theorem outlineFrom_blankOut_params {name : List Char} (hcs : IsComment cs) (hquote : '\x22' ∉ cs)
    (hblanks : ∀ c ∈ blanks, isInlineBlank c = true) (hne : blanks ≠ []) (hname : IsIdent name)
    (hlist : ListText ('\x22' ∉ ·) 1 list depth) (hcode : frame.isCode = true)
    (hstarts : startsStatement frame (.between past rest) = true)
    (hopened : ∀ frame' ∈ frame :: outer, frame'.opener < past.length) :
    ∃ change, (change = id ∨ isTopLevel frame = true ∧ ∃ params, change = Outline.withParams 0 params)
      ∧ outlineFrom ⟨.between past ("let".toList ++ (blanks ++ (name ++ '(' :: (list ++ (cs ++ rest))))),
          frame :: outer⟩
        = (outlineFrom ⟨.between past
            ("let".toList ++ (blanks ++ (name ++ '(' :: (list ++ (blankOut cs ++ rest))))),
            frame :: outer⟩).map change := by
  have hblank : ∀ text, ∀ c ∈ (blanks ++ (name ++ '(' :: text)).head?, isIdentContinue c = false := by
    obtain ⟨d, blanks', rfl⟩ := List.exists_cons_of_ne_nil hne
    rintro text c ⟨rfl⟩
    exact isIdentContinue_of_isInlineBlank (hblanks d List.mem_cons_self)
  have hbefore : ∀ frame' ∈ frame :: outer, frame'.opener < (list.reverse
      ++ '(' :: (name.reverse ++ (blanks.reverse ++ ("let".toList.reverse ++ past)))).length := by
    intro frame' hframe
    have hlt := hopened frame' hframe
    simp only [List.length_append, List.length_cons]
    omega
  have hgroup := Group.read_blankOut hcs hlist
    (name.reverse ++ (blanks.reverse ++ ("let".toList.reverse ++ past))) rest
  rw [outlineFrom_let hcode hstarts (hblank _), outlineFrom_let hcode hstarts (hblank _),
    readBinding_closure _ hblanks hname, readBinding_closure _ hblanks hname]
  revert hgroup
  generalize Group.read (.between _ ('(' :: (list ++ (cs ++ rest)))) = result,
    Group.read (.between _ ('(' :: (list ++ (blankOut cs ++ rest)))) = result'
  intro hgroup
  have hsame : ∀ {top : Bool} {result result' : Except Fault Outline}, result = result' →
      ∃ change, (change = id ∨ top = true ∧ ∃ params, change = Outline.withParams 0 params)
        ∧ result = result'.map change := by
    rintro top result _ rfl
    exact ⟨id, .inl rfl, by cases result <;> rfl⟩
  cases hgroup with
  | error fault => exact hsame rfl
  | @ok group group' h =>
    have hlater := h.outlineFrom_eq hcs hbefore
    simp only [Except.bind, closureResult, h.closed_eq, h.body_eq, h.body_eq', h.issues_eq]
    cases group'.closed with
    | false => exact hsame (by simp only [Bool.false_eq_true, if_false, hlater])
    | true =>
      have hparts := splitSegments_blankOut hlist hquote (upToClose depth rest)
        ('(' :: (name.reverse ++ (blanks.reverse ++ ("let".toList.reverse ++ past)))).length
        { start := ('(' :: (name.reverse ++ (blanks.reverse ++ ("let".toList.reverse ++ past)))).length } rest
      revert hparts
      generalize splitSegments (list ++ (cs ++ _)).length _ 0 0 _ _ = parts,
        splitSegments (list ++ (blankOut cs ++ _)).length _ 0 0 _ _ = parts'
      intro hparts
      cases hparts with
      | error fault => exact hsame rfl
      | @ok parts parts' hissues =>
        simp only [if_true, Except.map, hlater, hissues]
        cases isTopLevel frame with
        | false => exact hsame rfl
        | true =>
          refine ⟨.withParams 0 (parts.1.filterMap Segment.param?), .inr ⟨rfl, _, rfl⟩, ?_⟩
          cases outlineFrom ⟨group'.behind, frame :: outer⟩ with
          | error fault => rfl
          | ok later =>
            simp only [Outline.ofFindings, List.filterMap_append, Outline.append, Outline.withParams,
              filterMap_binding?_issues]
            rfl

/-! ## Whole texts -/

/-- A scan of `before ++ rest` comes to stand behind `before`, with what it has found and the frames in
which it stands. -/
def ComesTo (before rest : List Char) (found : List Finding) (frames : List Frame) : Prop :=
  Runs ⟨.between [] (before ++ rest), []⟩ found ⟨.between before.reverse rest, frames⟩

namespace ComesTo

variable {found : List Finding}

theorem scan_eq (h : ComesTo before rest found frames) :
    scan (before ++ rest)
      = (outlineFrom ⟨.between before.reverse rest, frames⟩).map (Outline.ofFindings found).append := by
  rw [scan_eq_outlineFrom, Runs.outlineFrom_eq h]

/-- The frames were opened in what was read. -/
theorem opened (h : ComesTo before rest found frames) :
    ∀ frame ∈ frames, frame.opener < before.reverse.length := by
  have hopened : State.Opened ⟨.between before.reverse rest, frames⟩ :=
    Runs.opened h fun frame hframe => absurd hframe List.not_mem_nil
  exact fun frame hframe => (hopened frame hframe).1

end ComesTo

theorem Outline.append_withItems (o o' : Outline) (items : List String) :
    o.append (o'.withItems 0 items) = (o.append o').withItems o.directives.length items := by
  simp only [append, withItems, List.modify_eq_take_drop, List.take_left, List.drop_left, List.take_zero,
    List.drop_zero, List.nil_append]

theorem Outline.append_withParams (o o' : Outline) (params : List Param) :
    o.append (o'.withParams 0 params) = (o.append o').withParams o.bindings.length params := by
  simp only [append, withParams, List.modify_eq_take_drop, List.take_left, List.drop_left, List.take_zero,
    List.drop_zero, List.nil_append]

/-- Blanks in the place of a comment change nothing in a block of code, unless the comment stands between
delimiters right before a statement that is read: that one is not seen, as its word is passed over. In the
list of an import they change the items alone, which are those of the text with the comment in it. In the
parameters of a closure they change the parameters alone, if there is no quote in the comment. -/
theorem scan_blankOut (hcs : IsComment cs) :
    (∀ (before rest : List Char) (found : List Finding) (opener : Nat) (parens : List Nat)
        (outer : List Frame),
      ComesTo before (cs ++ rest) found (.code opener parens :: outer) →
      ComesTo before (blankOut cs ++ rest) found (.code opener parens :: outer) →
      parens ≠ [] ∨ cs.getLast? = some '\n'
        ∨ isReadStatement (identOf (rest.dropWhile isStatementBlank)) = false →
      scan (before ++ (cs ++ rest)) = scan (before ++ (blankOut cs ++ rest)))
    ∧ (∀ (before blanks word rest : List Char) (found : List Finding) (opener : Nat) (parens : List Nat)
        (outer : List Frame),
      ComesTo before (cs ++ (blanks ++ (word ++ rest))) found (.code opener parens :: outer) →
      cs.getLast? = some '/' → (∀ c ∈ blanks, isStatementBlank c = true) → IsIdent word →
      (∀ c ∈ rest.head?, isIdentContinue c = false) →
      ComesTo (before ++ (cs ++ (blanks ++ word))) rest found (.code opener parens :: outer))
    ∧ (∀ (before head list rest : List Char) (found : List Finding) (depth : Nat) (frame : Frame)
        (outer : List Frame),
      ImportHead head → ListText (fun _ => True) 1 list depth → frame.isCode = true →
      startsStatement frame (.between before.reverse rest) = true →
      ComesTo before ("import".toList ++ (head ++ '(' :: (list ++ (cs ++ rest)))) found (frame :: outer) →
      ComesTo before ("import".toList ++ (head ++ '(' :: (list ++ (blankOut cs ++ rest)))) found
        (frame :: outer) →
      scan (before ++ ("import".toList ++ (head ++ '(' :: (list ++ (cs ++ rest)))))
        = (scan (before ++ ("import".toList ++ (head ++ '(' :: (list ++ (blankOut cs ++ rest)))))).map
          (·.withItems (found.filterMap Finding.directive?).length
            (itemNames (list ++ (cs ++ upToClose depth rest)))))
    ∧ ∀ (before blanks name list rest : List Char) (found : List Finding) (depth : Nat) (frame : Frame)
        (outer : List Frame),
      '\x22' ∉ cs → (∀ c ∈ blanks, isInlineBlank c = true) → blanks ≠ [] → IsIdent name →
      ListText ('\x22' ∉ ·) 1 list depth → frame.isCode = true →
      startsStatement frame (.between before.reverse rest) = true →
      ComesTo before ("let".toList ++ (blanks ++ (name ++ '(' :: (list ++ (cs ++ rest))))) found
        (frame :: outer) →
      ComesTo before ("let".toList ++ (blanks ++ (name ++ '(' :: (list ++ (blankOut cs ++ rest))))) found
        (frame :: outer) →
      ∃ change, (change = id ∨ isTopLevel frame = true
          ∧ ∃ params, change = Outline.withParams (found.filterMap Finding.binding?).length params)
        ∧ scan (before ++ ("let".toList ++ (blanks ++ (name ++ '(' :: (list ++ (cs ++ rest))))))
          = (scan (before ++
              ("let".toList ++ (blanks ++ (name ++ '(' :: (list ++ (blankOut cs ++ rest))))))).map change := by
  refine ⟨?_, ?_, ?_, ?_⟩
  · intro before rest found opener parens outer h h' hread
    rw [h.scan_eq, h'.scan_eq, outlineFrom_blankOut_block hcs h.opened hread]
  · intro before blanks word rest found opener parens outer h hends hblanks hword hrest
    have hruns := Runs.trans h (runs_hidden_word hcs hends hblanks hword hrest)
    simpa [ComesTo] using hruns
  · intro before head list rest found depth frame outer hhead hlist hcode hstarts h h'
    rw [h.scan_eq, h'.scan_eq, outlineFrom_blankOut_items hcs hhead hlist hcode hstarts h.opened]
    cases outlineFrom _ with
    | error fault => rfl
    | ok outline => exact congrArg Except.ok (Outline.append_withItems _ _ _)
  · intro before blanks name list rest found depth frame outer hquote hblanks hne hname hlist hcode hstarts
      h h'
    obtain ⟨change, hchange, houtline⟩ :=
      outlineFrom_blankOut_params hcs hquote hblanks hne hname hlist hcode hstarts h.opened
    rw [h.scan_eq, h'.scan_eq, houtline]
    rcases hchange with rfl | ⟨htop, params, rfl⟩
    · refine ⟨id, .inl rfl, ?_⟩
      cases outlineFrom _ <;> rfl
    · refine ⟨_, .inr ⟨htop, params, rfl⟩, ?_⟩
      cases outlineFrom _ with
      | error fault => rfl
      | ok outline => exact congrArg Except.ok (Outline.append_withParams _ _ _)

/-- A comment with a comma. -/
def commaComment : List Char := "/* b, c */".toList

/-- The comment before an expression and before an import of a block, in the list of an import and in the
parameters of a closure. -/
theorem scan_blankOut_commaComment :
    scan ("#\x7b".toList ++ (commaComment ++ " a\x7d".toList))
      = scan ("#\x7b".toList ++ (blankOut commaComment ++ " a\x7d".toList))
    ∧ ComesTo ("#\x7b".toList ++ (commaComment ++ (" ".toList ++ "import".toList)))
        " \x22b\x22\x7d".toList [] [.code 1 [], .embed 0 false true []]
    ∧ scan ("#".toList ++ ("import".toList
          ++ (" \x22a\x22: ".toList ++ '(' :: ("a, ".toList ++ (commaComment ++ " d)\n".toList)))))
      = (scan ("#".toList ++ ("import".toList ++ (" \x22a\x22: ".toList
          ++ '(' :: ("a, ".toList ++ (blankOut commaComment ++ " d)\n".toList)))))).map
        (·.withItems 0 ["a", "/*", "c"])
    ∧ ∃ change, (change = id ∨ isTopLevel (.embed 0 true true []) = true
          ∧ ∃ params, change = Outline.withParams 0 params)
        ∧ scan ("#".toList ++ ("let".toList ++ (" ".toList
            ++ ("f".toList ++ '(' :: ("a, ".toList ++ (commaComment ++ " d)\n".toList))))))
          = (scan ("#".toList ++ ("let".toList ++ (" ".toList ++ ("f".toList
              ++ '(' :: ("a, ".toList ++ (blankOut commaComment ++ " d)\n".toList))))))).map change := by
  have hcs : IsComment commaComment := .block " b, c */".toList (by decide)
  have hhead : ImportHead " \x22a\x22: ".toList :=
    @ImportHead.mk " ".toList "\x22a\x22".toList "a".toList [] [] " ".toList none
      (List.all_eq_true.mp (by decide)) rfl (fun rest => rfl) .none (List.forall_mem_nil _)
      (List.all_eq_true.mp (by decide))
  have hlist : ∀ admits, ListText admits 1 "a, ".toList 1 := fun _ =>
    .char 'a' (by decide) (.char ',' (by decide) (.char ' ' (by decide) (.nil 1)))
  have hblock : ∀ rest, ComesTo "#\x7b".toList rest [] [.code 1 [], .embed 0 false true []] := fun rest =>
    (Runs.one (t := ⟨.between "#".toList ('\x7b' :: rest), [.embed 0 false true []]⟩) rfl rfl).thenFind
      (.one rfl rfl)
  obtain ⟨hcode, hhidden, hitems, hparams⟩ := scan_blankOut hcs
  refine ⟨?_, ?_, ?_, ?_⟩
  · exact hcode _ _ _ _ _ _ (hblock _) (hblock _) (by decide)
  · refine hhidden _ " ".toList "import".toList _ _ _ _ _ (hblock _) (by decide)
      (List.all_eq_true.mp (by decide)) (by decide) ?_
    rintro c ⟨rfl⟩
    decide
  · exact hitems "#".toList _ _ " d)\n".toList [] 1 (.embed 0 true true []) [] hhead (hlist _) rfl rfl
      (.one rfl rfl) (.one rfl rfl)
  · exact hparams "#".toList " ".toList "f".toList _ " d)\n".toList [] 1 (.embed 0 true true []) []
      (by decide) (List.all_eq_true.mp (by decide)) (by decide) (by decide) (hlist _) rfl rfl
      (.one rfl rfl) (.one rfl rfl)

/-- Blanks in the place of the comment give other items, another parameter and another directive. -/
theorem scan_blankOut_ne :
    (scan ("#import \x22a\x22: (a, ".toList ++ (commaComment ++ " d)\n".toList))).map
        (·.directives.map (·.items)) = .ok [["a", "/*", "c"]]
    ∧ (scan ("#import \x22a\x22: (a, ".toList ++ (blankOut commaComment ++ " d)\n".toList))).map
        (·.directives.map (·.items)) = .ok [["a", "d"]]
    ∧ (scan ("#let f(a, ".toList ++ (commaComment ++ " d) = 1\n".toList))).map
        (·.bindings.map (·.params.map (·.name))) = .ok [["a"]]
    ∧ (scan ("#let f(a, ".toList ++ (blankOut commaComment ++ " d) = 1\n".toList))).map
        (·.bindings.map (·.params.map (·.name))) = .ok [["a", "d"]]
    ∧ (scan ("#\x7b".toList ++ (commaComment ++ " import \x22b\x22\x7d".toList))).map
        (·.directives.length) = .ok 0
    ∧ (scan ("#\x7b".toList ++ (blankOut commaComment ++ " import \x22b\x22\x7d".toList))).map
        (·.directives.length) = .ok 1 := by
  decide +kernel

end TypstLint.Markup
