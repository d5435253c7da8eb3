import TypstLint.Proofs.Markup.Places
import TypstLint.Proofs.Markup.Runs

set_option autoImplicit false

/-! # Comments and blanks in code

A scan passes over the comments of a block of code like over blanks (`outlineFrom_blankOut_block`). But the
look back for the start of a statement stops at the end of a comment between delimiters, so a statement
right behind one is not seen (`runs_hidden_word`). -/

namespace TypstLint.Markup

variable {cs past rest text : List Char} {c : Char} {frame : Frame} {outer : List Frame} {s s' : State}

/-- A comment that ends: one up to the line feed of its line, or one between delimiters. -/
inductive IsComment : List Char → Prop
  | line (body : List Char) : '\n' ∉ body → IsComment ('/' :: '/' :: (body ++ ['\n']))
  | block (body : List Char) : readComment 0 2 body = ⟨body.length + 2, none⟩ →
      IsComment ('/' :: '*' :: body)

/-- A text with blanks in the place of all characters but line feeds. -/
def blankOut (cs : List Char) : List Char := cs.map fun c => if c = '\n' then c else ' '

@[simp] theorem length_blankOut (cs : List Char) : (blankOut cs).length = cs.length := List.length_map _

theorem mem_blankOut (h : c ∈ blankOut cs) : c = ' ' ∨ c = '\n' := by
  obtain ⟨d, -, rfl⟩ := List.mem_map.mp h
  split
  · next hd => exact .inr hd
  · exact .inl rfl

theorem blankOut_append (cs cs' : List Char) : blankOut (cs ++ cs') = blankOut cs ++ blankOut cs' :=
  List.map_append

theorem isCodeBlank_of_isStatementBlank (h : isStatementBlank c = true) : isCodeBlank c = true := by
  revert h
  simp only [isStatementBlank, isCodeBlank, isInlineBlank, Bool.or_eq_true]
  exact .inl

theorem isCodeBlank_blankOut (h : c ∈ blankOut cs) : isCodeBlank c = true := by
  rcases mem_blankOut h with rfl | rfl <;> rfl

/-! ## Reading a comment -/

/-- A comment ends with its line feed or with a slash. -/
theorem IsComment.getLast?_eq (h : IsComment cs) : cs.getLast? = some '\n' ∨ cs.getLast? = some '/' := by
  cases h with
  | line body =>
    left
    rw [← List.cons_append, ← List.cons_append, List.getLast?_concat]
  | block body hbody =>
    right
    rw [List.getLast?_cons, List.getLast?_cons, getLast?_of_readComment hbody]
    rfl

theorem read_blockComment {body : List Char} (h : readComment 0 2 body = ⟨body.length + 2, none⟩)
    (rest : List Char) :
    Region.read .blockComment ('/' :: '*' :: body ++ rest) = .ok ⟨body.length + 2, none⟩ :=
  congrArg Except.ok (readComment_of_closed h rest)

theorem read_lineComment {body : List Char} (h : '\n' ∉ body) (rest : List Char) :
    Region.read .lineComment ('/' :: '/' :: (body ++ '\n' :: rest)) = .ok ⟨body.length + 2, none⟩ := by
  have htake : (body ++ '\n' :: rest).takeWhile (· != '\n') = body := by
    have hline : ∀ c ∈ body, (c != '\n') = true := by
      intro c hc
      rw [bne_iff_ne]
      rintro rfl
      exact h hc
    rw [List.takeWhile_append_of_pos hline]
    simp
  show Except.ok (Region.mk ('/' :: '/' :: (body ++ '\n' :: rest).takeWhile (· != '\n')).length none) = _
  rw [htake]
  rfl

/-! ## Comments and blanks in a block of code -/

variable {opener : Nat} {parens : List Nat}

/-- A blank in a block of code is passed over. -/
theorem step_blank (hframes : s.frames = .code opener parens :: outer) (hrest : s.cursor.rest = c :: rest)
    (hc : isCodeBlank c = true) : s.step c = plain (s.advance 1) := by
  have hblank : c = ' ' ∨ c = '\t' ∨ c = '\r' ∨ c = '\n' := by
    simpa [isCodeBlank, isInlineBlank, or_assoc] using hc
  simp only [State.step, hframes, codeStep, hrest]
  rcases hblank with rfl | rfl | rfl | rfl
  all_goals cases parens <;> rfl

theorem runs_blanks (hcs : ∀ c ∈ cs, isCodeBlank c = true) :
    Runs ⟨.between past (cs ++ rest), .code opener parens :: outer⟩ []
      ⟨.between (cs.reverse ++ past) rest, .code opener parens :: outer⟩ := by
  induction cs generalizing past with
  | nil => exact .refl _
  | cons c cs ih =>
    rw [List.reverse_cons, List.append_assoc]
    have hfirst : Runs ⟨.between past (c :: (cs ++ rest)), .code opener parens :: outer⟩ []
        ⟨.between (c :: past) (cs ++ rest), .code opener parens :: outer⟩ :=
      .one rfl (step_blank rfl rfl (hcs c List.mem_cons_self))
    exact hfirst.thenFind (ih fun d hd => hcs d (List.mem_cons_of_mem c hd))

/-- So is a comment. -/
theorem runs_comment (hcs : IsComment cs) :
    Runs ⟨.between past (cs ++ rest), .code opener parens :: outer⟩ []
      ⟨.between (cs.reverse ++ past) rest, .code opener parens :: outer⟩ := by
  cases hcs with
  | line body hbody =>
    have hregion : Runs ⟨.between past ('/' :: '/' :: body ++ '\n' :: rest), .code opener parens :: outer⟩ []
        ⟨.between (('/' :: '/' :: body).reverse ++ past) ('\n' :: rest), .code opener parens :: outer⟩ :=
      runs_region .lineComment rfl rfl (read_lineComment hbody rest)
    have hline : ∀ past : List Char, Runs ⟨.between past ('\n' :: rest), .code opener parens :: outer⟩ []
        ⟨.between ('\n' :: past) rest, .code opener parens :: outer⟩ :=
      fun past => .one rfl (step_blank rfl rfl rfl)
    simpa using hregion.thenFind (hline _)
  | block body hbody =>
    exact runs_region .blockComment rfl rfl (read_blockComment hbody rest)

/-- What a run of a scan comes to stand in was opened before its place. -/
theorem Runs.opened {found : List Finding} (h : Runs s found s') (hopened : s.Opened) : s'.Opened := by
  induction h with
  | refl => exact hopened
  | step hrest hstep _ ih =>
    exact ih ((stepsTo_of_step hstep).opened_and_within hopened hrest (step_finds hstep).moves).1

/-! ## Statements behind a comment -/

variable {before before' : List Char} {k : Nat} {found : List Finding}

/-- A step in a block of code moves on. -/
theorem pos_lt_of_step (hframes : s.frames = .code opener parens :: outer)
    (hrest : s.cursor.rest = c :: rest) (h : s.step c = .ok (s', found)) :
    s.cursor.pos < s'.cursor.pos := by
  have hone : s.cursor.pos < (Cursor.advance 1 s.cursor).pos :=
    Cursor.pos_lt_advance Nat.one_pos (by simp [hrest])
  have hplain : ∀ next : State, next.cursor = Cursor.advance 1 s.cursor →
      plain next = .ok (s', found) → s.cursor.pos < s'.cursor.pos := by
    intro next hnext h
    obtain ⟨rfl, -⟩ := Prod.mk.inj (Except.ok.inj h)
    rwa [hnext]
  have hembedded : (Frame.code opener parens).isEmbedded = false := rfl
  have hstatement : (Frame.code opener parens).isStatement = false := rfl
  simp only [State.step, hframes, codeStep, hembedded, hstatement, Bool.and_false, Bool.false_and,
    Bool.false_eq_true, if_false] at h
  split at h
  · next kind hkind =>
    obtain ⟨region, hread, h⟩ := map_eq_ok.mp h
    obtain ⟨rfl, -⟩ := Prod.mk.inj h
    exact Cursor.pos_lt_advance (Region.read_length hkind hread).1 (by simp [hrest])
  · split at h
    · exact hplain _ rfl h
    · split at h
      · exact hplain _ rfl h
      · split at h
        · exact hplain _ rfl h
        · split at h
          · split at h
            · exact hplain _ rfl h
            · exact hplain _ rfl h
          · split at h
            · exact hplain _ rfl h
            · split at h
              · next hident =>
                have hword : 0 < (identOf (c :: rest)).length :=
                  List.length_pos_iff.mpr (identOf_ne_nil hident)
                rw [← hrest] at hword
                have hlt : s.cursor.pos < s.cursor.behindWord.pos :=
                  Cursor.pos_lt_advance hword (by simp [hrest])
                exact Nat.lt_of_lt_of_le hlt (wordStep_finds h).moves.pos_le
              · exact hplain _ rfl h

/-- In a block of code scans do the same behind texts of which one ends with a comment, unless a word that
starts a statement comes next. -/
theorem scanRest_of_matches (h : s.Matches before before' k s')
    (hscheme : SameBehind endsWithScheme s.cursor.past s'.cursor.past)
    (hframes : s'.frames = .code opener parens :: outer)
    (hread : parens ≠ []
      ∨ isReadStatement (identOf (s'.cursor.rest.dropWhile isStatementBlank)) = false) :
    SameOutcome before before' k (scanRest s) (scanRest s') := by
  induction hrest : s'.cursor.rest generalizing s s' with
  | nil =>
    rw [scanRest_of_nil hrest, scanRest_of_nil (h.rest_eq.trans hrest)]
    exact h.plain
  | cons c rest ih =>
    have hword : isReadStatement (identOf s'.cursor.rest) = true → ∀ opener,
        s'.frames.head? = some (.code opener []) →
        admitsStatement s.cursor.past = admitsStatement s'.cursor.past := by
      intro hstatement opener' hhead
      obtain ⟨rfl, rfl⟩ : opener = opener' ∧ parens = [] := by simpa [hframes] using hhead
      -- the word stands right at the place, as no word starts with a blank
      have hident : isIdentStart c = true := by
        by_contra hident
        rw [hrest, identOf, if_neg hident] at hstatement
        revert hstatement
        decide
      have hblank : isStatementBlank c = false := by
        simp only [isStatementBlank, ne_of_isIdentStart hident (show isIdentStart ' ' = false by decide),
          ne_of_isIdentStart hident (show isIdentStart '\t' = false by decide),
          ne_of_isIdentStart hident (show isIdentStart '\r' = false by decide), Bool.or_self]
      rw [hrest] at hstatement hread
      rw [List.dropWhile_cons, hblank] at hread
      rcases hread with hne | hread
      · exact absurd rfl hne
      · exact absurd (hread.symm.trans hstatement) (by decide)
    have hmatches := step_matches c h hscheme.here hword
    refine sameOutcome_scanRest hrest h.rest_eq hmatches fun hstep hstep' hnext => ?_
    by_cases hblank : isStatementBlank c = true
    · obtain ⟨recent, hpast, hpast', -⟩ := exists_recent_of_step h hstep hstep' hnext
      rw [step_blank hframes hrest (isCodeBlank_of_isStatementBlank hblank)] at hstep'
      obtain ⟨rfl, -⟩ := Prod.mk.inj (Except.ok.inj hstep')
      have hnextRest : (s'.advance 1).cursor.rest = rest := by
        rw [cursor_advance, Cursor.rest_advance, hrest]
        rfl
      refine ih hnext ?_ hframes ?_ hnextRest
      · rw [hpast, hpast']
        exact hscheme.append recent
      · rwa [hrest, List.dropWhile_cons, if_pos hblank, ← hnextRest] at hread
    · refine scanRest_alike (.of_step h hscheme (fun _ => .inr ⟨by simpa using hblank, ?_⟩) hrest hstep
        hstep' hnext)
      exact pos_lt_of_step hframes hrest hstep'

/-- A statement right behind a comment between delimiters is not seen: its word is passed over. -/
theorem runs_hidden_word {blanks word : List Char} (hcs : IsComment cs) (hends : cs.getLast? = some '/')
    (hblanks : ∀ c ∈ blanks, isStatementBlank c = true) (hword : IsIdent word)
    (hrest : ∀ c ∈ rest.head?, isIdentContinue c = false) :
    Runs ⟨.between past (cs ++ (blanks ++ (word ++ rest))), .code opener parens :: outer⟩ []
      ⟨.between (word.reverse ++ (blanks.reverse ++ (cs.reverse ++ past))) rest,
        .code opener parens :: outer⟩ := by
  refine (runs_comment hcs).thenFind ((runs_blanks fun c hc =>
    isCodeBlank_of_isStatementBlank (hblanks c hc)).thenFind ?_)
  obtain ⟨c, more, hcons, hc, -⟩ := hword.exists_start
  have hhead : word ++ rest = c :: (more ++ rest) := by rw [hcons, List.cons_append]
  have hident : identOf (word ++ rest) = word := hword.identOf_append hrest
  have hstarts : startsStatement (.code opener parens)
      (.between (blanks.reverse ++ (cs.reverse ++ past)) (word ++ rest)) = false := by
    cases parens with
    | cons => rfl
    | nil =>
      have hpast : ((blanks.reverse ++ (cs.reverse ++ past)).dropWhile isStatementBlank).head?
          = some '/' := by
        rw [List.dropWhile_append_of_pos fun c hc => hblanks c (List.mem_reverse.mp hc)]
        obtain ⟨body, rfl⟩ := List.getLast?_eq_some_iff.mp hends
        simp [isStatementBlank]
      rw [startsStatement_code_nil, Cursor.past_between, admitsStatement, hpast]
      rfl
  refine .one (s := ⟨.between _ (word ++ rest), _⟩) hhead ?_
  rw [step_eq_codeStep rfl, codeStep_of_isIdentStart _ hhead hc, wordStep_of_not_starts hstarts,
    Cursor.rest_between, hident, State.advance_over]
  rfl

/-! ## Blanks for a comment in a block of code -/

theorem Outline.shift_zero (o : Outline) : o.shift 0 = o := by
  have hspan : ∀ span : Text.Span, span.shift 0 = span := fun span => by simp [Text.Span.shift]
  simp [Outline.shift, Directive.shift, Literal.shift, Binding.shift, Param.shift, Issue.shift, hspan]

theorem Frame.Alike.rfl {n : Nat} (h : frame.opener + 1 < n) : Frame.Alike n 0 frame frame := by
  cases frame with
  | embed opener statement topLevel parens =>
    have hpassed := Frame.Alike.passed (n := n) (k := 0) opener opener statement topLevel parens h h
    simpa using hpassed
  | content opener => exact .moved (.content opener) fun _ _ _ _ heq => by cases heq
  | math opener => exact .moved (.math opener) fun _ _ _ _ heq => by cases heq
  | code opener parens =>
    have hmoved := Frame.Alike.moved (n := n) (k := 0) (.code opener parens) fun _ _ _ _ heq => by cases heq
    simpa [Frame.shift] using hmoved

variable {frames : List Frame}

/-- Behind a comment and behind blanks in its place scans stand in the same frames. -/
theorem matches_blankOut (hcs : IsComment cs) (hopened : ∀ frame ∈ frames, frame.opener < past.length)
    (recent rest : List Char) :
    State.Matches (past.reverse ++ cs) (past.reverse ++ blankOut cs) 0
      ⟨.between (recent ++ (cs.reverse ++ past)) rest, frames⟩
      ⟨.between (recent ++ ((blankOut cs).reverse ++ past)) rest, frames⟩ where
  length_eq := by simp
  cursor := ⟨.between recent rest, by simp [Cursor.between, Cursor.after, Nat.add_comm],
    by simp [Cursor.between, Cursor.after, Nat.add_comm]⟩
  frames := by
    refine List.forall₂_same.mpr fun frame hframe => .rfl ?_
    have hlt := hopened frame hframe
    have hpos : 0 < cs.length := by cases hcs <;> simp
    simp only [List.length_append, List.length_reverse, length_blankOut]
    omega

/-- Neither a comment nor blanks end with the scheme of a web address. -/
theorem sameBehind_scheme_blankOut (hcs : IsComment cs) (past recent : List Char) :
    SameBehind endsWithScheme (recent ++ (cs.reverse ++ past))
      (recent ++ ((blankOut cs).reverse ++ past)) := by
  refine SameBehind.append (sameBehind_scheme ?_ ?_) recent
  · intro c hc
    have hlast : cs.getLast? = some c := by
      rwa [List.head?_append, List.head?_reverse, Option.or_of_isSome] at hc
      rcases hcs.getLast?_eq with h | h <;> simp [h]
    rcases hcs.getLast?_eq with h | h
    all_goals
      obtain rfl := Option.some.inj (hlast.symm.trans h)
      decide
  · intro c hc
    have hmem : c ∈ blankOut cs := by
      rw [List.head?_append, Option.or_of_isSome] at hc
      · exact List.mem_reverse.mp (List.mem_of_mem_head? hc)
      · have hpos : 0 < cs.length := by cases hcs <;> simp
        simp [← List.length_pos_iff]
        omega
    rcases mem_blankOut hmem with rfl | rfl
    all_goals decide

/-- In a block of code a comment is like blanks, unless it stands between delimiters and a statement that is
read starts right behind it. -/
theorem outlineFrom_blankOut_block (hcs : IsComment cs)
    (hopened : ∀ frame ∈ Frame.code opener parens :: outer, frame.opener < past.length)
    (hread : parens ≠ [] ∨ cs.getLast? = some '\n'
      ∨ isReadStatement (identOf (rest.dropWhile isStatementBlank)) = false) :
    outlineFrom ⟨.between past (cs ++ rest), .code opener parens :: outer⟩
      = outlineFrom ⟨.between past (blankOut cs ++ rest), .code opener parens :: outer⟩ := by
  rw [(runs_comment hcs).outlineFrom_eq_of_nil,
    (runs_blanks fun c hc => isCodeBlank_blankOut hc).outlineFrom_eq_of_nil]
  have hmatches := matches_blankOut hcs hopened [] rest
  have hscheme := sameBehind_scheme_blankOut hcs past []
  have hsame : SameOutcome (past.reverse ++ cs) (past.reverse ++ blankOut cs) 0
      (scanRest ⟨.between (cs.reverse ++ past) rest, .code opener parens :: outer⟩)
      (scanRest ⟨.between ((blankOut cs).reverse ++ past) rest, .code opener parens :: outer⟩) := by
    by_cases hline : cs.getLast? = some '\n'
    · refine scanRest_alike ⟨hmatches, hscheme, fun _ => ?_⟩
      obtain ⟨body, rfl⟩ := List.getLast?_eq_some_iff.mp hline
      simp only [blankOut_append, List.reverse_append]
      have hline : ∃ c ∈ ['\n'], isStatementBlank c = false := ⟨'\n', by decide, by decide⟩
      exact sameBehind_statement hline
    · exact scanRest_of_matches hmatches hscheme rfl
        (hread.imp_right fun h => h.resolve_left hline)
  rw [outlineFrom_of_sameOutcome hsame]
  simp only [Outline.shift_zero]
  cases outlineFrom _ <;> rfl

end TypstLint.Markup
