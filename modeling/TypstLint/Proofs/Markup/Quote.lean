import TypstLint.Proofs.Markup.Runs
import TypstLint.Proofs.Markup.Slices

set_option autoImplicit false

/-! # A quote behind embedded code

Code behind a `#` ends where the expression ends, but a quote right behind it is still read as code: it
opens a string literal. What follows is hidden up to the next quote, and if there is none the rest of the
text is a literal that is not closed (`scan_quoted_embedded`). -/

namespace TypstLint.Markup

variable {s : State} {frame : Frame} {outer : List Frame} {past rest word : List Char}

/-! ## Steps -/

/-- A quote is a character of text like any other one. -/
theorem runs_quote_in_text (past rest : List Char) :
    Runs ⟨.between past ('\x22' :: rest), []⟩ [] ⟨.between ('\x22' :: past) rest, []⟩ :=
  .one rfl rfl

/-- A literal that is not closed reaches to the end of the text. -/
theorem readLiteralFrom_none {skip n m : Nat} {done cs : List Char}
    (h : readLiteralFrom skip n done cs = .ok (none, m)) : m = n + cs.length := by
  induction cs generalizing skip n done with
  | nil =>
    simp only [readLiteralFrom, Except.ok.injEq, Prod.mk.injEq] at h
    exact h.2.symm
  | cons c rest ih =>
    have hnext : ∀ {skip done}, readLiteralFrom skip (n + 1) done rest = .ok (none, m) →
        m = n + (rest.length + 1) := by
      intro skip done h
      have := ih h
      omega
    unfold readLiteralFrom at h
    split at h
    · exact hnext h
    · split at h
      · split at h
        · cases h
        · exact hnext h
      · split at h
        · cases h
        · exact hnext h

theorem readLiteral_none {m : Nat} (h : readLiteral ('\x22' :: rest) = .ok (none, m)) :
    m = rest.length + 1 := by
  rw [show m = 1 + rest.length from readLiteralFrom_none h, Nat.add_comm]

/-! ## The text behind the quote -/

variable {opener n : Nat} {statement topLevel : Bool} {parens : List Nat}

/-- A literal that is closed is passed over. -/
theorem runs_embedded_literal {contents : List Char}
    (hread : readLiteral ('\x22' :: rest) = .ok (some contents, n)) :
    Runs ⟨.between past ('\x22' :: rest), .embed opener statement topLevel parens :: outer⟩ []
      ⟨.between ((('\x22' :: rest).take n).reverse ++ past) (('\x22' :: rest).drop n),
        .embed opener statement topLevel parens :: outer⟩ := by
  refine .one rfl ?_
  rw [step_region .string rfl rfl]
  simp only [readRegion, Region.read, Cursor.rest_between, hread, Except.map, State.advance_between]
  rfl

/-- A literal that is not closed is the last thing that is found. -/
theorem outlineFrom_embedded_literal
    (hread : readLiteral ('\x22' :: rest) = .ok (none, n)) :
    outlineFrom ⟨.between past ('\x22' :: rest), [.embed opener statement topLevel []]⟩
      = .ok ⟨[], [], [⟨.unterminatedString, .ofLength past.length (rest.length + 1)⟩]⟩ := by
  obtain rfl := readLiteral_none hread
  have hruns : Runs ⟨.between past ('\x22' :: rest), [.embed opener statement topLevel []]⟩
      [.issue ⟨.unterminatedString, .ofLength past.length (rest.length + 1)⟩]
      ⟨.between (('\x22' :: rest).reverse ++ past) [], [.embed opener statement topLevel []]⟩ := by
    refine .one rfl ?_
    rw [step_region .string rfl rfl]
    simp only [readRegion, Region.read, Cursor.rest_between, hread, Except.map, State.advance_between]
    rw [← List.length_cons (a := '\x22'), List.take_length, List.drop_length]
    rfl
  rw [hruns.outlineFrom_eq, outlineFrom_of_nil rfl]
  rfl

/-- An embedded empty literal is passed over. -/
theorem runs_embedded_empty (rest : List Char) :
    Runs ⟨.between past ('#' :: '\x22' :: '\x22' :: rest), []⟩ []
      ⟨.between ('\x22' :: '\x22' :: '#' :: past) rest, [.embed past.length false true []]⟩ := by
  have hread : readLiteral ('\x22' :: '\x22' :: rest) = .ok (some [], 2) := rfl
  exact (Runs.one (t := ⟨.between ('#' :: past) ('\x22' :: '\x22' :: rest),
    [.embed past.length false true []]⟩) rfl rfl).thenFind (runs_embedded_literal hread)

/-- Code behind a `#` goes on in the same way behind all texts that end with a quote. -/
theorem outlineFrom_embedded {past past' : List Char} {opener opener' k : Nat}
    (hlength : past.length = past'.length + k) (hopener : opener < past.length)
    (hopener' : opener' < past'.length) (rest : List Char) (statement topLevel : Bool) :
    outlineFrom ⟨.between ('\x22' :: past) rest, [.embed opener statement topLevel []]⟩
      = (outlineFrom ⟨.between ('\x22' :: past') rest, [.embed opener' statement topLevel []]⟩).map
        (·.shift k) := by
  have hscheme : ∀ past : List Char, ∀ c ∈ ('\x22' :: past).head?, c ∉ "https:".toList := by
    rintro past c ⟨rfl⟩
    decide
  have halike : State.Alike ('\x22' :: past).reverse ('\x22' :: past').reverse k
      ⟨.between ('\x22' :: past) rest, [.embed opener statement topLevel []]⟩
      ⟨.between ('\x22' :: past') rest, [.embed opener' statement topLevel []]⟩ := by
    refine ⟨⟨by simp; omega, ⟨.between [] rest, ?_, ?_⟩, ?_⟩,
      sameBehind_scheme (hscheme past) (hscheme past'), ?_⟩
    · simp [Cursor.between, Cursor.after]
    · simp [Cursor.between, Cursor.after]
    · refine .cons (.passed opener opener' statement topLevel [] ?_ ?_) .nil
      · simp; omega
      · simp; omega
    · rintro ⟨_, _, hmem⟩
      simp at hmem
  exact outlineFrom_alike halike

/-- The quote behind an embedded word opens a string literal. A text in which this literal is not closed
holds nothing but this issue; else the text goes on behind the literal, like one behind an embedded empty
literal. -/
theorem scan_quoted_embedded (b : List Char) (hword : IsIdent word)
    (hkeyword : statementKeywords.contains (String.ofList word) = false) :
    scan ('\x22' :: '#' :: (word ++ '\x22' :: '\n' :: b))
      = match readLiteral ('\x22' :: '\n' :: b) with
        | .error fault => .error fault
        | .ok (none, _) => .ok
          { directives := []
            bindings := []
            issues := [⟨.unterminatedString, .ofLength (word.length + 2) (b.length + 2)⟩] }
        | .ok (some _, n) =>
          (scan ('#' :: '\x22' :: '\x22' :: ('\x22' :: '\n' :: b).drop n)).map
            (·.shift (word.length + n - 1)) := by
  have hquote : ∀ c ∈ ('\x22' :: '\n' :: b).head?, isIdentContinue c = false := by
    rintro c ⟨rfl⟩
    decide
  have hruns := (runs_quote_in_text [] _).thenFind
    ((runs_enter_expression hword hkeyword hquote).thenFind
      (runs_word rfl hword (isReadStatement_eq_false hkeyword) hquote))
  rw [scan_eq_outlineFrom, hruns.outlineFrom_eq_of_nil]
  cases hread : readLiteral ('\x22' :: '\n' :: b) with
  | error fault =>
    refine outlineFrom_of_error rfl ?_
    rw [step_region .string rfl rfl]
    simp only [readRegion, Region.read, Cursor.rest_between, hread, Except.map]
  | ok literal =>
    obtain ⟨text?, n⟩ := literal
    cases text? with
    | none =>
      rw [outlineFrom_embedded_literal hread]
      simp
    | some contents =>
      obtain ⟨hpos, hle⟩ := readLiteral_length (by simp) hread
      obtain ⟨body, htake⟩ := readLiteral_closed rfl hread
      have hlength := List.length_take_of_le hle
      dsimp only
      rw [(runs_embedded_literal hread).outlineFrom_eq_of_nil, scan_eq_outlineFrom,
        (runs_embedded_empty _).outlineFrom_eq_of_nil]
      rw [htake] at hlength ⊢
      have hpast : (body.reverse ++ '\x22' :: (word.reverse ++ ['#', '\x22'])).length
          = ['\x22', '#'].length + (word.length + n - 1) := by
        simp at hlength ⊢
        omega
      have hopener : 1 < (body.reverse ++ '\x22' :: (word.reverse ++ ['#', '\x22'])).length := by
        simp
        omega
      have hsame := outlineFrom_embedded hpast hopener (show 0 < ['\x22', '#'].length by decide)
        (('\x22' :: '\n' :: b).drop n) false true
      simpa using hsame

/-- So the quote behind the embedded word hides an import up to the next quote, and the one behind it is
read as the start of another literal. -/
theorem scan_quoted_embedded_import :
    IsIdent ['x'] ∧ statementKeywords.contains (String.ofList ['x']) = false
      ∧ scan "\x22#x\x22\n#import \x22a.typ\x22\n".toList
        = (scan "#\x22\x22a.typ\x22\n".toList).map (·.shift 11) := by
  have hword : IsIdent ['x'] := by decide
  have hkeyword : statementKeywords.contains (String.ofList ['x']) = false := by decide
  exact ⟨hword, hkeyword, scan_quoted_embedded "#import \x22a.typ\x22\n".toList hword hkeyword⟩

/-- The import in the next line is lost, and the text has an issue. -/
theorem scan_quoted_embedded_ne :
    IsIdent ['x'] ∧ statementKeywords.contains (String.ofList ['x']) = false
      ∧ scan "#import \x22a.typ\x22\n".toList
        = .ok ⟨[⟨.importing, some ⟨"a.typ", ⟨8, 15⟩⟩, ⟨0, 15⟩, [], false, none⟩], [], []⟩
      ∧ scan "\x22#x\x22\n#import \x22a.typ\x22\n".toList
        ≠ (scan "#import \x22a.typ\x22\n".toList).map (·.shift "\x22#x\x22\n".length) := by
  decide +kernel

end TypstLint.Markup
