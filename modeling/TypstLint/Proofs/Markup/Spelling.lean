import TypstLint.Proofs.Digest.Hex
import TypstLint.Proofs.Markup.BlankOut

set_option autoImplicit false

/-! # Literals and how they are spelled

A literal spells a text character by character, and whatever the characters are, reading it gives the text
and ends at its last quote. So the line of an import holds one directive, with the spelled text as target
(`scan_spelled_target`). -/

namespace TypstLint.Markup

open Text (IsHexNumeral)

variable {c : Char} {text literal digits rest part done : List Char} {n : Nat}

/-! ## Spelled texts -/

/-- The letters of escapes, and the characters that the escapes stand for. -/
def letterEscapes : List (Char × Char) :=
  [('n', '\n'), ('t', '\t'), ('r', '\r'), ('\\', '\\'), ('\x22', '\x22')]

/-- The ways to spell a character in a literal: as itself, by a letter, or by its number. -/
inductive SpellsChar : Char → List Char → Prop
  | itself {c : Char} : c ≠ '\x22' → c ≠ '\\' → SpellsChar c [c]
  | letter {letter c : Char} : (letter, c) ∈ letterEscapes → SpellsChar c ['\\', letter]
  | number {c : Char} {digits : List Char} : IsHexNumeral c.toNat digits →
      SpellsChar c ('\\' :: 'u' :: '\x7b' :: (digits ++ ['\x7d']))

/-- A literal spells a text if it spells one character after the other. -/
inductive Spells : List Char → List Char → Prop
  | nil : Spells [] []
  | cons {c : Char} {text part literal : List Char} : SpellsChar c part → Spells text literal →
      Spells (c :: text) (part ++ literal)

theorem charOfNumber_toNat (c : Char) : charOfNumber c.toNat = .ok (some c) := by
  have hvalid : c.toNat < 0xD800 ∨ 0xDFFF < c.toNat ∧ c.toNat < 0x110000 := c.valid
  have hlarge : ((c.toNat : Int) < -0x80000000 || (0x7FFFFFFF : Int) < c.toNat) = false := by
    simp only [Bool.or_eq_false_iff, decide_eq_false_iff_not]
    omega
  have hnone : ((c.toNat : Int) < 0 || (0x10FFFF : Int) < c.toNat) = false := by
    simp only [Bool.or_eq_false_iff, decide_eq_false_iff_not]
    omega
  have hhalf : ((0xD800 : Int) ≤ c.toNat && (c.toNat : Int) < 0xE000) = false := by
    simp only [Bool.and_eq_false_iff, decide_eq_false_iff_not]
    omega
  simp only [charOfNumber, hlarge, hnone, hhalf, Bool.false_eq_true, if_false, Int.toNat_natCast, Char.ofNat_toNat]

/-- The number in an escape ends at its brace. -/
theorem decodeEscape_number (h : IsHexNumeral c.toNat digits) (rest : List Char) :
    decodeEscape ('u' :: '\x7b' :: (digits ++ '\x7d' :: rest)) = .ok (c, digits.length + 3) := by
  have hdigits : ∀ d ∈ digits, (d != '\x7d') = true := by
    intro d hd
    rw [bne_iff_ne]
    rintro rfl
    exact (h.notMem _ hd).2.2 (by decide)
  have htake : (digits ++ '\x7d' :: rest).takeWhile (· != '\x7d') = digits := by
    rw [List.takeWhile_append_of_pos hdigits]
    exact List.append_nil digits
  have hletter : letterEscape? 'u' = none := rfl
  have hbraced : bracedNumber? ('u' :: '\x7b' :: (digits ++ '\x7d' :: rest)) = some digits := by
    simp only [bracedNumber?, htake, List.drop_left]
    rfl
  simp only [decodeEscape, List.headD_cons, hletter, hbraced, h.readInt_eq, charOfNumber_toNat]
  rfl

theorem readLiteralFrom_skip (text rest : List Char) (n : Nat) (done : List Char) :
    readLiteralFrom text.length n done (text ++ rest) = readLiteralFrom 0 (n + text.length) done rest := by
  induction text generalizing n with
  | nil => rfl
  | cons c text ih =>
    rw [List.length_cons, List.cons_append, readLiteralFrom, ih, Nat.add_right_comm, Nat.add_assoc]

/-- An escape is read with all that belongs to it. -/
theorem readLiteralFrom_escape (hne : part ≠ []) (hdecode : decodeEscape (part ++ rest) = .ok (c, part.length)) :
    readLiteralFrom 0 n done ('\\' :: (part ++ rest))
      = readLiteralFrom 0 (n + ('\\' :: part).length) (c :: done) rest := by
  have hmore : (part ++ rest).isEmpty = false := by
    simp [hne]
  rw [readLiteralFrom]
  simp only [hmore, hdecode, beq_self_eq_true, Bool.not_false, Bool.and_self, if_true]
  rw [readLiteralFrom_skip, List.length_cons, Nat.add_right_comm, Nat.add_assoc]

/-- What spells a character is read as this character, to its end and no further. -/
theorem SpellsChar.readLiteralFrom_eq (h : SpellsChar c part) (n : Nat) (done rest : List Char) :
    readLiteralFrom 0 n done (part ++ rest) = readLiteralFrom 0 (n + part.length) (c :: done) rest := by
  cases h with
  | itself hquote hbackslash =>
    have hescape : ¬ (c == '\\' && !rest.isEmpty) = true := by simp [hbackslash]
    have hend : ¬ (c == '\x22') = true := mt beq_iff_eq.mp hquote
    rw [List.singleton_append, readLiteralFrom, if_neg hescape, if_neg hend]
    rfl
  | @letter letter _ hmem =>
    refine readLiteralFrom_escape (List.cons_ne_nil letter []) ?_
    have hletter : letterEscape? letter = some c := by
      simp only [letterEscapes, List.mem_cons, Prod.mk.injEq, List.not_mem_nil, or_false] at hmem
      rcases hmem with ⟨rfl, rfl⟩ | ⟨rfl, rfl⟩ | ⟨rfl, rfl⟩ | ⟨rfl, rfl⟩ | ⟨rfl, rfl⟩
      all_goals rfl
    simp only [decodeEscape, List.singleton_append, List.headD_cons, hletter]
    rfl
  | @number _ digits hnumeral =>
    refine readLiteralFrom_escape (List.cons_ne_nil 'u' ('\x7b' :: (digits ++ ['\x7d']))) ?_
    have hdecode := decodeEscape_number hnumeral rest
    simpa using hdecode

theorem Spells.readLiteralFrom_eq (h : Spells text literal) (n : Nat) (done rest : List Char) :
    readLiteralFrom 0 n done (literal ++ rest)
      = readLiteralFrom 0 (n + literal.length) (text.reverse ++ done) rest := by
  induction h generalizing n done with
  | nil => rfl
  | @cons c text part literal hchar _ ih =>
    rw [List.append_assoc, hchar.readLiteralFrom_eq, ih, List.length_append, Nat.add_assoc, List.reverse_cons,
      List.append_assoc]
    rfl

/-- A literal in quotes. -/
def quoted (literal : List Char) : List Char := '\x22' :: (literal ++ ['\x22'])

/-- A literal ends at the quote behind its characters. -/
theorem readLiteral_quoted (h : ∀ n done, readLiteralFrom 0 n done (literal ++ '\x22' :: rest)
      = readLiteralFrom 0 (n + literal.length) (text.reverse ++ done) ('\x22' :: rest)) :
    readLiteral (quoted literal ++ rest) = .ok (some text, (quoted literal).length) := by
  have htext : quoted literal ++ rest = '\x22' :: (literal ++ '\x22' :: rest) := by simp [quoted]
  have hlength : (quoted literal).length = 1 + literal.length + 1 := by
    simp only [quoted, List.length_cons, List.length_append, List.length_nil]
    omega
  have hread : readLiteral ('\x22' :: (literal ++ '\x22' :: rest))
      = readLiteralFrom 0 (1 + literal.length) (text.reverse ++ []) ('\x22' :: rest) :=
    h 1 []
  have hend : ∀ n done, readLiteralFrom 0 n done ('\x22' :: rest) = .ok (some done.reverse, n + 1) :=
    fun n done => rfl
  rw [htext, hread, hend, List.append_nil, List.reverse_reverse, hlength]

/-- A literal is read as the text that it spells. -/
theorem Spells.readLiteral_eq (h : Spells text literal) (rest : List Char) :
    readLiteral (quoted literal ++ rest) = .ok (some text, (quoted literal).length) :=
  readLiteral_quoted fun n done => h.readLiteralFrom_eq n done ('\x22' :: rest)

/-! ## The line of an import -/

theorem Outline.ofFindings_directive (issues : List Issue) (d : Directive) :
    Outline.ofFindings (issues.map .issue ++ [.directive d]) = ⟨[d], [], issues⟩ := by
  have hissues : (issues.map Finding.issue).filterMap Finding.issue? = issues := by
    rw [List.filterMap_map]
    exact List.filterMap_some
  simp only [ofFindings, List.filterMap_append, filterMap_directive?_issues, filterMap_binding?_issues, hissues,
    Outline.mk.injEq]
  exact ⟨rfl, rfl, List.append_nil issues⟩

/-- What was read before the clauses of an import, last character first. -/
def pastTarget (literal : List Char) : List Char := (quoted literal).reverse ++ "#import ".toList.reverse

/-- A text that starts with an import holds its directive, and what stands behind its clauses. -/
theorem scan_import (h : Spells text literal) (rest : List Char) :
    scan ("#import ".toList ++ (quoted literal ++ rest))
      = (readClauses (.between (pastTarget literal) rest)).bind fun clauses =>
        (outlineFrom ⟨clauses.behind, [.embed 0 true true []]⟩).map
          (Outline.append ⟨[importOf 0 8 (quoted literal).length text clauses], [], clauses.issues⟩) := by
  have henter : Runs ⟨.between [] ("#import ".toList ++ (quoted literal ++ rest)), []⟩ []
      ⟨.between ['#'] ("import".toList ++ ([' '] ++ (quoted literal ++ rest))), [.embed 0 true true []]⟩ :=
    .one rfl rfl
  have hstarts : startsStatement (.embed 0 true true []) (.between ['#'] rest) = true := rfl
  have hblank : ∀ c ∈ ([' '] ++ (quoted literal ++ rest)).head?, isIdentContinue c = false := by
    rintro c ⟨rfl⟩
    decide
  have hread : readDirective .importing 0
        (.between ("import".toList.reverse ++ ['#']) ([' '] ++ (quoted literal ++ rest)))
      = (readClauses (.between (pastTarget literal) rest)).map fun clauses =>
        (clauses.behind, clauses.issues.map .issue
          ++ [.directive (importOf 0 8 (quoted literal).length text clauses)]) :=
    readDirective_literal (List.forall_mem_singleton.mpr rfl) rfl h.readLiteral_eq 0 _ rest
  rw [scan_eq_outlineFrom, henter.outlineFrom_eq_of_nil, outlineFrom_import rfl hstarts hblank]
  refine (congrArg (Except.bind · _) hread).trans ?_
  cases readClauses (.between (pastTarget literal) rest) with
  | error fault => rfl
  | ok clauses =>
    refine congrArg (fun outline : Outline => Except.map outline.append _) ?_
    exact Outline.ofFindings_directive clauses.issues (importOf 0 8 (quoted literal).length text clauses)

/-- An import behind whose clauses nothing is found. -/
theorem scan_import_of_readClauses {clauses : Clauses} (h : Spells text literal)
    (hclauses : readClauses (.between (pastTarget literal) rest) = .ok clauses)
    (hbehind : outlineFrom ⟨clauses.behind, [.embed 0 true true []]⟩ = .ok ⟨[], [], []⟩) :
    scan ("#import ".toList ++ (quoted literal ++ rest))
      = .ok ⟨[importOf 0 8 (quoted literal).length text clauses], [], clauses.issues⟩ := by
  rw [scan_import h, hclauses]
  simp only [Except.bind, hbehind, Except.map, Outline.append, List.append_nil]

/-- In front of a line end there are no clauses. -/
theorem readClauses_lineEnd (past rest : List Char) :
    readClauses (.between past ('\n' :: rest)) = .ok { behind := .between past ('\n' :: rest) } := rfl

/-- The line end behind a statement of the file ends it. -/
theorem outlineFrom_lineEnd (past : List Char) :
    outlineFrom ⟨.between past ['\n'], [.embed 0 true true []]⟩ = .ok ⟨[], [], []⟩ := by
  have hruns : Runs ⟨.between past ['\n'], [.embed 0 true true []]⟩ [] ⟨.between ('\n' :: past) [], []⟩ :=
    (Runs.one (t := ⟨.between past ['\n'], []⟩) rfl rfl).thenFind (.one rfl rfl)
  rw [hruns.outlineFrom_eq_of_nil, outlineFrom_of_nil rfl]
  rfl

/-- The line of an import with a spelled target holds one directive, which has the spelled text as target at the
place of the literal, and no issue. -/
theorem scan_spelled_target (h : Spells text literal) :
    scan ("#import ".toList ++ (quoted literal ++ ['\n']))
      = .ok
        { directives := [
            { kind := .importing
              target := some ⟨String.ofList text, .ofLength 8 (quoted literal).length⟩
              span := .between 0 (8 + (quoted literal).length) }]
          bindings := []
          issues := [] }
    ∧ (Text.Span.ofLength 8 (quoted literal).length).slice ("#import ".toList ++ (quoted literal ++ ['\n']))
      = quoted literal := by
  have hpos : (pastTarget literal).length = 8 + (quoted literal).length := by
    rw [pastTarget, List.length_append, List.length_reverse, Nat.add_comm]
    rfl
  have hfront : 8 = "#import ".toList.length := rfl
  refine ⟨?_, ?_⟩
  · refine (scan_import_of_readClauses h (readClauses_lineEnd _ []) (outlineFrom_lineEnd _)).trans ?_
    simp only [importOf, Cursor.pos_between, hpos]
  · rw [Text.Span.slice_ofLength, hfront, List.drop_left, List.take_left]

/-- An escaped backslash, behind which `u\x7b41\x7d` is no escape, then a line feed, a letter by its number and
a quote. -/
theorem scan_spelled_target_sample :
    Spells "\\u\x7b41\x7d\né\x22".toList "\\\\u\x7b41\x7d\\n\\u\x7b00E9\x7d\\\x22".toList
    ∧ scan "#import \x22\\\\u\x7b41\x7d\\n\\u\x7b00E9\x7d\\\x22\x22\n".toList
      = .ok ⟨[⟨.importing, some ⟨"\\u\x7b41\x7d\né\x22", ⟨8, 29⟩⟩, ⟨0, 29⟩, [], false, none⟩], [], []⟩ := by
  have hitself : ∀ c ∈ "u\x7b41\x7d".toList, SpellsChar c [c] := by
    intro c hc
    refine .itself ?_ ?_
    · rintro rfl
      revert hc
      decide
    · rintro rfl
      revert hc
      decide
  have hnumeral : IsHexNumeral 'é'.toNat "00E9".toList := ⟨2, by decide⟩
  have hspells : Spells "\\u\x7b41\x7d\né\x22".toList (['\\', '\\'] ++ (['u'] ++ (['\x7b'] ++ (['4'] ++ (['1']
      ++ (['\x7d'] ++ (['\\', 'n'] ++ (('\\' :: 'u' :: '\x7b' :: ("00E9".toList ++ ['\x7d']))
      ++ (['\\', '\x22'] ++ []))))))))) :=
    .cons (.letter (by decide)) (.cons (hitself 'u' (by decide)) (.cons (hitself '\x7b' (by decide))
      (.cons (hitself '4' (by decide)) (.cons (hitself '1' (by decide)) (.cons (hitself '\x7d' (by decide))
      (.cons (.letter (by decide)) (.cons (.number hnumeral) (.cons (.letter (by decide)) .nil))))))))
  exact ⟨hspells, (scan_spelled_target hspells).1⟩

end TypstLint.Markup
