import TypstLint.Proofs.Markup.Extend
import TypstLint.Proofs.Markup.History

set_option autoImplicit false

/-! # Scans piece by piece

What is found in a text is what is found in its pieces. A text without an issue that ends with a line
feed leaves no trace in the scan of what follows: the scan of both is the scan of the first one, and
behind it that of the second one, moved on (`scan_append`).

Within a text, `Runs` are steps of a scan with what they find, and `outlineFrom` is what a text holds
from a place on; `outlineFrom_eq` puts the two together. With a lemma for each thing that a text can go
on with, the scan of a text of a given form is followed piece by piece. -/

namespace TypstLint.Markup

/-- What was found in one text and then in another one. -/
def Outline.append (o o' : Outline) : Outline where
  directives := o.directives ++ o'.directives
  bindings := o.bindings ++ o'.bindings
  issues := o.issues ++ o'.issues

theorem Outline.ofFindings_append (found found' : List Finding) :
    Outline.ofFindings (found ++ found') = (ofFindings found).append (ofFindings found') := by
  simp only [ofFindings, append, List.filterMap_append]

/-- At the end of a text the scan stands where one of the next text starts, behind the first text. -/
theorem State.extend_eq_after {a b : List Char} {s : State} (htext : s.cursor.text = a)
    (hrest : s.cursor.rest = []) (hframes : s.frames = []) :
    s.extend b = State.after a ⟨.ofText b, []⟩ := by
  obtain ⟨⟨pos, past, rest, hpos⟩, frames⟩ := s
  obtain rfl : rest = [] := hrest
  obtain rfl : frames = [] := hframes
  obtain rfl : past.reverse ++ [] = a := htext
  simp [extend, after, Cursor.extend, Cursor.after, Cursor.ofText, hpos]

/-- What is open at the end of a text is moved on with it. -/
theorem unclosed_after (a : List Char) (s : State) :
    (s.after a).frames.reverse.flatMap Frame.issues
      = (s.frames.reverse.flatMap Frame.issues).map (·.shift a.length) := by
  rw [State.frames_after, ← List.map_reverse, List.flatMap_map, List.map_flatMap]
  exact List.flatMap_congr fun frame _ => frame.issues_shift _

/-- Behind a text that ends with a line feed and has no issue, a text holds what it holds alone; and
it can be scanned if it can be scanned alone. -/
theorem scan_append {a b : List Char} {outline : Outline} (hends : a.getLast? = some '\n')
    (hscan : scan a = .ok outline) (hclean : outline.issues = []) :
    scan (a ++ b) = (scan b).map fun rest => outline.append (rest.shift a.length) := by
  rw [scan_eq_scanRest] at hscan
  obtain ⟨⟨s, found⟩, hrun, rfl⟩ := map_eq_ok.mp hscan
  obtain ⟨hfound, hclosed⟩ := isClean_append.mp hclean
  have hclosed : s.frames.flatMap Frame.issues = [] := by
    have hnil := isClean_issues.mp hclosed
    rw [List.flatMap_eq_nil_iff] at hnil ⊢
    exact fun frame hframe => hnil frame (List.mem_reverse.mpr hframe)
  have hline : State.InLine ⟨.ofText a, []⟩ := .inl hends
  obtain ⟨hrest, hframes, hextend⟩ := scanRest_extend (b := b) hline hrun hfound hclosed
  have htext : s.cursor.text = a := (scanRest_moves hrun).text_eq
  rw [State.extend_eq_after htext hrest hframes,
    scanRest_after hends (fun _ _ hmem => absurd hmem List.not_mem_nil)] at hextend
  have hstart : State.extend b ⟨.ofText a, []⟩ = ⟨.ofText (a ++ b), []⟩ := rfl
  rw [scan_eq_scanRest, scan_eq_scanRest, ← hstart, hextend]
  cases scanRest ⟨.ofText b, []⟩ with
  | error fault => rfl
  | ok last =>
    obtain ⟨last, later⟩ := last
    simp only [Except.map, unclosed_after, hframes, List.reverse_nil, List.flatMap_nil, List.map_nil,
      List.append_nil, ← Outline.ofFindings_shift, ← Outline.ofFindings_append, List.map_append,
      Finding.map_shift_issues, List.append_assoc]

/-- What a line with an import holds. -/
def importLine : Outline where
  directives := [⟨.importing, some ⟨"a", ⟨8, 11⟩⟩, ⟨0, 14⟩, ["f"], false, none⟩]
  bindings := []
  issues := []

/-- Behind a line with an import, a literal that is not closed. -/
theorem scan_append_unclosed_literal :
    "#import \x22a\x22: f\n".toList.getLast? = some '\n'
      ∧ scan "#import \x22a\x22: f\n".toList = .ok importLine ∧ importLine.issues = []
      ∧ scan "#import \x22a\x22: f\n#include \x22b".toList
        = (scan "#include \x22b".toList).map (fun rest => importLine.append (rest.shift 15))
      ∧ scan "#include \x22b".toList = .ok ⟨[], [], [⟨.unterminatedString, ⟨9, 11⟩⟩]⟩ := by
  have hends : "#import \x22a\x22: f\n".toList.getLast? = some '\n' := by decide
  have hscan : scan "#import \x22a\x22: f\n".toList = .ok importLine := by decide +kernel
  exact ⟨hends, hscan, rfl, scan_append (b := "#include \x22b".toList) hends hscan rfl,
    by decide +kernel⟩

end TypstLint.Markup

/-! ## Runs of a scan

A run leads from one state of a scan to a later one. What a text holds from a state on is what the run
finds and then what the text holds from where the run ends (`Runs.outlineFrom_eq`), so the scan of a text
is told piece by piece. -/

namespace TypstLint.Markup

variable {s s' t : State} {found later : List Finding} {past rest : List Char} {c : Char}

/-! ### Places -/

/-- The place between what was read, last character first, and what is left. -/
def Cursor.between (past rest : List Char) : Cursor where
  pos := past.length
  past := past
  rest := rest

namespace Cursor

@[simp] theorem pos_between : (between past rest).pos = past.length := by simp [between]

@[simp] theorem past_between : (between past rest).past = past := rfl

@[simp] theorem rest_between : (between past rest).rest = rest := rfl

theorem between_past_rest (cur : Cursor) : between cur.past cur.rest = cur := by
  obtain ⟨pos, past, rest, rfl⟩ := cur
  rfl

@[simp] theorem next_between : (between past (c :: rest)).next = between (c :: past) rest := by
  simp [next, between]

theorem advance_between (n : Nat) (past rest : List Char) :
    advance n (between past rest) = between ((rest.take n).reverse ++ past) (rest.drop n) := by
  rw [← between_past_rest (advance n _), past_advance, rest_advance]
  rfl

/-- The place behind a text that comes next. -/
theorem advance_over (text past rest : List Char) :
    advance text.length (between past (text ++ rest)) = between (text.reverse ++ past) rest := by
  rw [advance_between, List.take_left, List.drop_left]

theorem skipBlanks_between {blanks : List Char} (hblanks : ∀ c ∈ blanks, isInlineBlank c = true)
    (hrest : ∀ c ∈ rest.head?, isInlineBlank c = false) :
    (between past (blanks ++ rest)).skipBlanks = between (blanks.reverse ++ past) rest := by
  have htake : rest.takeWhile isInlineBlank = [] := by
    cases rest with
    | nil => rfl
    | cons c rest => rw [List.takeWhile_cons, hrest c rfl]; rfl
  rw [skipBlanks, skipWhile, rest_between, List.takeWhile_append_of_pos hblanks, htake, List.append_nil,
    advance_over]

end Cursor

theorem State.advance_between (n : Nat) (frames : List Frame) :
    State.advance n ⟨.between past rest, frames⟩
      = ⟨.between ((rest.take n).reverse ++ past) (rest.drop n), frames⟩ := by
  rw [State.advance, Cursor.advance_between]

theorem State.advance_over (text : List Char) (frames : List Frame) :
    State.advance text.length ⟨.between past (text ++ rest), frames⟩
      = ⟨.between (text.reverse ++ past) rest, frames⟩ := by
  rw [State.advance, Cursor.advance_over]

/-! ### Runs -/

/-- What a text holds from the place of a scan on, with what is left open at the end. -/
def outlineFrom (s : State) : Except Fault Outline :=
  (scanRest s).map fun (s', found) =>
    .ofFindings (found ++ (s'.frames.reverse.flatMap Frame.issues).map .issue)

theorem scan_eq_outlineFrom (text : List Char) : scan text = outlineFrom ⟨.between [] text, []⟩ :=
  scan_eq_scanRest text

/-- Steps of a scan, and what they find. -/
inductive Runs : State → List Finding → State → Prop
  | refl (s : State) : Runs s [] s
  | step {s next s' : State} {c : Char} {rest : List Char} {new found : List Finding} :
      s.cursor.rest = c :: rest → s.step c = .ok (next, new) → Runs next found s' →
      Runs s (new ++ found) s'

namespace Runs

theorem one {new : List Finding} (hrest : s.cursor.rest = c :: rest) (h : s.step c = .ok (t, new)) :
    Runs s new t := by
  rw [← List.append_nil new]
  exact .step hrest h (.refl t)

theorem trans {s'' : State} (h : Runs s found s') (h' : Runs s' later s'') :
    Runs s (found ++ later) s'' := by
  induction h with
  | refl => exact h'
  | step hrest hstep _ ih =>
    rw [List.append_assoc]
    exact .step hrest hstep (ih h')

/-- A run that finds nothing, and another one behind it. -/
theorem thenFind {s'' : State} (h : Runs s [] s') (h' : Runs s' later s'') : Runs s later s'' :=
  h.trans h'

theorem scanRest_eq (h : Runs s found s') :
    scanRest s = (scanRest s').map fun (last, later) => (last, found ++ later) := by
  induction h with
  | refl s =>
    cases scanRest s with
    | error fault => rfl
    | ok outcome => rfl
  | step hrest hstep _ ih =>
    rw [scanRest_of_cons hrest, hstep]
    simp only [Except.bind, ih]
    cases scanRest _ with
    | error fault => rfl
    | ok outcome => simp [Except.map]

/-- A text holds what a run finds, and behind it what it holds from the end of the run on. -/
theorem outlineFrom_eq (h : Runs s found s') :
    outlineFrom s = (outlineFrom s').map (Outline.ofFindings found).append := by
  rw [outlineFrom, h.scanRest_eq, outlineFrom]
  cases scanRest s' with
  | error fault => rfl
  | ok outcome =>
    simp only [Except.map, List.append_assoc, Outline.ofFindings_append]

/-- So it holds the same if the run finds nothing. -/
theorem outlineFrom_eq_of_nil (h : Runs s [] s') : outlineFrom s = outlineFrom s' := by
  rw [h.outlineFrom_eq]
  cases outlineFrom s' with
  | error fault => rfl
  | ok outline => rfl

end Runs

theorem outlineFrom_of_nil (h : s.cursor.rest = []) :
    outlineFrom s = .ok (.ofFindings ((s.frames.reverse.flatMap Frame.issues).map .issue)) := by
  rw [outlineFrom, scanRest_of_nil h]
  rfl

theorem outlineFrom_of_error {fault : Fault} (hrest : s.cursor.rest = c :: rest)
    (h : s.step c = .error fault) : outlineFrom s = .error fault := by
  rw [outlineFrom, scanRest_of_cons hrest, h]
  rfl

/-- What is left open by scans that do the same. -/
theorem State.Matches.unclosed_eq {before before' : List Char} {k : Nat}
    (h : s.Matches before before' k s') :
    s.frames.reverse.flatMap Frame.issues
      = (s'.frames.reverse.flatMap Frame.issues).map (·.shift k) := by
  have hframes := h.frames
  generalize s.frames = frames, s'.frames = frames' at hframes
  induction hframes with
  | nil => rfl
  | cons hframe _ ih =>
    simp only [List.reverse_cons, List.flatMap_append, List.map_append, ih, List.flatMap_singleton,
      hframe.issues_eq]

/-- Texts hold the same from states on from which scans do the same. -/
theorem outlineFrom_of_sameOutcome {before before' : List Char} {k : Nat}
    (h : SameOutcome before before' k (scanRest s) (scanRest s')) :
    outlineFrom s = (outlineFrom s').map (·.shift k) := by
  rw [outlineFrom, outlineFrom]
  generalize scanRest s = result, scanRest s' = result' at h
  cases h with
  | error fault => rfl
  | ok hlast =>
    simp only [Except.map, Except.ok.injEq]
    rw [hlast.1.unclosed_eq, hlast.2, ← Finding.map_shift_issues, ← List.map_append,
      Outline.ofFindings_shift]

theorem outlineFrom_alike {before before' : List Char} {k : Nat} (h : s.Alike before before' k s') :
    outlineFrom s = (outlineFrom s').map (·.shift k) :=
  outlineFrom_of_sameOutcome (scanRest_alike h)

/-! ### Words in code -/

/-- Whether a word is an identifier. -/
def IsIdent (word : List Char) : Prop := word ≠ [] ∧ identOf word = word

instance (word : List Char) : Decidable (IsIdent word) := inferInstanceAs (Decidable (_ ∧ _))

variable {word : List Char}

theorem IsIdent.exists_start (h : IsIdent word) :
    ∃ c more, word = c :: more ∧ isIdentStart c = true ∧ ∀ d ∈ more, isIdentContinue d = true := by
  obtain ⟨hne, hident⟩ := h
  cases word with
  | nil => exact absurd rfl hne
  | cons c more =>
    simp only [identOf] at hident
    split at hident
    · next hc =>
      refine ⟨c, more, rfl, hc, ?_⟩
      exact List.takeWhile_eq_self_iff.mp (List.cons.inj hident).2
    · cases hident

theorem isIdentContinue_of_isIdentStart (h : isIdentStart c = true) : isIdentContinue c = true := by
  have halphanumeric : Text.isLetter c = true → Text.isAlphanumeric c = true := by
    unfold Text.isLetter Text.isAlphanumeric
    split
    · simp +contextual [Char.isAlphanum]
    · simp +contextual
  rw [isIdentStart, Bool.or_eq_true] at h
  rw [isIdentContinue, Bool.or_eq_true, Bool.or_eq_true]
  exact .inl (h.imp_left halphanumeric)

theorem IsIdent.isIdentContinue_of_mem (h : IsIdent word) (hc : c ∈ word) : isIdentContinue c = true := by
  obtain ⟨d, more, rfl, hd, hmore⟩ := h.exists_start
  exact (List.mem_cons.mp hc).elim (fun heq => heq ▸ isIdentContinue_of_isIdentStart hd) (hmore c)

/-- A word ends where it cannot go on. -/
theorem IsIdent.identOf_append (h : IsIdent word) (hrest : ∀ c ∈ rest.head?, isIdentContinue c = false) :
    identOf (word ++ rest) = word := by
  obtain ⟨c, more, rfl, hc, hmore⟩ := h.exists_start
  have htake : rest.takeWhile isIdentContinue = [] := by
    cases rest with
    | nil => rfl
    | cons d rest => rw [List.takeWhile_cons, hrest d rfl]; rfl
  simp only [identOf, List.cons_append, hc, if_true]
  rw [List.takeWhile_append_of_pos hmore, htake, List.append_nil]

theorem isIdent_identOf (hc : isIdentStart c = true) (rest : List Char) : IsIdent (identOf (c :: rest)) := by
  have hword : identOf (c :: rest) = c :: rest.takeWhile isIdentContinue := by simp [identOf, hc]
  refine ⟨hword ▸ List.cons_ne_nil _ _, ?_⟩
  simp only [identOf, hc, if_true, List.takeWhile_takeWhile, and_self, Bool.decide_eq_true]

/-- A text that starts with a word is the word and what stands behind it, with which it does not go on. -/
theorem exists_behind_identOf (hc : isIdentStart c = true) (rest : List Char) :
    ∃ more, c :: rest = identOf (c :: rest) ++ more ∧ more.length < (c :: rest).length
      ∧ ∀ d ∈ more.head?, isIdentContinue d = false := by
  have hword : identOf (c :: rest) = c :: rest.takeWhile isIdentContinue := by simp [identOf, hc]
  refine ⟨rest.dropWhile isIdentContinue, ?_, ?_, fun d hd => ?_⟩
  · rw [hword, List.cons_append, List.takeWhile_append_dropWhile]
  · exact Nat.lt_succ_of_le (List.length_dropWhile_le _ _)
  · have hhead := List.head?_dropWhile_not isIdentContinue rest
    rw [hd] at hhead
    exact hhead

theorem ne_of_isIdentStart {d : Char} (hc : isIdentStart c = true) (hd : isIdentStart d = false) :
    (c == d) = false :=
  beq_false_of_ne fun heq => by simp [heq, hd] at hc

/-- No region starts with a word. -/
theorem regionKind_of_isIdentStart (hc : isIdentStart c = true) : RegionKind.at? (c :: rest) = none := by
  unfold RegionKind.at?
  split
  · next h => obtain ⟨rfl, -⟩ := List.cons.inj h; revert hc; decide
  · next h => obtain ⟨rfl, -⟩ := List.cons.inj h; revert hc; decide
  · next h => obtain ⟨rfl, -⟩ := List.cons.inj h; revert hc; decide
  · next h => obtain ⟨rfl, -⟩ := List.cons.inj h; revert hc; decide
  · rfl

theorem codeStep_of_isIdentStart (frame : Frame) (hrest : s.cursor.rest = c :: rest)
    (hc : isIdentStart c = true) : codeStep frame c s = wordStep frame s := by
  have hne : ∀ d, isIdentStart d = false → (c == d) = false := fun d => ne_of_isIdentStart hc
  simp only [codeStep, hrest, regionKind_of_isIdentStart hc, hc, hne '(' (by decide), hne '[' (by decide),
    hne '\x7b' (by decide), hne ')' (by decide), hne '\x7d' (by decide), hne ']' (by decide),
    hne '\n' (by decide), hne ';' (by decide), Bool.and_false, Bool.or_false, Bool.false_eq_true, if_false,
    if_true]

/-! ### Steps in code -/

/-- Whether a frame holds code. -/
def Frame.isCode : Frame → Bool
  | code .. | embed .. => true
  | content _ | math _ => false

variable {frame : Frame} {outer : List Frame}

theorem step_eq_codeStep (hcode : frame.isCode = true) (cur : Cursor) :
    State.step c ⟨cur, frame :: outer⟩ = codeStep frame c ⟨cur, frame :: outer⟩ := by
  cases frame with
  | content | math => cases hcode
  | code | embed => rfl

/-- A word that starts no statement is passed over. -/
theorem runs_word (hcode : frame.isCode = true) (hword : IsIdent word)
    (hread : isReadStatement word = false) (hrest : ∀ c ∈ rest.head?, isIdentContinue c = false) :
    Runs ⟨.between past (word ++ rest), frame :: outer⟩ []
      ⟨.between (word.reverse ++ past) rest, frame :: outer⟩ := by
  obtain ⟨c, more, hcons, hc, -⟩ := hword.exists_start
  have hident : identOf (word ++ rest) = word := hword.identOf_append hrest
  have hhead : word ++ rest = c :: (more ++ rest) := by rw [hcons, List.cons_append]
  refine .one (s := ⟨.between past (word ++ rest), _⟩) hhead ?_
  rw [step_eq_codeStep hcode, codeStep_of_isIdentStart _ hhead hc,
    wordStep_of_not_read (by rw [Cursor.rest_between, hident, hread]), Cursor.rest_between, hident,
    State.advance_over]
  rfl

/-- So is any word behind the start of the code. -/
theorem runs_word_behind {opener : Nat} {statement topLevel : Bool} {parens : List Nat}
    (hword : IsIdent word) (hrest : ∀ c ∈ rest.head?, isIdentContinue c = false)
    (hpast : opener + 1 < past.length) (outer : List Frame) :
    Runs ⟨.between past (word ++ rest), .embed opener statement topLevel parens :: outer⟩ []
      ⟨.between (word.reverse ++ past) rest, .embed opener statement topLevel parens :: outer⟩ := by
  obtain ⟨c, more, hcons, hc, -⟩ := hword.exists_start
  have hhead : word ++ rest = c :: (more ++ rest) := by rw [hcons, List.cons_append]
  have hstarts : startsStatement (.embed opener statement topLevel parens)
      (.between past (word ++ rest)) = false :=
    beq_false_of_ne (Nat.ne_of_gt hpast)
  refine .one (s := ⟨.between past (word ++ rest), _⟩) hhead ?_
  rw [step_eq_codeStep rfl, codeStep_of_isIdentStart _ hhead hc, wordStep_of_not_starts hstarts,
    Cursor.rest_between, hword.identOf_append hrest, State.advance_over]
  rfl

/-- A parenthesis opens a group of the code. -/
theorem runs_open_round (hcode : frame.isCode = true) :
    Runs ⟨.between past ('(' :: rest), frame :: outer⟩ []
      ⟨.between ('(' :: past) rest, frame.withParens (past.length :: frame.parens) :: outer⟩ :=
  .one rfl (by rw [step_eq_codeStep hcode]; rfl)

/-- A bracket opens a block of text. -/
theorem runs_open_square (hcode : frame.isCode = true) :
    Runs ⟨.between past ('[' :: rest), frame :: outer⟩ []
      ⟨.between ('[' :: past) rest, .content past.length :: frame :: outer⟩ :=
  .one rfl (by rw [step_eq_codeStep hcode]; rfl)

/-- A brace opens a block of code. -/
theorem runs_open_curly (hcode : frame.isCode = true) :
    Runs ⟨.between past ('\x7b' :: rest), frame :: outer⟩ []
      ⟨.between ('\x7b' :: past) rest, .code past.length [] :: frame :: outer⟩ :=
  .one rfl (by rw [step_eq_codeStep hcode]; rfl)

/-- A region in code is read with the issues that it has. -/
theorem step_region (kind : RegionKind) (hcode : frame.isCode = true)
    (hkind : RegionKind.at? (c :: rest) = some kind) :
    State.step c ⟨.between past (c :: rest), frame :: outer⟩
      = readRegion kind ⟨.between past (c :: rest), frame :: outer⟩ := by
  rw [step_eq_codeStep hcode]
  simp only [codeStep, Cursor.rest_between, hkind]

/-- A region that is closed is passed over. -/
theorem runs_region (kind : RegionKind) {text : List Char} (hcode : frame.isCode = true)
    (hkind : RegionKind.at? (text ++ rest) = some kind)
    (hread : Region.read kind (text ++ rest) = .ok ⟨text.length, none⟩) :
    Runs ⟨.between past (text ++ rest), frame :: outer⟩ []
      ⟨.between (text.reverse ++ past) rest, frame :: outer⟩ := by
  obtain ⟨c, more, hcons⟩ : ∃ c more, text ++ rest = c :: more := by
    cases htext : text ++ rest with
    | nil => rw [htext] at hkind; cases hkind
    | cons c more => exact ⟨c, more, rfl⟩
  refine .one (s := ⟨.between past (text ++ rest), _⟩) hcons ?_
  rw [hcons] at hkind
  have hstep : State.step c ⟨.between past (c :: more), frame :: outer⟩ = _ := step_region kind hcode hkind
  rw [← hcons] at hstep
  rw [hstep, readRegion, Cursor.rest_between, hread, Except.map, State.advance_over]
  rfl

/-! ### Code behind a `#` -/

/-- A `#` before a word that is no keyword opens an expression. -/
theorem runs_enter_expression (hword : IsIdent word)
    (hkeyword : statementKeywords.contains (String.ofList word) = false)
    (hrest : ∀ c ∈ rest.head?, isIdentContinue c = false) :
    Runs ⟨.between past ('#' :: (word ++ rest)), []⟩ []
      ⟨.between ('#' :: past) (word ++ rest), [.embed past.length false true []]⟩ := by
  have hempty : word.isEmpty = false := by simpa using hword.1
  refine .one rfl ?_
  show plain (enterCode _) = _
  simp only [enterCode, State.advance, Cursor.advance, Cursor.next_between, Cursor.rest_between,
    hword.identOf_append hrest, hkeyword, hempty]
  rfl

/-- The words that start a statement which is read are keywords. -/
theorem isReadStatement_eq_false (h : statementKeywords.contains (String.ofList word) = false) :
    isReadStatement word = false := by
  rw [Bool.eq_false_iff]
  intro hread
  have hword : word = "import".toList ∨ word = "include".toList ∨ word = "let".toList := by
    simp only [isReadStatement, Bool.or_eq_true, beq_iff_eq] at hread
    rcases hread with hkind | hlet
    · obtain ⟨kind, hkind⟩ := Option.isSome_iff_exists.mp hkind
      have heq : kind.word.toList = word := beq_iff_eq.mp (List.find?_some hkind :)
      cases kind with
      | importing => exact .inl heq.symm
      | including => exact .inr (.inl heq.symm)
    · exact .inr (.inr hlet)
  rcases hword with rfl | rfl | rfl
  all_goals revert h; decide

/-- The name of a binding that is no closure. -/
theorem readBinding_value (topLevel : Bool) (hword : IsIdent word)
    (hrest : ∀ c ∈ rest.head?, isIdentContinue c = false ∧ c ≠ '(') :
    readBinding topLevel (.between past (' ' :: (word ++ rest)))
      = .ok (.between (word.reverse ++ ' ' :: past) rest,
        if topLevel then
          [.binding ⟨String.ofList word, .ofLength (past.length + 1) word.length, [], false⟩]
        else []) := by
  have hstart : ∀ c ∈ (word ++ rest).head?, isInlineBlank c = false := by
    obtain ⟨c, more, rfl, hc, -⟩ := hword.exists_start
    rintro d ⟨rfl⟩
    rw [isInlineBlank, ne_of_isIdentStart hc (by decide), ne_of_isIdentStart hc (by decide), Bool.or_false]
  have hblanks : (Cursor.between past (' ' :: (word ++ rest))).skipBlanks
      = .between (' ' :: past) (word ++ rest) :=
    Cursor.skipBlanks_between (List.all_eq_true.mp (by decide : [' '].all isInlineBlank = true)) hstart
  have hident : identOf (word ++ rest) = word := hword.identOf_append fun c hc => (hrest c hc).1
  have hmeets : (Cursor.between (word.reverse ++ ' ' :: past) rest).meets '(' = false :=
    beq_false_of_ne fun hhead => (hrest _ hhead).2 rfl
  have hempty : word.isEmpty = false := by simpa using hword.1
  simp only [readBinding, hblanks, Cursor.rest_between, hident, hempty, Cursor.advance_over, hmeets,
    Bool.not_false, Bool.false_eq_true, if_true, if_false]
  rfl

/-- A binding to a value is found when its name was read, if it stands in the text of the file itself. -/
theorem runs_let {frames : List Frame} (hword : IsIdent word)
    (htext : frames = [] ∨ ∃ opener outer, frames = .content opener :: outer)
    (hrest : ∀ c ∈ rest.head?, isIdentContinue c = false ∧ c ≠ '(') (past : List Char) :
    Runs ⟨.between past ('#' :: 'l' :: 'e' :: 't' :: ' ' :: (word ++ rest)), frames⟩
      (if frames.isEmpty then
        [.binding ⟨String.ofList word, .ofLength (past.length + 5) word.length, [], false⟩]
      else [])
      ⟨.between (word.reverse ++ ' ' :: 't' :: 'e' :: 'l' :: '#' :: past) rest,
        .embed past.length true frames.isEmpty [] :: frames⟩ := by
  have henter : State.step '#' ⟨.between past ('#' :: 'l' :: 'e' :: 't' :: ' ' :: (word ++ rest)), frames⟩
      = plain ⟨.between ('#' :: past) ('l' :: 'e' :: 't' :: ' ' :: (word ++ rest)),
        .embed past.length true frames.isEmpty [] :: frames⟩ := by
    rcases htext with rfl | ⟨opener, outer, rfl⟩
    · rfl
    · rfl
  refine (Runs.one (s := ⟨.between past ('#' :: 'l' :: 'e' :: 't' :: ' ' :: (word ++ rest)), frames⟩)
    rfl henter).thenFind (.one rfl ?_)
  have hstarts : startsStatement (.embed past.length true frames.isEmpty [])
      (.between ('#' :: past) ('l' :: 'e' :: 't' :: ' ' :: (word ++ rest))) = true :=
    beq_self_eq_true _
  have hlet : identOf ('l' :: 'e' :: 't' :: ' ' :: (word ++ rest)) = "let".toList := rfl
  rw [step_eq_codeStep rfl, codeStep_of_isIdentStart _ rfl (by decide)]
  simp only [wordStep, hstarts, Cursor.rest_between, hlet]
  show (readBinding frames.isEmpty (.between ('t' :: 'e' :: 'l' :: '#' :: past) (' ' :: (word ++ rest)))).map _ = _
  rw [readBinding_value frames.isEmpty hword hrest]
  rfl

/-- A binding in the text of the file up to its value. -/
theorem runs_let_equals (hword : IsIdent word) (past rest : List Char) :
    Runs ⟨.between past ("#let ".toList ++ (word ++ (" = ".toList ++ rest))), []⟩
      [.binding ⟨String.ofList word, .ofLength (past.length + 5) word.length, [], false⟩]
      ⟨.between (" = ".toList.reverse ++ (word.reverse ++ ("#let ".toList.reverse ++ past))) rest,
        [.embed past.length true true []]⟩ := by
  have hhead : ∀ c ∈ (" = ".toList ++ rest).head?, isIdentContinue c = false ∧ c ≠ '(' := by
    rintro c ⟨rfl⟩
    exact ⟨by decide, by decide⟩
  have hequals (opener : Nat) (before : List Char) :
      Runs ⟨.between before (' ' :: '=' :: ' ' :: rest), [.embed opener true true []]⟩ []
        ⟨.between (' ' :: '=' :: ' ' :: before) rest, [.embed opener true true []]⟩ :=
    (Runs.one (t := ⟨.between (' ' :: before) ('=' :: ' ' :: rest), _⟩) rfl rfl).thenFind
      ((Runs.one (t := ⟨.between ('=' :: ' ' :: before) (' ' :: rest), _⟩) rfl rfl).thenFind
        (.one rfl rfl))
  exact (runs_let hword (.inl rfl) hhead past).trans (hequals _ _)

end TypstLint.Markup
