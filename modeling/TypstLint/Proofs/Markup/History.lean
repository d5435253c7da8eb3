import Mathlib.Data.List.Forall2
import TypstLint.Proofs.Markup.Shift

set_option autoImplicit false

/-! # What a scan remembers

A scan looks back at what it read only for the scheme of a web address and for the start of a statement,
and of code behind a `#` it only has to know whether the first word is still to come. So two scans that
have the same text in front of them, stand in the same frames and agree in these two things find the
same from there on, at places that differ by the difference of their positions (`scanRest_alike`). -/

namespace TypstLint

/-- Two computations that fail in the same way, or return values that stand in a relation. -/
inductive Agree {ε α β : Type} (r : α → β → Prop) : Except ε α → Except ε β → Prop
  | error (e : ε) : Agree r (.error e) (.error e)
  | ok {a : α} {b : β} : r a b → Agree r (.ok a) (.ok b)

namespace Agree

variable {ε α β γ δ : Type} {r : α → β → Prop} {r' : γ → δ → Prop} {x : Except ε α} {y : Except ε β}

theorem map {f : α → γ} {g : β → δ} (h : Agree r x y) (hmap : ∀ a b, r a b → r' (f a) (g b)) :
    Agree r' (x.map f) (y.map g) := by
  cases h with
  | error e => exact .error e
  | ok hr => exact .ok (hmap _ _ hr)

/-- The later computations have to agree only on values that the earlier ones return. -/
theorem bind {f : α → Except ε γ} {g : β → Except ε δ} (h : Agree r x y)
    (hbind : ∀ a b, x = .ok a → y = .ok b → r a b → Agree r' (f a) (g b)) :
    Agree r' (x.bind f) (y.bind g) := by
  cases h with
  | error e => exact .error e
  | ok hr => exact hbind _ _ rfl rfl hr

theorem ite {p : Prop} [Decidable p] {x' : Except ε α} {y' : Except ε β} (hthen : Agree r x y)
    (helse : Agree r x' y') : Agree r (if p then x else x') (if p then y else y') := by
  split
  · exact hthen
  · exact helse

end Agree

namespace Markup

variable {past past' recent : List Char} {c : Char}

/-! ## Looking back -/

/-- Whether a text, last character first, ends with the scheme of a web address. -/
def endsWithScheme (past : List Char) : Bool :=
  "http:".toList.reverse.isPrefixOf past || "https:".toList.reverse.isPrefixOf past

/-- Whether a character is passed over in the search for the start of a statement. -/
def isStatementBlank (c : Char) : Bool := c == ' ' || c == '\t' || c == '\r'

/-- Whether a statement can start behind a text of a block of code, last character first. -/
def admitsStatement (past : List Char) : Bool :=
  ((past.dropWhile isStatementBlank).head?).any fun c => c == '\x7b' || c == ';' || c == '\n'

theorem startsStatement_code_nil (opener : Nat) (cur : Cursor) :
    startsStatement (.code opener []) cur = admitsStatement cur.past := rfl

/-- Two texts are the same to a look back from anywhere behind them. -/
def SameBehind (look : List Char → Bool) (past past' : List Char) : Prop :=
  ∀ recent, look (recent ++ past) = look (recent ++ past')

namespace SameBehind

variable {look : List Char → Bool}

theorem append (h : SameBehind look past past') (recent : List Char) :
    SameBehind look (recent ++ past) (recent ++ past') := by
  intro more
  rw [← List.append_assoc, ← List.append_assoc]
  exact h (more ++ recent)

theorem here (h : SameBehind look past past') : look past = look past' := h []

end SameBehind

/-- A word does not reach across a character that it does not have. -/
theorem isPrefixOf_append_of_notMem {word : List Char} (hpast : ∀ c ∈ past.head?, c ∉ word)
    (recent : List Char) : word.isPrefixOf (recent ++ past) = word.isPrefixOf recent := by
  induction word generalizing recent with
  | nil => rfl
  | cons d word ih =>
    have hword : ∀ c ∈ past.head?, c ∉ word := fun c hc hmem =>
      hpast c hc (List.mem_cons_of_mem d hmem)
    cases recent with
    | nil =>
      cases past with
      | nil => rfl
      | cons c past =>
        have hne : (d == c) = false := beq_false_of_ne fun heq => by simp [heq] at hpast
        rw [List.nil_append, List.isPrefixOf_cons_cons, hne]
        rfl
    | cons e recent =>
      rw [List.cons_append, List.isPrefixOf_cons_cons, List.isPrefixOf_cons_cons, ih hword]

/-- Behind a character that is none of a scheme, no scheme reaches back. -/
theorem endsWithScheme_append (hpast : ∀ c ∈ past.head?, c ∉ "https:".toList)
    (recent : List Char) : endsWithScheme (recent ++ past) = endsWithScheme recent := by
  have hshort : ∀ c ∈ past.head?, c ∉ "http:".toList.reverse := fun c hc hmem =>
    hpast c hc (by revert hmem; simp; tauto)
  have hlong : ∀ c ∈ past.head?, c ∉ "https:".toList.reverse := fun c hc hmem =>
    hpast c hc (List.mem_reverse.mp hmem)
  simp only [endsWithScheme, isPrefixOf_append_of_notMem hshort, isPrefixOf_append_of_notMem hlong]

theorem sameBehind_scheme (hpast : ∀ c ∈ past.head?, c ∉ "https:".toList)
    (hpast' : ∀ c ∈ past'.head?, c ∉ "https:".toList) : SameBehind endsWithScheme past past' := by
  intro recent
  rw [endsWithScheme_append hpast, endsWithScheme_append hpast']

/-- The search for the start of a statement ends at the first character that is no blank. -/
theorem admitsStatement_append (hrecent : ∃ c ∈ recent, isStatementBlank c = false)
    (past : List Char) : admitsStatement (recent ++ past) = admitsStatement recent := by
  obtain ⟨c, hc, hblank⟩ := hrecent
  have hne : recent.dropWhile isStatementBlank ≠ [] := fun h => by
    simpa [hblank] using List.dropWhile_eq_nil_iff.mp h c hc
  rw [admitsStatement, List.dropWhile_append, if_neg (by simpa using hne), admitsStatement]
  cases hdrop : recent.dropWhile isStatementBlank with
  | nil => exact absurd hdrop hne
  | cons => rfl

theorem sameBehind_statement (hrecent : ∃ c ∈ recent, isStatementBlank c = false) :
    SameBehind admitsStatement (recent ++ past) (recent ++ past') := by
  intro more
  have hmore : ∃ c ∈ more ++ recent, isStatementBlank c = false := by
    obtain ⟨c, hc, hblank⟩ := hrecent
    exact ⟨c, List.mem_append_right _ hc, hblank⟩
  rw [← List.append_assoc, ← List.append_assoc, admitsStatement_append hmore,
    admitsStatement_append hmore]

/-! ## Frames -/

/-- A frame is another one at a place `k` characters further on. Of code behind a `#` that was opened well
before the position `n` of the other one, the place does not matter. -/
inductive Frame.Alike (n k : Nat) : Frame → Frame → Prop
  | moved (frame : Frame) (h : ∀ opener statement topLevel parens,
      frame = .embed opener statement topLevel parens → n ≤ opener) : Alike n k (frame.shift k) frame
  | passed (opener opener' : Nat) (statement topLevel : Bool) (parens : List Nat)
      (h : opener + 1 < n + k) (h' : opener' + 1 < n) :
      Alike n k (.embed opener statement topLevel (parens.map (· + k)))
        (.embed opener' statement topLevel parens)

namespace Frame.Alike

variable {n k : Nat} {frame frame' : Frame}

theorem parens_eq (h : Frame.Alike n k frame frame') : frame.parens = frame'.parens.map (· + k) := by
  cases h with
  | moved => exact parens_shift k frame'
  | passed => rfl

theorem isEmbedded_eq (h : Frame.Alike n k frame frame') : frame.isEmbedded = frame'.isEmbedded := by
  cases h with
  | moved => exact isEmbedded_shift k frame'
  | passed => rfl

theorem isStatement_eq (h : Frame.Alike n k frame frame') : frame.isStatement = frame'.isStatement := by
  cases h with
  | moved => exact isStatement_shift k frame'
  | passed => rfl

theorem isTopLevel_eq (h : Frame.Alike n k frame frame') : isTopLevel frame = isTopLevel frame' := by
  cases h with
  | moved => exact isTopLevel_shift k frame'
  | passed => rfl

theorem issues_eq (h : Frame.Alike n k frame frame') :
    frame.issues = frame'.issues.map (·.shift k) := by
  cases h with
  | moved => exact issues_shift k frame'
  | passed opener opener' statement topLevel parens =>
    exact issues_shift k (.embed opener' statement topLevel parens)

theorem withParens (h : Frame.Alike n k frame frame') (parens : List Nat) :
    Frame.Alike n k (frame.withParens (parens.map (· + k))) (frame'.withParens parens) := by
  cases h with
  | moved _ hopened =>
    rw [withParens_shift]
    refine .moved _ fun opener statement topLevel parens' heq => ?_
    cases frame' with
    | embed opener' statement' topLevel' parens' =>
      cases heq
      exact hopened _ _ _ _ rfl
    | content | math | code => cases heq
  | passed opener opener' statement topLevel _ hopener hopener' =>
    exact .passed opener opener' statement topLevel parens hopener hopener'

end Frame.Alike

/-! ## States -/

/-- Two scans that have the same text in front of them and stand in the same frames, the one behind
`before`, the other behind `before'`, which is `k` characters shorter. -/
structure State.Matches (before before' : List Char) (k : Nat) (s s' : State) : Prop where
  length_eq : before.length = before'.length + k
  cursor : ∃ base : Cursor, s.cursor = base.after before ∧ s'.cursor = base.after before'
  frames : List.Forall₂ (Frame.Alike before'.length k) s.frames s'.frames

/-- Two steps, or scans, that lead to matching states and find the same. -/
abbrev SameOutcome (before before' : List Char) (k : Nat) : Outcome → Outcome → Prop :=
  Agree fun outcome outcome' => outcome.1.Matches before before' k outcome'.1
    ∧ outcome.2 = outcome'.2.map (·.shift k)

variable {before before' : List Char} {k : Nat} {s s' : State} {frame frame' : Frame}
  {outer outer' : List Frame}

namespace State.Matches

theorem rest_eq (h : s.Matches before before' k s') : s.cursor.rest = s'.cursor.rest := by
  obtain ⟨base, hcursor, hcursor'⟩ := h.cursor
  rw [hcursor, hcursor', Cursor.rest_after, Cursor.rest_after]

theorem pos_eq (h : s.Matches before before' k s') : s.cursor.pos = s'.cursor.pos + k := by
  obtain ⟨base, hcursor, hcursor'⟩ := h.cursor
  rw [hcursor, hcursor', Cursor.pos_after, Cursor.pos_after, h.length_eq, Nat.add_assoc]

theorem le_pos (h : s.Matches before before' k s') : before'.length ≤ s'.cursor.pos := by
  obtain ⟨base, -, hcursor'⟩ := h.cursor
  rw [hcursor', Cursor.pos_after]
  exact Nat.le_add_left _ _

theorem advance (h : s.Matches before before' k s') (n : Nat) :
    (s.advance n).Matches before before' k (s'.advance n) where
  length_eq := h.length_eq
  cursor := by
    obtain ⟨base, hcursor, hcursor'⟩ := h.cursor
    refine ⟨Cursor.advance n base, ?_, ?_⟩
    · rw [cursor_advance, hcursor, Cursor.advance_after]
    · rw [cursor_advance, hcursor', Cursor.advance_after]
  frames := h.frames

theorem pop (h : s.Matches before before' k s') : s.pop.Matches before before' k s'.pop where
  length_eq := h.length_eq
  cursor := h.cursor
  frames := by
    have hframes := h.frames
    rw [frames_pop, frames_pop]
    generalize s.frames = frames, s'.frames = frames' at hframes
    cases hframes with
    | nil => exact .nil
    | cons _ houter => exact houter

theorem push (h : s.Matches before before' k s') (hframe : Frame.Alike before'.length k frame frame') :
    (s.push frame).Matches before before' k (s'.push frame') where
  length_eq := h.length_eq
  cursor := h.cursor
  frames := .cons hframe h.frames

theorem replace (h : s.Matches before before' k s')
    (hframe : Frame.Alike before'.length k frame frame') :
    (s.replace frame).Matches before before' k (s'.replace frame') := h.pop.push hframe

theorem plain (h : s.Matches before before' k s') :
    SameOutcome before before' k (plain s) (Markup.plain s') := .ok ⟨h, rfl⟩

end State.Matches

/-- Moving on twice is moving on once. -/
theorem Finding.shift_shift (f : Finding) (n k : Nat) : (f.shift n).shift k = f.shift (n + k) := by
  have hspan : ∀ span : Text.Span, (span.shift n).shift k = span.shift (n + k) := by
    intro span
    simp only [Text.Span.shift, Text.Span.mk.injEq]
    omega
  cases f with
  | directive d => simp [shift, Directive.shift, Literal.shift, hspan, Function.comp_def]
  | binding b => simp [shift, Binding.shift, Param.shift, hspan, Function.comp_def]
  | issue i => simp [shift, Issue.shift, hspan]

/-- What was found behind one text is what was found behind another one, moved on. -/
theorem map_shift_of_length {n m : Nat} (h : m = n + k) (found : List Finding) :
    found.map (·.shift m) = (found.map (·.shift n)).map (·.shift k) := by
  rw [List.map_map, h]
  exact List.map_congr_left fun f _ => (f.shift_shift n k).symm

/-! ## Steps -/

theorem readRegion_matches (kind : RegionKind) (h : s.Matches before before' k s') :
    SameOutcome before before' k (readRegion kind s) (readRegion kind s') := by
  unfold readRegion
  rw [h.rest_eq]
  cases Region.read kind s'.cursor.rest with
  | error fault => exact .error fault
  | ok region =>
    refine .ok ⟨h.advance region.length, ?_⟩
    dsimp only
    rw [h.pos_eq, Region.issues_add, Finding.map_shift_issues]

theorem enterCode_matches (h : s.Matches before before' k s') :
    (enterCode s).Matches before before' k (enterCode s') := by
  have hnext := h.advance 1
  have hempty : s.frames.isEmpty = s'.frames.isEmpty := by
    have hframes := h.frames
    generalize s.frames = frames, s'.frames = frames' at hframes ⊢
    cases hframes with
    | nil => rfl
    | cons => rfl
  unfold enterCode
  simp only [hnext.rest_eq, h.pos_eq, hempty]
  split
  · exact hnext
  · refine hnext.push (.moved (.embed s'.cursor.pos _ _ []) fun opener _ _ _ heq => ?_)
    cases heq
    exact h.le_pos

theorem textStep_matches (inMath inContent : Bool) (c : Char) (h : s.Matches before before' k s')
    (hscheme : followsScheme s.cursor = followsScheme s'.cursor) :
    SameOutcome before before' k (textStep inMath inContent c s) (textStep inMath inContent c s') := by
  have hadmits : admitsRegion inMath s.cursor = admitsRegion inMath s'.cursor := by
    funext kind
    cases kind with
    | lineComment => rw [admitsRegion, admitsRegion, hscheme]
    | _ => rfl
  have hmath : Frame.Alike before'.length k (.math s.cursor.pos) (.math s'.cursor.pos) := by
    rw [h.pos_eq]
    exact .moved (.math s'.cursor.pos) fun _ _ _ _ heq => by cases heq
  unfold textStep
  rw [h.rest_eq, hadmits]
  cases (RegionKind.at? s'.cursor.rest).filter (admitsRegion inMath s'.cursor) with
  | some kind => exact readRegion_matches kind h
  | none =>
    refine .ite (h.advance 2).plain (.ite ?_ (.ite (h.pop.advance 1).plain
      (.ite (enterCode_matches h).plain (h.advance 1).plain)))
    cases inMath with
    | true => exact (h.pop.advance 1).plain
    | false => exact ((h.push hmath).advance 1).plain

/-- The words that start a statement which a scan reads. -/
def isReadStatement (word : List Char) : Bool :=
  (directiveKind? word).isSome || word == "let".toList

/-- A statement starts at a place behind `before` if it does at the one behind `before'`. -/
theorem startsStatement_matches (h : s.Matches before before' k s')
    (hframe : Frame.Alike before'.length k frame frame')
    (hlook : ∀ opener, frame' = .code opener [] →
      admitsStatement s.cursor.past = admitsStatement s'.cursor.past) :
    startsStatement frame s.cursor = startsStatement frame' s'.cursor := by
  have hpos := h.pos_eq
  have hle := h.le_pos
  cases hframe with
  | moved _ hopened =>
    cases frame' with
    | content | math => rfl
    | embed opener =>
      simp only [startsStatement, Frame.shift]
      rw [Bool.eq_iff_iff, beq_iff_eq, beq_iff_eq]
      omega
    | code opener parens =>
      cases parens with
      | nil => exact hlook opener rfl
      | cons => rfl
  | passed opener opener' statement topLevel parens hopener hopener' =>
    simp only [startsStatement]
    rw [Bool.eq_iff_iff, beq_iff_eq, beq_iff_eq]
    omega

/-- Where a statement starts it stands behind the texts that were read, with the `#` before it. -/
theorem statementPos_matches {base : Cursor} (hlength : before.length = before'.length + k)
    (hframe : Frame.Alike before'.length k frame frame')
    (hstarts : startsStatement frame' (base.after before') = true) :
    ∃ start, statementPos frame (base.after before) = start + before.length
      ∧ statementPos frame' (base.after before') = start + before'.length := by
  cases hframe with
  | moved _ hopened =>
    cases frame' with
    | content | math => cases hstarts
    | code => exact ⟨base.pos, rfl, rfl⟩
    | embed opener statement topLevel parens =>
      have hle := hopened opener statement topLevel parens rfl
      refine ⟨opener - before'.length, ?_, ?_⟩
      · simp only [Frame.shift, statementPos]
        omega
      · simp only [statementPos]
        omega
  | passed opener opener' statement topLevel parens hopener hopener' =>
    simp only [startsStatement, Cursor.pos_after, beq_iff_eq] at hstarts
    omega

/-- A word that starts nothing is passed over. -/
theorem wordStep_of_not_read (h : isReadStatement (identOf s.cursor.rest) = false) :
    wordStep frame s = plain (s.advance (identOf s.cursor.rest).length) := by
  obtain ⟨hkind, hlet⟩ := Bool.or_eq_false_iff.mp h
  rw [Option.isSome_eq_false_iff, Option.isNone_iff_eq_none] at hkind
  simp only [wordStep, hkind, hlet]
  split
  · rfl
  · rfl

/-- So is a word at a place where no statement can start. -/
theorem wordStep_of_not_starts (h : startsStatement frame s.cursor = false) :
    wordStep frame s = plain (s.advance (identOf s.cursor.rest).length) := by
  simp only [wordStep, h]
  rfl

theorem sameOutcome_of_moved (h : s.Matches before before' k s')
    (result : Except Fault (Cursor × List Finding)) :
    SameOutcome before before' k
      ((result.map (moveFindings before)).map fun (cursor, found) => ({ s with cursor }, found))
      ((result.map (moveFindings before')).map fun (cursor, found) => ({ s' with cursor }, found)) := by
  cases result with
  | error fault => exact .error fault
  | ok result =>
    exact .ok ⟨⟨h.length_eq, ⟨result.1, rfl, rfl⟩, h.frames⟩, map_shift_of_length h.length_eq _⟩

theorem wordStep_matches (h : s.Matches before before' k s')
    (hframe : Frame.Alike before'.length k frame frame')
    (hlook : isReadStatement (identOf s'.cursor.rest) = true → ∀ opener, frame' = .code opener [] →
      admitsStatement s.cursor.past = admitsStatement s'.cursor.past) :
    SameOutcome before before' k (wordStep frame s) (wordStep frame' s') := by
  have hpass := (h.advance (identOf s'.cursor.rest).length).plain
  cases hread : isReadStatement (identOf s'.cursor.rest) with
  | false =>
    have hread' : isReadStatement (identOf s.cursor.rest) = false := by rw [h.rest_eq, hread]
    rw [wordStep_of_not_read hread, wordStep_of_not_read hread', h.rest_eq]
    exact hpass
  | true =>
    have hstarts := startsStatement_matches h hframe (hlook hread)
    cases hstarts' : startsStatement frame' s'.cursor with
    | false =>
      rw [wordStep_of_not_starts hstarts', wordStep_of_not_starts (hstarts.trans hstarts'), h.rest_eq]
      exact hpass
    | true =>
      obtain ⟨base, hcursor, hcursor'⟩ := h.cursor
      rw [hcursor'] at hstarts'
      obtain ⟨start, hpos, hpos'⟩ := statementPos_matches h.length_eq hframe hstarts'
      rw [hcursor, hcursor', hstarts'] at hstarts
      simp only [wordStep, hcursor, hcursor', hstarts, hstarts', Cursor.rest_after,
        Cursor.advance_after, hpos, hpos', readDirective_after, readBinding_after, hframe.isTopLevel_eq]
      cases directiveKind? (identOf base.rest) with
      | some kind => exact sameOutcome_of_moved h _
      | none =>
        simp only [Bool.not_true, Bool.false_eq_true, if_false]
        split
        · exact sameOutcome_of_moved h _
        · exact sameOutcome_of_moved h (.ok (Cursor.advance (identOf base.rest).length base, []))

theorem expressionStep_matches (c : Char) (h : s.Matches before before' k s') :
    (expressionStep c s).Matches before before' k (expressionStep c s') := by
  unfold expressionStep
  rw [h.rest_eq]
  split
  · exact h.advance 1
  · exact h.pop

theorem codeStep_matches (c : Char) (h : s.Matches before before' k s')
    (hframe : Frame.Alike before'.length k frame frame')
    (hlook : isReadStatement (identOf s'.cursor.rest) = true → ∀ opener, frame' = .code opener [] →
      admitsStatement s.cursor.past = admitsStatement s'.cursor.past) :
    SameOutcome before before' k (codeStep frame c s) (codeStep frame' c s') := by
  have hmoved : ∀ frame' : Frame, (∀ opener statement topLevel parens,
      frame' ≠ .embed opener statement topLevel parens) →
      Frame.Alike before'.length k (frame'.shift k) frame' :=
    fun frame' hne => .moved frame' fun _ _ _ _ heq => absurd heq (hne _ _ _ _)
  have hcontent : Frame.Alike before'.length k (.content s.cursor.pos) (.content s'.cursor.pos) := by
    rw [h.pos_eq]
    exact hmoved (.content s'.cursor.pos) (by simp)
  have hcode : Frame.Alike before'.length k (.code s.cursor.pos []) (.code s'.cursor.pos []) := by
    rw [h.pos_eq]
    exact hmoved (.code s'.cursor.pos []) (by simp)
  have hopen : Frame.Alike before'.length k (frame.withParens (s.cursor.pos :: frame.parens))
      (frame'.withParens (s'.cursor.pos :: frame'.parens)) := by
    rw [h.pos_eq, hframe.parens_eq]
    exact hframe.withParens (s'.cursor.pos :: frame'.parens)
  have hempty : frame.parens.isEmpty = frame'.parens.isEmpty := by
    rw [hframe.parens_eq, List.isEmpty_map]
  unfold codeStep
  simp only [h.rest_eq, hframe.isEmbedded_eq, hframe.isStatement_eq, hempty]
  cases RegionKind.at? s'.cursor.rest with
  | some kind => exact readRegion_matches kind h
  | none =>
    refine .ite ((h.replace hopen).advance 1).plain (.ite ((h.push hcontent).advance 1).plain
      (.ite ((h.push hcode).advance 1).plain (.ite ?_ (.ite ?_ (.ite h.pop.plain
      (.ite (h.pop.advance 1).plain (.ite (wordStep_matches h hframe hlook)
      (.ite (expressionStep_matches c h).plain (h.advance 1).plain))))))))
    · rw [hframe.parens_eq]
      cases frame'.parens with
      | nil =>
        cases frame'.isEmbedded with
        | true => exact h.pop.plain
        | false => exact (h.advance 1).plain
      | cons opener outer => exact ((h.replace (hframe.withParens outer)).advance 1).plain
    · cases frame'.isEmbedded with
      | true => exact h.pop.plain
      | false => exact (h.pop.advance 1).plain

/-- A step from matching states does the same, if it comes to the same in its look back. -/
theorem step_matches (c : Char) (h : s.Matches before before' k s')
    (hscheme : followsScheme s.cursor = followsScheme s'.cursor)
    (hlook : isReadStatement (identOf s'.cursor.rest) = true →
      ∀ opener, s'.frames.head? = some (.code opener []) →
      admitsStatement s.cursor.past = admitsStatement s'.cursor.past) :
    SameOutcome before before' k (s.step c) (s'.step c) := by
  have hframes := h.frames
  unfold State.step
  generalize hf : s.frames = frames, hf' : s'.frames = frames' at hframes
  cases hframes with
  | nil => exact textStep_matches false false c h hscheme
  | cons hframe houter =>
    rename_i frame frame' outer outer'
    have hcode := codeStep_matches c h hframe fun hread opener heq =>
      hlook hread opener (by rw [hf', heq]; rfl)
    cases hframe with
    | passed => exact hcode
    | moved =>
      cases frame' with
      | content => exact textStep_matches false true c h hscheme
      | math => exact textStep_matches true false c h hscheme
      | code => exact hcode
      | embed => exact hcode

/-! ## Runs -/

/-- What was read on the way from one place to another one. -/
theorem Cursor.Moves.exists_recent {cur cur' : Cursor} (h : cur.Moves cur') :
    ∃ recent, cur'.past = recent ++ cur.past ∧ cur.rest = recent.reverse ++ cur'.rest := by
  obtain ⟨recent, hpast⟩ := h.past_suffix
  refine ⟨recent, hpast.symm, ?_⟩
  have htext := h.text_eq
  rw [text, text, ← hpast, List.reverse_append, List.append_assoc] at htext
  exact (List.append_cancel_left htext).symm

/-- Two scans in matching states whose looks back agree, from here on. -/
structure State.Alike (before before' : List Char) (k : Nat) (s s' : State) : Prop
    extends s.Matches before before' k s' where
  scheme : SameBehind endsWithScheme s.cursor.past s'.cursor.past
  statement : (∃ opener parens, Frame.code opener parens ∈ s'.frames) →
    SameBehind admitsStatement s.cursor.past s'.cursor.past

variable {next next' : State} {found found' : List Finding} {rest : List Char}

/-- A block of code that a step leads to was there before, or its brace was just read. -/
theorem exists_code_of_step {opener : Nat} {parens : List Nat} (h : s.step c = .ok (next, found))
    (hmem : Frame.code opener parens ∈ next.frames) :
    (∃ opener parens, Frame.code opener parens ∈ s.frames)
      ∨ c = '\x7b' ∧ next.cursor = Cursor.advance 1 s.cursor := by
  cases stepsTo_of_step h with
  | move | region => exact .inl ⟨opener, parens, hmem⟩
  | leave | close => exact .inl ⟨opener, parens, List.mem_of_mem_tail hmem⟩
  | enter frame hopens =>
    rcases List.mem_cons.mp hmem with rfl | hmem
    · exact .inr ⟨hopens.2.2, rfl⟩
    · exact .inl ⟨opener, parens, hmem⟩
  | parens frame outer parens' hframes =>
    rcases List.mem_cons.mp hmem with hframe | hmem
    · cases frame with
      | code opener' old => exact .inl ⟨opener', old, hframes ▸ List.mem_cons_self⟩
      | content | math | embed => cases hframe
    · exact .inl ⟨opener, parens, List.mem_of_mem_tail hmem⟩
  | word frame outer _ _ _ _ hword => exact .inl ⟨opener, parens, (wordStep_cases hword).1 ▸ hmem⟩

/-- Steps from matching states to matching states read the same. -/
theorem exists_recent_of_step (h : s.Matches before before' k s') (hstep : s.step c = .ok (next, found))
    (hstep' : s'.step c = .ok (next', found')) (hnext : next.Matches before before' k next') :
    ∃ recent, next.cursor.past = recent ++ s.cursor.past
      ∧ next'.cursor.past = recent ++ s'.cursor.past
      ∧ s'.cursor.rest = recent.reverse ++ next'.cursor.rest := by
  obtain ⟨recent, hpast, hrest⟩ := (step_finds hstep).moves.exists_recent
  obtain ⟨recent', hpast', hrest'⟩ := (step_finds hstep').moves.exists_recent
  rw [h.rest_eq, hnext.rest_eq, hrest'] at hrest
  obtain rfl := List.reverse_injective (List.append_cancel_right hrest)
  exact ⟨recent', hpast, hpast', hrest'⟩

/-- Matching states stay alike if they were, or if the step read a character to which a look back comes
first. -/
theorem State.Alike.of_step (h : s.Matches before before' k s')
    (hscheme : SameBehind endsWithScheme s.cursor.past s'.cursor.past)
    (hstatement : (∃ opener parens, Frame.code opener parens ∈ s'.frames) →
      SameBehind admitsStatement s.cursor.past s'.cursor.past
        ∨ isStatementBlank c = false ∧ s'.cursor.pos < next'.cursor.pos)
    (hrest : s'.cursor.rest = c :: rest) (hstep : s.step c = .ok (next, found))
    (hstep' : s'.step c = .ok (next', found')) (hnext : next.Matches before before' k next') :
    next.Alike before before' k next' := by
  obtain ⟨recent, hpast, hpast', hread⟩ := exists_recent_of_step h hstep hstep' hnext
  have hover : isStatementBlank c = false → s'.cursor.pos < next'.cursor.pos →
      SameBehind admitsStatement next.cursor.past next'.cursor.past := by
    intro hblank hlt
    rw [hpast, hpast']
    refine sameBehind_statement ⟨c, ?_, hblank⟩
    rw [hrest] at hread
    cases hrecent : recent.reverse with
    | nil =>
      rw [s'.cursor.pos_eq, next'.cursor.pos_eq, hpast', List.reverse_eq_nil_iff.mp hrecent] at hlt
      exact absurd hlt (Nat.lt_irrefl _)
    | cons d more =>
      rw [hrecent] at hread
      rw [(List.cons.inj hread).1, ← List.mem_reverse, hrecent]
      exact List.mem_cons_self
  refine ⟨hnext, ?_, ?_⟩
  · rw [hpast, hpast']
    exact hscheme.append recent
  · rintro ⟨opener, parens, hmem⟩
    rcases exists_code_of_step hstep' hmem with hcode | ⟨rfl, hcursor⟩
    · rcases hstatement hcode with hsame | ⟨hblank, hlt⟩
      · rw [hpast, hpast']
        exact hsame.append recent
      · exact hover hblank hlt
    · refine hover (by decide) ?_
      rw [hcursor]
      exact Cursor.pos_lt_advance Nat.one_pos (by simp [hrest])

/-- Scans do the same if their next steps do, and the scans behind these steps. -/
theorem sameOutcome_scanRest (hrest : s'.cursor.rest = c :: rest) (h : s.cursor.rest = s'.cursor.rest)
    (hmatches : SameOutcome before before' k (s.step c) (s'.step c))
    (hlater : ∀ {next found next' found'}, s.step c = .ok (next, found) → s'.step c = .ok (next', found') →
      next.Matches before before' k next' →
      SameOutcome before before' k (scanRest next) (scanRest next')) :
    SameOutcome before before' k (scanRest s) (scanRest s') := by
  rw [scanRest_of_cons hrest, scanRest_of_cons (h.trans hrest)]
  refine hmatches.bind fun (next, found) (next', found') hstep hstep' hnext => ?_
  refine (hlater hstep hstep' hnext.1).map fun last last' hlast => ⟨hlast.1, ?_⟩
  exact (congrArg₂ (· ++ ·) hnext.2 hlast.2).trans List.map_append.symm

theorem scanRest_alike (h : s.Alike before before' k s') :
    SameOutcome before before' k (scanRest s) (scanRest s') := by
  induction s' using State.induction generalizing s with
  | atEnd s' hrest =>
    rw [scanRest_of_nil hrest, scanRest_of_nil (h.rest_eq.trans hrest)]
    exact h.plain
  | step s' c rest hrest ih =>
    have hmatches := step_matches c h.toMatches h.scheme.here fun _ opener hframe =>
      (h.statement ⟨opener, [], List.mem_of_mem_head? hframe⟩).here
    refine sameOutcome_scanRest hrest h.rest_eq hmatches fun hstep hstep' hnext => ih _ _ hstep' ?_
    exact .of_step h.toMatches h.scheme (fun hcode => .inl (h.statement hcode)) hrest hstep hstep' hnext

/-! ## Scans behind a text -/

/-- Blocks of code are opened by braces, which lie behind the place of the scan. -/
def State.BlocksOpened (s : State) : Prop :=
  ∀ opener parens, Frame.code opener parens ∈ s.frames → '\x7b' ∈ s.cursor.past

variable {text : List Char}

theorem State.alike_after (htext : text.getLast? = some '\n') (hopened : s.BlocksOpened) :
    (s.after text).Alike text [] text.length s where
  length_eq := (Nat.zero_add _).symm
  cursor := ⟨s.cursor, rfl, by simp [Cursor.after]⟩
  frames := by
    rw [frames_after, List.forall₂_map_left_iff]
    exact List.forall₂_same.mpr fun frame _ => .moved frame fun _ _ _ _ _ => Nat.zero_le _
  scheme := by
    have hlast : ∀ c ∈ text.reverse.head?, c ∉ "https:".toList := by
      rw [List.head?_reverse, htext]
      rintro c ⟨rfl⟩
      decide
    intro recent
    rw [cursor_after, Cursor.after, ← List.append_assoc, endsWithScheme_append hlast]
  statement := by
    rintro ⟨opener, parens, hmem⟩
    have hpast : ∃ c ∈ s.cursor.past, isStatementBlank c = false :=
      ⟨'\x7b', hopened opener parens hmem, by decide⟩
    have hsame : SameBehind admitsStatement (s.cursor.past ++ text.reverse) (s.cursor.past ++ []) :=
      sameBehind_statement hpast
    rwa [List.append_nil] at hsame

theorem State.Matches.eq_after (h : s.Matches text [] text.length s') : s = s'.after text := by
  obtain ⟨cursor, frames⟩ := s
  obtain ⟨cursor', frames'⟩ := s'
  obtain ⟨base, hcursor, hcursor'⟩ := h.cursor
  obtain rfl : cursor = base.after text := hcursor
  obtain rfl : cursor' = base := hcursor'.trans (by simp [Cursor.after])
  have hframes : frames = frames'.map (·.shift text.length) := by
    rw [← List.forall₂_eq_eq_eq, List.forall₂_map_right_iff]
    refine h.frames.imp fun frame frame' hframe => ?_
    cases hframe with
    | moved => rfl
    | passed _ _ _ _ _ _ h' => exact absurd h' (Nat.not_lt_zero _)
  rw [hframes]
  rfl

/-- Behind a text that ends with a line feed a scan does what it does at the start of a text. -/
theorem scanRest_after (htext : text.getLast? = some '\n') (hopened : s.BlocksOpened) :
    scanRest (s.after text) = (scanRest s).map (moveOutcome text) := by
  have hsame := scanRest_alike (State.alike_after htext hopened)
  generalize scanRest (s.after text) = result, scanRest s = result' at hsame
  cases hsame with
  | error fault => rfl
  | ok h =>
    rename_i outcome outcome'
    obtain ⟨hstate, hfound⟩ := h
    exact congrArg Except.ok (Prod.ext hstate.eq_after hfound)

end Markup

end TypstLint
