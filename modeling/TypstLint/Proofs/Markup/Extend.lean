import TypstLint.Proofs.Markup.LineEnd
import TypstLint.Proofs.Markup.Scan

set_option autoImplicit false

/-! # Scans of a text that goes on

A scan that meets no issue up to a line end does the same if the text goes on behind it, and it then
stands in nothing but the text of the file (`scanRest_extend`). -/

namespace TypstLint.Markup

/-- The same place in a text that goes on with `b`. -/
def Cursor.extend (b : List Char) (cur : Cursor) : Cursor where
  pos := cur.pos
  past := cur.past
  rest := cur.rest ++ b
  pos_eq := cur.pos_eq

/-- Whether the rest of the text behind a cursor ends with a line feed. -/
abbrev Cursor.EndsLine (cur : Cursor) : Prop := Markup.EndsLine cur.rest

variable {c : Char} {cur : Cursor} {b : List Char}

namespace Cursor

@[simp] theorem pos_extend : (cur.extend b).pos = cur.pos := by simp [extend]

@[simp] theorem rest_extend : (cur.extend b).rest = cur.rest ++ b := rfl

theorem next_extend (h : cur.rest ≠ []) : (cur.extend b).next = cur.next.extend b := by
  obtain ⟨pos, past, rest, hpos⟩ := cur
  cases rest with
  | nil => exact absurd rfl h
  | cons c rest => rfl

theorem advance_extend {n : Nat} (h : n ≤ cur.rest.length) :
    advance n (cur.extend b) = (advance n cur).extend b := by
  induction n generalizing cur with
  | zero => rfl
  | succ n ih =>
    have hne : cur.rest ≠ [] := List.length_pos_iff.mp (by omega)
    rw [advance, advance, next_extend hne]
    refine ih ?_
    rw [rest_next, List.length_drop]
    omega

namespace EndsLine

theorem advance {n : Nat} (h : cur.EndsLine) (hn : n < cur.rest.length) :
    (Cursor.advance n cur).EndsLine := by
  rw [EndsLine, rest_advance]
  exact h.drop hn

theorem length_blanks_lt (h : cur.EndsLine) :
    (cur.rest.takeWhile isInlineBlank).length < cur.rest.length :=
  Text.length_takeWhile_lt_of_mem h.lineFeed_mem (by decide)

theorem skipBlanks (h : cur.EndsLine) : cur.skipBlanks.EndsLine := h.advance h.length_blanks_lt

theorem behindWord (h : cur.EndsLine) : cur.behindWord.EndsLine := h.advance (length_identOf_lt h)

/-- Behind any other character the line goes on. -/
theorem next (h : cur.EndsLine) (hc : c ≠ '\n') (hmeets : cur.meets c = true) : cur.next.EndsLine := by
  obtain ⟨rest, hrest⟩ := List.head?_eq_some_iff.mp (beq_iff_eq.mp hmeets)
  have h : Markup.EndsLine (c :: rest) := hrest ▸ h
  rw [EndsLine, rest_next, hrest]
  exact h.tail (h.tail_ne_nil hc)

end EndsLine

theorem skipBlanks_extend (h : cur.EndsLine) :
    (cur.extend b).skipBlanks = cur.skipBlanks.extend b := by
  have hblanks := Text.takeWhile_append_of_mem (b := b) (p := isInlineBlank) h.lineFeed_mem (by decide)
  rw [skipBlanks, skipWhile, rest_extend, hblanks, advance_extend h.length_blanks_lt.le]
  rfl

theorem meets_extend (h : cur.EndsLine) : (cur.extend b).meets c = cur.meets c := by
  obtain ⟨d, rest, hrest⟩ := List.exists_cons_of_ne_nil h.ne_nil
  simp [meets, hrest]

end Cursor

/-! ## Groups -/

/-- The same group in a text that goes on. -/
def Group.extend (b : List Char) (group : Group) : Group :=
  { group with behind := group.behind.extend b }

theorem Group.closed_of_issues {group : Group} (h : Group.read cur = .ok group)
    (hclean : group.issues = []) : group.closed = true := by
  obtain ⟨⟨close?, issues⟩, -, rfl⟩ := map_eq_ok.mp h
  cases close? with
  | none => simp at hclean
  | some close => rfl

theorem Group.read_extend {group : Group} (hends : cur.EndsLine) (h : Group.read cur = .ok group)
    (hclosed : group.closed = true) :
    Group.read (cur.extend b) = .ok (group.extend b) ∧ group.behind.EndsLine
      ∧ group.body.length < cur.rest.length := by
  obtain ⟨⟨close?, issues⟩, hclose, rfl⟩ := map_eq_ok.mp h
  cases close? with
  | none => cases hclosed
  | some close =>
    have happend := findClose_append (b := b) hends hclose
    refine ⟨?_, ?_, ?_⟩
    · simp only [Group.read, Cursor.pos_extend, Cursor.rest_extend, happend.1, Except.map]
      rw [List.take_append_of_le_length (by omega), Cursor.advance_extend (by omega)]
      rfl
    · exact hends.advance (by omega)
    · simp only [List.length_drop, List.length_take]
      omega

/-! ## Directives -/

/-- The same clauses in a text that goes on. -/
def Clauses.extend (b : List Char) (clauses : Clauses) : Clauses :=
  { clauses with behind := clauses.behind.extend b }

theorem readAlias_extend (hends : cur.EndsLine) :
    readAlias (cur.extend b) = (readAlias cur).extend b ∧ (readAlias cur).behind.EndsLine := by
  have hword := hends.skipBlanks
  simp only [readAlias, Cursor.skipBlanks_extend hends, Cursor.rest_extend, identOf_append hword]
  split
  · next has =>
    have htwo : 2 < cur.skipBlanks.rest.length := by
      have := length_identOf_lt hword
      rw [beq_iff_eq.mp has] at this
      exact this
    have hbehind := hword.advance htwo
    have hname := hbehind.skipBlanks
    rw [Cursor.advance_extend htwo.le, Cursor.skipBlanks_extend hbehind, Cursor.rest_extend,
      identOf_append hname]
    split
    · exact ⟨rfl, hbehind⟩
    · rw [Cursor.advance_extend (length_identOf_lt hname).le]
      exact ⟨rfl, hname.behindWord⟩
  · exact ⟨rfl, hends⟩

theorem readItems_extend {clauses clauses' : Clauses} (hends : cur.EndsLine)
    (h : readItems clauses cur = .ok clauses') (hclean : clauses'.issues = []) :
    readItems (clauses.extend b) (cur.extend b) = .ok (clauses'.extend b)
      ∧ clauses'.behind.EndsLine := by
  have hstart := hends.skipBlanks
  unfold readItems at h ⊢
  simp only [Cursor.skipBlanks_extend hends, Cursor.meets_extend hstart] at h ⊢
  split at h
  · next hstar =>
    obtain rfl := Except.ok.inj h
    rw [if_pos hstar, Cursor.next_extend hstart.ne_nil]
    exact ⟨rfl, hstart.next (by decide) hstar⟩
  · next hstar =>
    rw [if_neg hstar]
    split at h
    · next hparen =>
      obtain ⟨group, hgroup, rfl⟩ := map_eq_ok.mp h
      have hread := Group.read_extend (b := b) hstart hgroup
        (Group.closed_of_issues hgroup hclean)
      rw [if_pos hparen, hread.1]
      exact ⟨rfl, hread.2.1⟩
    · next hparen =>
      obtain rfl := Except.ok.inj h
      have hbare := bareLength_append (b := b) (n := 0) hstart
      rw [Nat.zero_add] at hbare
      have htrim := Text.length_dropEndWhile_le Text.isBlank
        (cur.skipBlanks.rest.take (bareLength 0 cur.skipBlanks.rest))
      rw [List.length_take] at htrim
      rw [if_neg hparen, Cursor.rest_extend, hbare.1, List.take_append_of_le_length hbare.2.le,
        Cursor.advance_extend (by omega)]
      exact ⟨rfl, hstart.advance (by omega)⟩

theorem readClauses_extend {clauses : Clauses} (hends : cur.EndsLine)
    (h : readClauses cur = .ok clauses) (hclean : clauses.issues = []) :
    readClauses (cur.extend b) = .ok (clauses.extend b) ∧ clauses.behind.EndsLine := by
  have halias := readAlias_extend (b := b) hends
  have hcolon := halias.2.skipBlanks
  have hmeets : ((readAlias cur).behind.extend b).skipBlanks.meets ':'
      = (readAlias cur).behind.skipBlanks.meets ':' := by
    rw [Cursor.skipBlanks_extend halias.2, Cursor.meets_extend hcolon]
  unfold readClauses at h ⊢
  rw [halias.1]
  show (if ((readAlias cur).behind.extend b).skipBlanks.meets ':' = true then
      readItems ((readAlias cur).extend b) ((readAlias cur).behind.extend b).skipBlanks.next
    else Except.ok ((readAlias cur).extend b)) = _ ∧ _
  rw [hmeets]
  simp only at h
  split at h
  · next hhas =>
    rw [if_pos hhas, Cursor.skipBlanks_extend halias.2, Cursor.next_extend hcolon.ne_nil]
    exact readItems_extend (hcolon.next (by decide) hhas) h hclean
  · next hhas =>
    obtain rfl := Except.ok.inj h
    rw [if_neg hhas]
    exact ⟨rfl, halias.2⟩

theorem kindReadClauses_extend {kind : DirectiveKind} {clauses : Clauses} (hends : cur.EndsLine)
    (h : kind.readClauses cur = .ok clauses) (hclean : clauses.issues = []) :
    kind.readClauses (cur.extend b) = .ok (clauses.extend b) ∧ clauses.behind.EndsLine := by
  cases kind with
  | importing => exact readClauses_extend hends h hclean
  | including =>
    obtain rfl := Except.ok.inj h
    exact ⟨rfl, hends⟩

/-- Nothing that was found is an issue. -/
def IsClean (found : List Finding) : Prop := found.filterMap Finding.issue? = []

theorem isClean_append {found found' : List Finding} :
    IsClean (found ++ found') ↔ IsClean found ∧ IsClean found' := by
  rw [IsClean, List.filterMap_append, List.append_eq_nil_iff, IsClean, IsClean]

theorem filterMap_issue?_issues (issues : List Issue) :
    (issues.map Finding.issue).filterMap Finding.issue? = issues := by
  rw [List.filterMap_map]
  exact List.filterMap_some

theorem isClean_issues {issues : List Issue} : IsClean (issues.map .issue) ↔ issues = [] := by
  rw [IsClean, filterMap_issue?_issues]

variable {cur' : Cursor} {found : List Finding}

theorem readDirective_extend {kind : DirectiveKind} {start : Nat} (hends : cur.EndsLine)
    (h : readDirective kind start cur = .ok (cur', found)) (hclean : IsClean found) :
    readDirective kind start (cur.extend b) = .ok (cur'.extend b, found) ∧ cur'.EndsLine := by
  have hquote := hends.skipBlanks
  unfold readDirective at h ⊢
  simp only [Cursor.skipBlanks_extend hends, Cursor.meets_extend hquote] at h ⊢
  split at h
  · next hbare =>
    obtain ⟨rfl, rfl⟩ := Prod.mk.inj (Except.ok.inj h)
    rw [if_pos hbare]
    exact ⟨rfl, hends⟩
  · next hbare =>
    rw [if_neg hbare]
    obtain ⟨⟨text?, length⟩, hliteral, h⟩ := bind_eq_ok.mp h
    cases text? with
    | none =>
      obtain ⟨-, rfl⟩ := Prod.mk.inj (Except.ok.inj h)
      cases hclean
    | some text =>
      have hopen : cur.skipBlanks.rest.head? = some '\x22' := by
        simpa [Cursor.meets] using hbare
      have hread := readLiteral_append (b := b) hquote hopen hliteral
      obtain ⟨clauses, hclauses, h⟩ := bind_eq_ok.mp h
      obtain ⟨rfl, rfl⟩ := Prod.mk.inj (Except.ok.inj h)
      have hissues := isClean_issues.mp (isClean_append.mp hclean).1
      have hbehind := kindReadClauses_extend (b := b) (hquote.advance hread.2) hclauses hissues
      simp only [Cursor.rest_extend, hread.1, bind, Except.bind, Cursor.advance_extend hread.2.le,
        hbehind.1]
      exact ⟨rfl, hbehind.2⟩

/-! ## Bindings -/

theorem readBinding_extend {topLevel : Bool} (hends : cur.EndsLine)
    (h : readBinding topLevel cur = .ok (cur', found)) (hclean : IsClean found) :
    readBinding topLevel (cur.extend b) = .ok (cur'.extend b, found) ∧ cur'.EndsLine := by
  have hstart := hends.skipBlanks
  have hname := hstart.behindWord
  unfold readBinding at h ⊢
  simp only [Cursor.skipBlanks_extend hends, Cursor.rest_extend, identOf_append hstart,
    Cursor.advance_extend (length_identOf_lt hstart).le, Cursor.meets_extend hname] at h ⊢
  split at h
  · next hempty =>
    obtain ⟨rfl, rfl⟩ := Prod.mk.inj (Except.ok.inj h)
    rw [if_pos hempty]
    exact ⟨rfl, hstart⟩
  · next hempty =>
    rw [if_neg hempty]
    split at h
    · next hplain =>
      obtain ⟨rfl, rfl⟩ := Prod.mk.inj (Except.ok.inj h)
      rw [if_pos hplain]
      exact ⟨rfl, hname⟩
    · next hplain =>
      rw [if_neg hplain]
      have hparen : cur.skipBlanks.behindWord.meets '(' = true := by simpa using hplain
      have hfirst := hname.next (by decide) hparen
      obtain ⟨group, hgroup, h⟩ := bind_eq_ok.mp h
      split at h
      · next hopen =>
        -- a group that is not closed would be an issue
        obtain ⟨-, rfl⟩ := Prod.mk.inj (Except.ok.inj h)
        have hclosed := Group.closed_of_issues hgroup (isClean_issues.mp hclean)
        simp [hclosed] at hopen
      · next hopen =>
        obtain ⟨⟨segments, issues⟩, hsplit, h⟩ := bind_eq_ok.mp h
        obtain ⟨rfl, rfl⟩ := Prod.mk.inj (Except.ok.inj h)
        obtain ⟨-, rfl⟩ := List.append_eq_nil_iff.mp (isClean_issues.mp (isClean_append.mp hclean).1)
        have hclosed : group.closed = true := by simpa using hopen
        have hread := Group.read_extend (b := b) hname hgroup hclosed
        have hbody : group.body.length ≤ cur.skipBlanks.behindWord.next.rest.length := by
          rw [Cursor.rest_next, List.length_drop]
          exact Nat.le_pred_of_lt hread.2.2
        have hparts := splitSegments_append (b := b) hfirst hbody hsplit
        rw [hread.1]
        simp only [bind, Except.bind, Group.extend, hclosed, Bool.not_true, Bool.false_eq_true,
          if_false, Cursor.next_extend hname.ne_nil, Cursor.pos_extend, Cursor.rest_extend, hparts]
        exact ⟨rfl, hread.2.1⟩

/-! ## Steps -/

/-- The same scan in a text that goes on. -/
def State.extend (b : List Char) (s : State) : State :=
  { s with cursor := s.cursor.extend b }

/-- Either the line goes on, or the text is over and the scan stands in the text of the file, or in
something that is still to be closed. -/
def State.InLine (s : State) : Prop :=
  s.cursor.EndsLine ∨ s.cursor.rest = [] ∧ ∀ frame ∈ s.frames.head?, frame.issues ≠ []

variable {s s' next next' : State} {rest : List Char}

namespace State

@[simp] theorem cursor_extend : (s.extend b).cursor = s.cursor.extend b := rfl

@[simp] theorem frames_extend : (s.extend b).frames = s.frames := by simp [extend]

theorem advance_extend {n : Nat} (h : n ≤ s.cursor.rest.length) :
    (s.extend b).advance n = (s.advance n).extend b := by
  simp only [advance, extend, Cursor.advance_extend h]

theorem advance_one_extend (hrest : s.cursor.rest = c :: rest) :
    (s.extend b).advance 1 = (s.advance 1).extend b :=
  advance_extend (by simp [hrest])

theorem pop_extend : (s.extend b).pop = s.pop.extend b := by simp [pop, extend]

theorem push_extend (frame : Frame) : (s.extend b).push frame = (s.push frame).extend b := by
  simp [push, extend]

theorem replace_extend (frame : Frame) :
    (s.extend b).replace frame = (s.replace frame).extend b := by
  simp [replace, pop_extend, push_extend]

/-- A step over any other character than the line feed stays in the line. -/
theorem endsLine_advance_one (hends : s.cursor.EndsLine) (hrest : s.cursor.rest = c :: rest)
    (hc : c ≠ '\n') : (s.advance 1).cursor.EndsLine :=
  hends.next hc (by simp [Cursor.meets, hrest])

/-- A step over the line feed does so too if nothing ends with it. -/
theorem inLine_advance_one (hends : s.cursor.EndsLine) (hrest : s.cursor.rest = c :: rest)
    (hframes : c = '\n' → ∀ frame ∈ s.frames.head?, frame.issues ≠ []) : (s.advance 1).InLine := by
  by_cases hc : c = '\n'
  · cases rest with
    | nil =>
      refine .inr ⟨?_, hframes hc⟩
      rw [cursor_advance, Cursor.rest_advance, hrest]
      rfl
    | cons d rest => exact .inl (hends.advance (by simp [hrest]))
  · exact .inl (endsLine_advance_one hends hrest hc)

end State

theorem plain_extend (heq : next' = next.extend b) (hline : next.InLine)
    (h : plain next = .ok (s', found)) :
    plain next' = .ok (s'.extend b, found) ∧ s'.InLine := by
  obtain ⟨rfl, rfl⟩ := Prod.mk.inj (Except.ok.inj h)
  exact ⟨heq ▸ rfl, hline⟩

theorem plain_advance_extend (hends : next.cursor.EndsLine) (hrest : next.cursor.rest = c :: rest)
    (hc : c ≠ '\n') (h : plain (next.advance 1) = .ok (s', found)) :
    plain ((next.extend b).advance 1) = .ok (s'.extend b, found) ∧ s'.InLine :=
  plain_extend (State.advance_one_extend hrest) (.inl (State.endsLine_advance_one hends hrest hc)) h

theorem readRegion_extend {kind : RegionKind} (hends : s.cursor.EndsLine)
    (hkind : RegionKind.at? s.cursor.rest = some kind) (h : readRegion kind s = .ok (s', found))
    (hclean : IsClean found) :
    readRegion kind (s.extend b) = .ok (s'.extend b, found) ∧ s'.InLine := by
  obtain ⟨region, hread, h⟩ := map_eq_ok.mp h
  obtain ⟨rfl, rfl⟩ := Prod.mk.inj h
  have hclosed : region.fault = none := by
    have hissues := isClean_issues.mp hclean
    cases hfault : region.fault with
    | none => rfl
    | some kind => simp [Region.issues, hfault] at hissues
  have happend := Region.read_append (b := b) hends hkind hread hclosed
  refine ⟨?_, .inl (hends.advance happend.2)⟩
  simp only [readRegion, State.cursor_extend, Cursor.rest_extend, happend.1, Except.map,
    State.advance_extend happend.2.le, Cursor.pos_extend]

theorem enterCode_extend (hends : s.cursor.EndsLine) (hrest : s.cursor.rest = c :: rest)
    (hc : c ≠ '\n') :
    enterCode (s.extend b) = (enterCode s).extend b ∧ (enterCode s).cursor.EndsLine := by
  have hnext := State.endsLine_advance_one hends hrest hc
  have hhead : ((s.advance 1).cursor.rest ++ b).head? = (s.advance 1).cursor.rest.head? := by
    obtain ⟨d, rest, hd⟩ := List.exists_cons_of_ne_nil hnext.ne_nil
    rw [hd]
    rfl
  unfold enterCode
  simp only [State.advance_one_extend hrest, State.cursor_extend, Cursor.rest_extend,
    identOf_append hnext, hhead]
  split
  · exact ⟨rfl, hnext⟩
  · exact ⟨rfl, hnext⟩

theorem textStep_extend {inMath inContent : Bool} (hends : s.cursor.EndsLine)
    (hrest : s.cursor.rest = c :: rest) (hframes : ∀ frame ∈ s.frames.head?, frame.issues ≠ [])
    (h : textStep inMath inContent c s = .ok (s', found)) (hclean : IsClean found) :
    textStep inMath inContent c (s.extend b) = .ok (s'.extend b, found) ∧ s'.InLine := by
  have hadmits : admitsRegion inMath (s.cursor.extend b) = admitsRegion inMath s.cursor := by
    funext kind
    cases kind <;> rfl
  unfold textStep at h ⊢
  simp only [State.cursor_extend, Cursor.rest_extend, RegionKind.at?_append hends, hadmits,
    Cursor.pos_extend, State.pop_extend, State.push_extend] at h ⊢
  split at h
  · next kind hfilter =>
    exact readRegion_extend hends (Option.filter_eq_some_iff.mp hfilter).1 h hclean
  · split at h
    · next hescape =>
      obtain rfl := beq_iff_eq.mp hescape
      have hrest' := (hrest ▸ hends : EndsLine ('\\' :: rest)).tail_ne_nil (by decide)
      have htwo : 2 ≤ s.cursor.rest.length := by
        have hlength := List.length_pos_iff.mpr hrest'
        rw [hrest, List.length_cons]
        omega
      refine plain_extend (State.advance_extend htwo) ?_ h
      -- the escaped character may be the line feed, and then the text is over
      by_cases hlast : s.cursor.rest.length = 2
      · refine .inr ⟨?_, hframes⟩
        rw [cursor_advance, Cursor.rest_advance, ← hlast, List.drop_length]
      · exact .inl (hends.advance (by omega))
    · next hescape =>
      rw [if_neg hescape]
      split at h
      · next hdollar =>
        rw [if_pos hdollar]
        obtain rfl := beq_iff_eq.mp hdollar
        cases inMath with
        | true => exact plain_advance_extend hends hrest (by decide) h
        | false => exact plain_advance_extend hends hrest (by decide) h
      · next hdollar =>
        rw [if_neg hdollar]
        split at h
        · next hbracket =>
          rw [if_pos hbracket]
          have hc : c ≠ '\n' := by
            rintro rfl
            simp at hbracket
          exact plain_advance_extend hends hrest hc h
        · next hbracket =>
          rw [if_neg hbracket]
          split at h
          · next hhash =>
            rw [if_pos hhash]
            have hcode := enterCode_extend (b := b) hends hrest
              (by rintro rfl; simp at hhash)
            exact plain_extend hcode.1 (.inl hcode.2) h
          · next hhash =>
            rw [if_neg hhash]
            refine plain_extend (State.advance_one_extend hrest) ?_ h
            exact State.inLine_advance_one hends hrest fun _ => hframes

theorem Frame.issues_ne_nil {frame : Frame} (h : frame.parens ≠ [] ∨ frame.isEmbedded = false) :
    frame.issues ≠ [] := by
  cases frame with
  | content | math | code => simp [issues, delimiter?]
  | embed opener statement topLevel parens =>
    rcases h with h | h
    · exact fun hnil => h (by simpa [issues, delimiter?] using hnil)
    · cases h

theorem wordStep_extend {frame : Frame} (hends : s.cursor.EndsLine)
    (h : wordStep frame s = .ok (s', found)) (hclean : IsClean found) :
    wordStep frame (s.extend b) = .ok (s'.extend b, found) ∧ s'.InLine := by
  have hword := hends.behindWord
  have hstarts : startsStatement frame (s.cursor.extend b) = startsStatement frame s.cursor := by
    cases frame <;> rfl
  have hpos : statementPos frame (s.cursor.extend b) = statementPos frame s.cursor := by
    cases frame <;> rfl
  unfold wordStep at h ⊢
  simp only [State.cursor_extend, Cursor.rest_extend, identOf_append hends, hstarts, hpos,
    Cursor.advance_extend (length_identOf_lt hends).le] at h ⊢
  obtain ⟨⟨cursor, found'⟩, hread, h⟩ := map_eq_ok.mp h
  obtain ⟨rfl, rfl⟩ := Prod.mk.inj h
  -- whatever is read behind the word, it ends in the line
  have hgoal : ∀ {outcome : Except Fault (Cursor × List Finding)},
      outcome = .ok (cursor.extend b, found') ∧ cursor.EndsLine →
      (outcome.map fun (cursor, found) => (({ s.extend b with cursor } : State), found))
        = .ok (State.extend b { s with cursor }, found')
        ∧ State.InLine { s with cursor } := by
    rintro _ ⟨rfl, hcursor⟩
    exact ⟨rfl, .inl hcursor⟩
  refine hgoal ?_
  split at hread
  · next hstart =>
    obtain ⟨rfl, rfl⟩ := Prod.mk.inj (Except.ok.inj hread)
    rw [if_pos hstart]
    exact ⟨rfl, hword⟩
  · next hstart =>
    rw [if_neg hstart]
    split at hread
    · exact readDirective_extend hword hread hclean
    · split at hread
      · next hlet =>
        rw [if_pos hlet]
        exact readBinding_extend hword hread hclean
      · next hlet =>
        obtain ⟨rfl, rfl⟩ := Prod.mk.inj (Except.ok.inj hread)
        rw [if_neg hlet]
        exact ⟨rfl, hword⟩

theorem expressionStep_extend (hends : s.cursor.EndsLine) (hrest : s.cursor.rest = c :: rest) :
    expressionStep c (s.extend b) = (expressionStep c s).extend b
      ∧ (expressionStep c s).cursor.EndsLine := by
  have hends' : EndsLine (c :: rest) := hrest ▸ hends
  by_cases hpoint : c = '.'
  · subst hpoint
    have hnext := hends'.tail (hends'.tail_ne_nil (by decide))
    obtain ⟨d, rest, rfl⟩ := List.exists_cons_of_ne_nil hnext.ne_nil
    simp only [expressionStep, State.cursor_extend, Cursor.rest_extend, hrest, List.cons_append,
      List.drop_one, List.tail_cons, List.head?_cons]
    split
    · exact ⟨State.advance_one_extend hrest, State.endsLine_advance_one hends hrest (by decide)⟩
    · exact ⟨rfl, hends⟩
  · have hno : (c == '.') = false := beq_false_of_ne hpoint
    simp only [expressionStep, hno, Bool.false_and]
    exact ⟨rfl, hends⟩

theorem codeStep_extend {frame : Frame} {outer : List Frame} (hframes : s.frames = frame :: outer)
    (hends : s.cursor.EndsLine) (hrest : s.cursor.rest = c :: rest)
    (h : codeStep frame c s = .ok (s', found)) (hclean : IsClean found) :
    codeStep frame c (s.extend b) = .ok (s'.extend b, found) ∧ s'.InLine := by
  have hstays : s.pop.InLine := .inl hends
  unfold codeStep at h ⊢
  simp only [State.cursor_extend, Cursor.rest_extend, RegionKind.at?_append hends,
    Cursor.pos_extend, State.pop_extend, State.push_extend, State.replace_extend] at h ⊢
  split at h
  · next kind hkind => exact readRegion_extend hends hkind h hclean
  · split at h
    · next hc =>
      rw [if_pos hc]
      obtain rfl := beq_iff_eq.mp hc
      exact plain_advance_extend hends hrest (by decide) h
    · next hc =>
      rw [if_neg hc]
      split at h
      · next hc =>
        rw [if_pos hc]
        obtain rfl := beq_iff_eq.mp hc
        exact plain_advance_extend hends hrest (by decide) h
      · next hc =>
        rw [if_neg hc]
        split at h
        · next hc =>
          rw [if_pos hc]
          obtain rfl := beq_iff_eq.mp hc
          exact plain_advance_extend hends hrest (by decide) h
        · next hc =>
          rw [if_neg hc]
          split at h
          · next hc =>
            rw [if_pos hc]
            obtain rfl := beq_iff_eq.mp hc
            cases hparens : frame.parens with
            | cons opener outer =>
              simp only [hparens] at h ⊢
              exact plain_advance_extend hends hrest (by decide) h
            | nil =>
              simp only [hparens] at h ⊢
              cases hembedded : frame.isEmbedded with
              | true =>
                simp only [hembedded, if_true] at h ⊢
                exact plain_extend rfl hstays h
              | false =>
                simp only [hembedded, Bool.false_eq_true, if_false] at h ⊢
                exact plain_advance_extend hends hrest (by decide) h
          · next hc =>
            rw [if_neg hc]
            split at h
            · next hc =>
              rw [if_pos hc]
              rw [Bool.and_eq_true, beq_iff_eq] at hc
              obtain rfl := hc.2
              cases hembedded : frame.isEmbedded with
              | true =>
                simp only [hembedded, if_true] at h ⊢
                exact plain_extend rfl hstays h
              | false =>
                simp only [hembedded, Bool.false_eq_true, if_false] at h ⊢
                exact plain_advance_extend hends hrest (by decide) h
            · next hc =>
              rw [if_neg hc]
              split at h
              · next hc =>
                rw [if_pos hc]
                exact plain_extend rfl hstays h
              · next hline =>
                rw [if_neg hline]
                split at h
                · next hc =>
                  rw [if_pos hc]
                  rw [Bool.and_eq_true, beq_iff_eq] at hc
                  obtain rfl := hc.2
                  exact plain_advance_extend hends hrest (by decide) h
                · next hc =>
                  rw [if_neg hc]
                  split at h
                  · next hc =>
                    rw [if_pos hc]
                    exact wordStep_extend hends h hclean
                  · next hc =>
                    rw [if_neg hc]
                    split at h
                    · next hc =>
                      rw [if_pos hc]
                      have hexpression := expressionStep_extend (b := b) hends hrest
                      exact plain_extend hexpression.1 (.inl hexpression.2) h
                    · next hc =>
                      rw [if_neg hc]
                      refine plain_extend (State.advance_one_extend hrest) ?_ h
                      -- at the line feed this is no code behind a hash, which would have ended there
                      refine State.inLine_advance_one hends hrest fun hfeed => ?_
                      rintro _ hframe
                      obtain rfl : frame = _ := by simpa [hframes] using hframe
                      refine Frame.issues_ne_nil ?_
                      simpa [hfeed, ← or_iff_not_imp_left, imp_iff_not_or] using hline

theorem step_extend (hends : s.cursor.EndsLine) (hrest : s.cursor.rest = c :: rest)
    (h : s.step c = .ok (s', found)) (hclean : IsClean found) :
    (s.extend b).step c = .ok (s'.extend b, found) ∧ s'.InLine := by
  unfold State.step at h ⊢
  simp only [State.frames_extend]
  split at h
  · next hframes => exact textStep_extend hends hrest (by simp [hframes]) h hclean
  · next hframes =>
    exact textStep_extend hends hrest (by simp [hframes, Frame.issues, Frame.delimiter?]) h hclean
  · next hframes =>
    exact textStep_extend hends hrest (by simp [hframes, Frame.issues, Frame.delimiter?]) h hclean
  · next hcontent hmath hframes => exact codeStep_extend hframes hends hrest h hclean

/-! ## Runs -/

/-- A scan without an issue does the same if the text goes on behind the line feed, up to there. -/
theorem scanRest_extend (hline : s.InLine) (h : scanRest s = .ok (s', found)) (hclean : IsClean found)
    (hclosed : s'.frames.flatMap Frame.issues = []) :
    s'.cursor.rest = [] ∧ s'.frames = []
      ∧ scanRest (s.extend b) = (scanRest (s'.extend b)).map fun (last, later) =>
        (last, found ++ later) := by
  induction s using State.induction generalizing s' found with
  | atEnd s hrest =>
    rw [scanRest_of_nil hrest] at h
    obtain ⟨rfl, rfl⟩ := Prod.mk.inj (Except.ok.inj h)
    -- what is open at the end of the text is an issue
    have hframes : s.frames = [] := by
      rcases hline with hends | ⟨-, hopen⟩
      · exact absurd hrest hends.ne_nil
      · cases hframes : s.frames with
        | nil => rfl
        | cons frame outer =>
          rw [hframes, List.flatMap_cons, List.append_eq_nil_iff] at hclosed
          exact absurd hclosed.1 (hopen frame (by rw [hframes]; rfl))
    refine ⟨hrest, hframes, ?_⟩
    cases scanRest (s.extend b) with
    | error fault => rfl
    | ok last => rfl
  | step s c rest hrest ih =>
    have hends : s.cursor.EndsLine := by
      rcases hline with hends | ⟨hnil, -⟩
      · exact hends
      · rw [hrest] at hnil
        cases hnil
    rw [scanRest_of_cons hrest] at h
    cases hstep : s.step c with
    | error fault =>
      rw [hstep] at h
      cases h
    | ok result =>
      obtain ⟨s₁, new⟩ := result
      rw [hstep] at h
      obtain ⟨⟨s₂, later⟩, hlater, hresult⟩ := map_eq_ok.mp h
      obtain ⟨rfl, rfl⟩ := Prod.mk.inj hresult
      obtain ⟨hnew, hclean⟩ := isClean_append.mp hclean
      have hextend := step_extend (b := b) hends hrest hstep hnew
      obtain ⟨hrest', hframes, hscan⟩ := ih s₁ new hstep hextend.2 hlater hclean hclosed
      refine ⟨hrest', hframes, ?_⟩
      have hcons : (s.extend b).cursor.rest = c :: (rest ++ b) := by
        rw [State.cursor_extend, Cursor.rest_extend, hrest, List.cons_append]
      rw [scanRest_of_cons hcons, hextend.1]
      show (scanRest (s₁.extend b)).map _ = _
      rw [hscan]
      cases scanRest (s₂.extend b) with
      | error fault => rfl
      | ok last => simp [Except.map]

end TypstLint.Markup
