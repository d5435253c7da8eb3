import TypstLint.Proofs.Markup.Scan
import TypstLint.Proofs.Text.LineIndex

set_option autoImplicit false

/-! # The places of what a scan finds

Whatever a scan finds has spans of at least one character of the text (`scan_within`). For the code
behind a `#` and for what is never closed, the scan remembers where it was opened: before its place. -/

namespace TypstLint.Markup

open Text (Span)

/-- The spans of a directive are spans of a text with `n` characters. -/
def Directive.Within (n : Nat) (d : Directive) : Prop :=
  d.span.Within n ∧ ∀ target ∈ d.target, target.span.Within n

/-- The spans of a binding are spans of a text with `n` characters. -/
def Binding.Within (n : Nat) (b : Binding) : Prop :=
  b.span.Within n ∧ ∀ param ∈ b.params, param.span.Within n

/-- The spans of a finding are spans of a text with `n` characters. -/
def Finding.Within (n : Nat) : Finding → Prop
  | directive d => d.Within n
  | binding b => b.Within n
  | issue i => i.span.Within n

/-- The spans of all that was found are spans of a text with `n` characters. -/
structure Outline.Within (n : Nat) (o : Outline) : Prop where
  directives : ∀ d ∈ o.directives, d.Within n
  bindings : ∀ b ∈ o.bindings, b.Within n
  issues : ∀ i ∈ o.issues, i.span.Within n

theorem Outline.within_ofFindings {n : Nat} {found : List Finding} (h : ∀ f ∈ found, f.Within n) :
    (Outline.ofFindings found).Within n where
  directives := by
    intro d hd
    obtain ⟨f, hf, hd⟩ := List.mem_filterMap.mp hd
    cases f with
    | directive d' => exact Option.some.inj hd ▸ h _ hf
    | binding | issue => cases hd
  bindings := by
    intro b hb
    obtain ⟨f, hf, hb⟩ := List.mem_filterMap.mp hb
    cases f with
    | binding b' => exact Option.some.inj hb ▸ h _ hf
    | directive | issue => cases hb
  issues := by
    intro i hi
    obtain ⟨f, hf, hi⟩ := List.mem_filterMap.mp hi
    cases f with
    | issue i' => exact Option.some.inj hi ▸ h _ hf
    | directive | binding => cases hi

variable {n pos : Nat} {cs : List Char} {cur cur' : Cursor} {found : List Finding}

theorem within_issues {issues : List Issue} (h : ∀ i ∈ issues, i.span.Within n) :
    ∀ f ∈ issues.map Finding.issue, f.Within n := by
  intro f hf
  obtain ⟨i, hi, rfl⟩ := List.mem_map.mp hf
  exact h i hi

theorem Cursor.Moves.size_eq (h : cur.Moves cur') : cur'.size = cur.size := by
  have := h.length_rest_add
  simp only [Cursor.size]
  omega

theorem Cursor.pos_le_size (cur : Cursor) : cur.pos ≤ cur.size := Nat.le_add_right _ _

/-! ## Regions and groups -/

theorem Region.within_issues {region : Region} (hlength : 0 < region.length)
    (hle : pos + region.length ≤ n) : ∀ i ∈ region.issues pos, i.span.Within n := by
  intro i hi
  obtain ⟨kind, -, rfl⟩ := List.mem_map.mp hi
  exact Span.within_ofLength hlength hle

theorem findClose_within {skip depth : Nat} {close? : Option Nat} {issues : List Issue}
    (h : findClose pos skip depth cs = .ok (close?, issues)) :
    ∀ i ∈ issues, i.span.Within (pos + cs.length) := by
  induction cs generalizing pos skip depth with
  | nil =>
    obtain ⟨-, rfl⟩ := Prod.mk.inj (Except.ok.inj h)
    simp
  | cons c rest ih =>
    have hnext : ∀ {skip depth}, findClose (pos + 1) skip depth rest = .ok (close?, issues) →
        ∀ i ∈ issues, i.span.Within (pos + (rest.length + 1)) := by
      intro skip depth h
      rw [Nat.add_comm rest.length, ← Nat.add_assoc]
      exact ih h
    rw [List.length_cons]
    cases skip with
    | succ skip => exact hnext h
    | zero =>
      unfold findClose at h
      simp only at h
      split at h
      · next kind hfilter =>
        split at h
        · cases h
        · next region hread =>
          split at h
          · obtain ⟨-, rfl⟩ := Prod.mk.inj (Except.ok.inj h)
            have hlength := Region.read_length (Option.filter_eq_some_iff.mp hfilter).1 hread
            exact Region.within_issues hlength.1 (Nat.add_le_add_left hlength.2 pos)
          · exact hnext h
      · split at h
        · exact hnext h
        · split at h
          · split at h
            · obtain ⟨-, rfl⟩ := Prod.mk.inj (Except.ok.inj h)
              simp
            · exact hnext h
          · exact hnext h

theorem Group.within_issues {group : Group} (hrest : cur.rest ≠ []) (h : Group.read cur = .ok group) :
    ∀ i ∈ group.issues, i.span.Within cur.size := by
  obtain ⟨⟨close?, issues⟩, hclose, rfl⟩ := map_eq_ok.mp h
  have hwithin := findClose_within hclose
  cases close? with
  | some close => exact hwithin
  | none =>
    have hlength := List.length_pos_iff.mpr hrest
    intro i hi
    rcases List.mem_append.mp hi with hi | hi
    · exact hwithin i hi
    · obtain rfl := List.mem_singleton.mp hi
      exact Span.within_ofLength Nat.one_pos (Nat.add_le_add_left hlength _)

/-! ## Directives -/

theorem readItems_within {clauses clauses' : Clauses} (h : readItems clauses cur = .ok clauses')
    (hclauses : ∀ i ∈ clauses.issues, i.span.Within cur.size) :
    ∀ i ∈ clauses'.issues, i.span.Within cur.size := by
  unfold readItems at h
  simp only at h
  split at h
  · obtain rfl := Except.ok.inj h
    exact hclauses
  · split at h
    · next hparen =>
      obtain ⟨group, hgroup, rfl⟩ := map_eq_ok.mp h
      rw [← (Cursor.moves_skipBlanks cur).size_eq]
      exact Group.within_issues (Cursor.rest_ne_nil_of_meets hparen) hgroup
    · obtain rfl := Except.ok.inj h
      exact hclauses

theorem issues_readAlias (cur : Cursor) : (readAlias cur).issues = [] := by
  unfold readAlias
  simp only
  split
  · split
    · rfl
    · rfl
  · rfl

theorem kindReadClauses_within {kind : DirectiveKind} {clauses : Clauses}
    (h : kind.readClauses cur = .ok clauses) : ∀ i ∈ clauses.issues, i.span.Within cur.size := by
  cases kind with
  | including =>
    obtain rfl := Except.ok.inj h
    simp
  | importing =>
    unfold DirectiveKind.readClauses readClauses at h
    simp only at h
    split at h
    · have hcolon := ((readAlias_moves cur).trans (Cursor.moves_skipBlanks _)).trans
        (Cursor.moves_next _)
      rw [← hcolon.size_eq]
      exact readItems_within h (by simp [issues_readAlias])
    · obtain rfl := Except.ok.inj h
      simp [issues_readAlias]

theorem readDirective_within {kind : DirectiveKind} {start : Nat} (hstart : start < cur.pos)
    (h : readDirective kind start cur = .ok (cur', found)) : ∀ f ∈ found, f.Within cur.size := by
  have hquote := Cursor.moves_skipBlanks cur
  unfold readDirective at h
  simp only at h
  split at h
  · obtain ⟨-, rfl⟩ := Prod.mk.inj (Except.ok.inj h)
    intro f hf
    obtain rfl := List.mem_singleton.mp hf
    exact ⟨Span.within_between hstart cur.pos_le_size, by simp⟩
  · next hopen =>
    have hmeets : cur.skipBlanks.meets '\x22' = true := by simpa using hopen
    obtain ⟨⟨text?, length⟩, hliteral, h⟩ := bind_eq_ok.mp h
    obtain ⟨hpos, hle⟩ := readLiteral_length (Cursor.rest_ne_nil_of_meets hmeets) hliteral
    have hspan : (Span.ofLength cur.skipBlanks.pos length).Within cur.size := by
      rw [← hquote.size_eq]
      exact Span.within_ofLength hpos (Nat.add_le_add_left hle _)
    cases text? with
    | none =>
      obtain ⟨-, rfl⟩ := Prod.mk.inj (Except.ok.inj h)
      intro f hf
      obtain rfl := List.mem_singleton.mp hf
      exact hspan
    | some text =>
      obtain ⟨clauses, hclauses, h⟩ := bind_eq_ok.mp h
      obtain ⟨-, rfl⟩ := Prod.mk.inj (Except.ok.inj h)
      have hbehind := hquote.trans (Cursor.moves_advance length cur.skipBlanks)
      have hmoves := hbehind.trans (kindReadClauses_moves hclauses)
      intro f hf
      rcases List.mem_append.mp hf with hf | hf
      · have hissues := kindReadClauses_within hclauses
        rw [hbehind.size_eq] at hissues
        exact within_issues hissues f hf
      · obtain rfl := List.mem_singleton.mp hf
        refine ⟨Span.within_between (Nat.lt_of_lt_of_le hstart hmoves.pos_le) ?_, ?_⟩
        · rw [← hmoves.size_eq]
          exact Cursor.pos_le_size _
        · intro target htarget
          obtain rfl := Option.some.inj htarget
          exact hspan

/-! ## Bindings -/

/-- A part of a group that ends at a position or before it. -/
def Segment.EndsBy (n : Nat) (segment : Segment) : Prop := segment.start + segment.text.length ≤ n

theorem length_identOf_le (cs : List Char) : (identOf cs).length ≤ cs.length := by
  unfold identOf
  split
  · exact Nat.le_refl _
  · split
    · exact Nat.succ_le_succ (List.takeWhile_sublist _).length_le
    · exact Nat.zero_le _

theorem Segment.param?_within {segment : Segment} {param : Param} (hends : segment.EndsBy n)
    (h : segment.param? = some param) : param.span.Within n := by
  have hbody := (List.dropWhile_sublist isCodeBlank (l := segment.text)).length_le
  have hname := length_identOf_le (segment.text.dropWhile isCodeBlank)
  have hwithin : (identOf (segment.text.dropWhile isCodeBlank)).isEmpty = false →
      (Span.ofLength (segment.start + (segment.text.length
          - (segment.text.dropWhile isCodeBlank).length))
        (identOf (segment.text.dropWhile isCodeBlank)).length).Within n := by
    intro hne
    have hlength := List.length_pos_iff.mpr (List.isEmpty_eq_false_iff.mp hne)
    unfold EndsBy at hends
    exact Span.within_ofLength hlength (by omega)
  unfold param? at h
  simp only at h
  split at h
  · cases h
  · next hne =>
    have hwithin := hwithin (Bool.not_eq_true _ ▸ hne)
    split at h
    · exact Option.some.inj h ▸ hwithin
    · split at h
      · exact Option.some.inj h ▸ hwithin
      · cases h

/-- The current part reaches up to a position, and the parts before it end there or before it. -/
structure Segments.UpTo (n : Nat) (segments : Segments) : Prop where
  current : segments.start + segments.text.length = n
  before : ∀ segment ∈ segments.before, segment.EndsBy n

theorem Segments.UpTo.toList {segments : Segments} (h : segments.UpTo n) :
    ∀ segment ∈ segments.toList, segment.EndsBy n := by
  intro segment hmem
  rcases List.mem_cons.mp (List.mem_reverse.mp hmem) with rfl | hmem
  · simpa [Segment.EndsBy] using Nat.le_of_eq h.current
  · exact h.before segment hmem

theorem Segments.UpTo.push {segments : Segments} (h : segments.UpTo n) (c : Char) :
    (segments.push c).UpTo (n + 1) where
  current := by
    have := h.current
    simp only [Segments.push, List.length_cons]
    omega
  before segment hmem := Nat.le_succ_of_le (h.before segment hmem)

theorem Segments.UpTo.split {segments : Segments} (h : segments.UpTo n) :
    (segments.split (n + 1)).UpTo (n + 1) where
  current := rfl
  before segment hmem := by
    rcases List.mem_cons.mp hmem with rfl | hmem
    · have := h.current
      simp only [Segment.EndsBy, List.length_reverse]
      omega
    · exact Nat.le_succ_of_le (h.before segment hmem)

theorem splitSegments_within {left skip : Nat} {depth : Int} {segments : Segments}
    {parts : List Segment} {issues : List Issue} (hsegments : segments.UpTo pos)
    (h : splitSegments left pos skip depth segments cs = .ok (parts, issues)) :
    (∀ segment ∈ parts, segment.EndsBy (pos + cs.length))
      ∧ ∀ i ∈ issues, i.span.Within (pos + cs.length) := by
  have hends : ∀ segment ∈ segments.toList, segment.EndsBy (pos + cs.length) :=
    fun segment hmem => Nat.le_trans (hsegments.toList segment hmem) (Nat.le_add_right _ _)
  induction cs generalizing left pos skip depth segments with
  | nil =>
    unfold splitSegments at h
    obtain ⟨rfl, rfl⟩ := Prod.mk.inj (Except.ok.inj h)
    exact ⟨hends, by simp⟩
  | cons c rest ih =>
    have hnext : ∀ {left skip depth segments}, Segments.UpTo (pos + 1) segments →
        splitSegments left (pos + 1) skip depth segments rest = .ok (parts, issues) →
        (∀ segment ∈ parts, segment.EndsBy (pos + (rest.length + 1)))
          ∧ ∀ i ∈ issues, i.span.Within (pos + (rest.length + 1)) := by
      intro left skip depth segments hsegments h
      rw [Nat.add_comm rest.length, ← Nat.add_assoc]
      exact ih hsegments h fun segment hmem =>
        Nat.le_trans (hsegments.toList segment hmem) (Nat.le_add_right _ _)
    rw [List.length_cons] at hends ⊢
    cases left with
    | zero =>
      obtain ⟨rfl, rfl⟩ := Prod.mk.inj (Except.ok.inj h)
      exact ⟨hends, by simp⟩
    | succ left =>
      cases skip with
      | succ skip => exact hnext (hsegments.push c) h
      | zero =>
        unfold splitSegments at h
        simp only at h
        split at h
        · next hquote =>
          split at h
          · cases h
          · next region hread =>
            split at h
            · obtain ⟨rfl, rfl⟩ := Prod.mk.inj (Except.ok.inj h)
              have hkind : RegionKind.at? (c :: rest) = some .string := beq_iff_eq.mp hquote ▸ rfl
              have hlength := Region.read_length hkind hread
              refine ⟨fun segment hmem => ?_, Region.within_issues hlength.1
                (Nat.add_le_add_left hlength.2 pos)⟩
              rcases List.mem_cons.mp (List.mem_reverse.mp hmem) with rfl | hmem
              · have hcurrent := hsegments.current
                simp only [Segment.EndsBy, List.length_reverse, List.length_append, List.length_take,
                  List.length_cons]
                omega
              · exact Nat.le_trans (hsegments.before segment hmem) (Nat.le_add_right _ _)
            · exact hnext (hsegments.push c) h
        · split at h
          · exact hnext hsegments.split h
          · exact hnext (hsegments.push c) h

theorem readBinding_within {topLevel : Bool} (h : readBinding topLevel cur = .ok (cur', found)) :
    ∀ f ∈ found, f.Within cur.size := by
  have hstart := Cursor.moves_skipBlanks cur
  have hname := hstart.trans (Cursor.moves_advance (identOf cur.skipBlanks.rest).length _)
  have hfound : ∀ b : Binding, b.Within cur.size →
      ∀ f ∈ (if topLevel then [Finding.binding b] else []), f.Within cur.size := by
    intro b hb f hf
    cases topLevel with
    | true => exact List.mem_singleton.mp hf ▸ hb
    | false => cases hf
  unfold readBinding at h
  simp only at h
  split at h
  · obtain ⟨-, rfl⟩ := Prod.mk.inj (Except.ok.inj h)
    simp
  · next hne =>
    have hspan : (Span.ofLength cur.skipBlanks.pos (identOf cur.skipBlanks.rest).length).Within
        cur.size := by
      rw [← hstart.size_eq]
      have hlength : (identOf cur.skipBlanks.rest) ≠ [] := by simpa using hne
      exact Span.within_ofLength (List.length_pos_iff.mpr hlength)
        (Nat.add_le_add_left (length_identOf_le _) _)
    split at h
    · obtain ⟨-, rfl⟩ := Prod.mk.inj (Except.ok.inj h)
      refine hfound _ ⟨hspan, fun _ hparam => ?_⟩
      cases hparam
    · next hplain =>
      have hparen : cur.skipBlanks.behindWord.meets '(' = true := by simpa using hplain
      obtain ⟨group, hgroup, h⟩ := bind_eq_ok.mp h
      have hissues := Group.within_issues (Cursor.rest_ne_nil_of_meets hparen) hgroup
      rw [hname.size_eq] at hissues
      split at h
      · obtain ⟨-, rfl⟩ := Prod.mk.inj (Except.ok.inj h)
        exact within_issues hissues
      · obtain ⟨⟨segments, issues⟩, hsplit, h⟩ := bind_eq_ok.mp h
        obtain ⟨-, rfl⟩ := Prod.mk.inj (Except.ok.inj h)
        have hstarts : ∀ pos : Nat, Segments.UpTo pos { start := pos } :=
          fun _ => ⟨rfl, fun _ hmem => absurd hmem List.not_mem_nil⟩
        have hparts := splitSegments_within (hstarts _) hsplit
        have hfirst := (hname.trans (Cursor.moves_next _)).size_eq
        unfold Cursor.size at hfirst
        rw [hfirst] at hparts
        intro f hf
        rcases List.mem_append.mp hf with hf | hf
        · refine within_issues (fun i hi => ?_) f hf
          rcases List.mem_append.mp hi with hi | hi
          · exact hissues i hi
          · exact hparts.2 i hi
        · refine hfound _ ⟨hspan, fun param hparam => ?_⟩ f hf
          obtain ⟨segment, hsegment, hparam⟩ := List.mem_filterMap.mp hparam
          exact Segment.param?_within (hparts.1 segment hsegment) hparam

/-! ## Steps -/

/-- The position at which a frame was opened. -/
def Frame.opener : Frame → Nat
  | content opener | math opener | code opener _ | embed opener _ _ _ => opener

/-- A frame was opened before a position, and so were its parentheses. -/
def Frame.OpenedBefore (n : Nat) (frame : Frame) : Prop :=
  frame.opener < n ∧ ∀ opener ∈ frame.parens, opener < n

/-- All that a scan stands in was opened before its place. -/
def State.Opened (s : State) : Prop := ∀ frame ∈ s.frames, frame.OpenedBefore s.cursor.pos

variable {c : Char} {s s' : State} {rest : List Char}

theorem Frame.OpenedBefore.mono {frame : Frame} {m : Nat} (h : frame.OpenedBefore n) (hle : n ≤ m) :
    frame.OpenedBefore m :=
  ⟨Nat.lt_of_lt_of_le h.1 hle, fun opener hmem => Nat.lt_of_lt_of_le (h.2 opener hmem) hle⟩

theorem Frame.OpensAt.openedBefore {frame : Frame} (h : frame.OpensAt c pos) :
    frame.OpenedBefore (pos + 1) := by
  cases frame with
  | content opener | math opener =>
    obtain rfl : opener = pos := h
    exact ⟨Nat.lt_succ_self _, by simp [parens]⟩
  | code opener parens =>
    obtain ⟨rfl, rfl, -⟩ := h
    exact ⟨Nat.lt_succ_self _, by simp [Frame.parens]⟩
  | embed opener statement topLevel parens =>
    obtain ⟨rfl, rfl, -⟩ := h
    exact ⟨Nat.lt_succ_self _, by simp [Frame.parens]⟩

theorem Frame.OpenedBefore.withParens {frame : Frame} {openers : List Nat}
    (h : frame.OpenedBefore n) (hopeners : ∀ opener ∈ openers, opener < n) :
    (frame.withParens openers).OpenedBefore n := by
  cases frame with
  | content opener | math opener => exact h
  | code opener parens => exact ⟨h.1, hopeners⟩
  | embed opener statement topLevel parens => exact ⟨h.1, hopeners⟩

theorem statementPos_lt {frame : Frame} (hframe : frame.OpenedBefore s.cursor.pos)
    (hrest : s.cursor.rest = c :: rest) (hc : isIdentStart c = true) :
    statementPos frame s.cursor < s.cursor.behindWord.pos := by
  have hword : 0 < (identOf s.cursor.rest).length := by
    rw [hrest]
    exact List.length_pos_iff.mpr (identOf_ne_nil hc)
  have hlt : s.cursor.pos < s.cursor.behindWord.pos := Cursor.pos_lt_advance hword (by simp [hrest])
  cases frame with
  | embed opener statement topLevel parens => exact Nat.lt_trans hframe.1 hlt
  | content | math | code => exact hlt

/-- A step keeps what was opened behind its place, and what it finds lies in the text. -/
theorem StepsTo.opened_and_within (hopened : s.Opened) (hrest : s.cursor.rest = c :: rest)
    (hmoves : s.cursor.Moves s'.cursor) (h : StepsTo c s s' found) :
    s'.Opened ∧ ∀ f ∈ found, f.Within s.cursor.size := by
  -- frames that were there before were opened before the old place
  have hold : ∀ frame ∈ s.frames, frame.OpenedBefore s'.cursor.pos :=
    fun frame hframe => (hopened frame hframe).mono hmoves.pos_le
  have hnone : ∀ f ∈ ([] : List Finding), f.Within s.cursor.size := by simp
  have hnext : (Cursor.advance 1 s.cursor).pos = s.cursor.pos + 1 := Cursor.pos_next hrest
  cases h with
  | move => exact ⟨hold, hnone⟩
  | leave | close => exact ⟨fun frame hframe => hold frame (List.mem_of_mem_tail hframe), hnone⟩
  | region kind region hkind hread =>
    have hlength := Region.read_length hkind hread
    refine ⟨hold, within_issues (Region.within_issues hlength.1 ?_)⟩
    exact Nat.add_le_add_left hlength.2 _
  | enter frame hopens =>
    refine ⟨fun frame' hframe => ?_, hnone⟩
    rcases List.mem_cons.mp hframe with rfl | hframe
    · rw [cursor_advance, cursor_push, hnext]
      exact hopens.openedBefore
    · exact hold frame' hframe
  | parens frame outer openers hframes hopeners =>
    refine ⟨fun frame' hframe => ?_, hnone⟩
    rcases List.mem_cons.mp hframe with rfl | hframe
    · have hframe := hold frame (hframes ▸ List.mem_cons_self)
      refine hframe.withParens fun opener hopener => ?_
      rcases hopeners opener hopener with rfl | hopener
      · rw [cursor_advance, cursor_replace, hnext]
        exact Nat.lt_succ_self _
      · exact hframe.2 opener hopener
    · exact hold frame' (List.mem_of_mem_tail hframe)
  | word frame outer _ _ hframes hident hword =>
    have hframe := hopened frame (hframes ▸ List.mem_cons_self)
    have hsize := (Cursor.moves_advance (identOf s.cursor.rest).length s.cursor).size_eq
    obtain ⟨hframes', hcases⟩ := wordStep_cases hword
    refine ⟨fun frame' hframe => hold frame' (hframes' ▸ hframe), ?_⟩
    rw [← hsize]
    rcases hcases with ⟨-, rfl⟩ | ⟨kind, hread, -⟩ | hread
    · simp
    · exact readDirective_within (statementPos_lt hframe hrest hident) hread
    · exact readBinding_within hread

/-! ## The whole text -/

theorem scanRest_opened_and_within (hopened : s.Opened) (h : scanRest s = .ok (s', found)) :
    s'.Opened ∧ ∀ f ∈ found, f.Within s.cursor.size := by
  induction s using State.induction generalizing found with
  | atEnd s hrest =>
    rw [scanRest_of_nil hrest] at h
    obtain ⟨rfl, rfl⟩ := Prod.mk.inj (Except.ok.inj h)
    exact ⟨hopened, by simp⟩
  | step s c rest hrest ih =>
    rw [scanRest_of_cons hrest] at h
    obtain ⟨⟨next, new⟩, hstep, h⟩ := bind_eq_ok.mp h
    obtain ⟨⟨last, later⟩, hlater, h⟩ := map_eq_ok.mp h
    obtain ⟨rfl, rfl⟩ := Prod.mk.inj h
    have hmoves := (step_finds hstep).moves
    obtain ⟨hnext, hnew⟩ := (stepsTo_of_step hstep).opened_and_within hopened hrest hmoves
    obtain ⟨hlast, hlater⟩ := ih next new hstep hnext hlater
    rw [hmoves.size_eq] at hlater
    refine ⟨hlast, fun f hf => ?_⟩
    rcases List.mem_append.mp hf with hf | hf
    · exact hnew f hf
    · exact hlater f hf

theorem Frame.OpenedBefore.issues_within {frame : Frame} (h : frame.OpenedBefore n) :
    ∀ i ∈ frame.issues, i.span.Within n := by
  intro i hi
  obtain ⟨⟨delimiter, opener⟩, hopener, rfl⟩ := List.mem_map.mp hi
  refine Span.within_ofLength Nat.one_pos ?_
  rcases List.mem_append.mp hopener with hopener | hopener
  · obtain ⟨opener', hmem, heq⟩ := List.mem_map.mp hopener
    obtain ⟨-, rfl⟩ := Prod.mk.inj heq
    exact h.2 _ (List.mem_reverse.mp hmem)
  · have hlt := h.1
    cases frame with
    | embed => simp [delimiter?] at hopener
    | content | math | code =>
      obtain ⟨-, rfl⟩ := Prod.mk.inj (List.mem_singleton.mp hopener)
      exact hlt

/-- Whatever a scan finds has spans of the text. -/
theorem scan_within {text : List Char} {outline : Outline} (h : scan text = .ok outline) :
    outline.Within text.length := by
  rw [scan_eq_scanRest] at h
  obtain ⟨⟨s, found⟩, hscan, rfl⟩ := map_eq_ok.mp h
  have hsize : (Cursor.ofText text).size = text.length := Nat.zero_add _
  have hmoves := scanRest_moves hscan
  obtain ⟨hopened, hfound⟩ := scanRest_opened_and_within (by simp [State.Opened]) hscan
  rw [hsize] at hfound
  refine Outline.within_ofFindings fun f hf => ?_
  rcases List.mem_append.mp hf with hf | hf
  · exact hfound f hf
  · refine within_issues (fun i hi => ?_) f hf
    obtain ⟨frame, hframe, hi⟩ := List.mem_flatMap.mp hi
    have hpos : s.cursor.pos ≤ text.length := by
      rw [← hsize, ← hmoves.size_eq]
      exact s.cursor.pos_le_size
    exact ((hopened frame (List.mem_reverse.mp hframe)).mono hpos).issues_within i hi

end TypstLint.Markup
