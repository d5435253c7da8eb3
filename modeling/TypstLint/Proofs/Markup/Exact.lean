import TypstLint.Proofs.Markup.Slices

set_option autoImplicit false

/-! # Exact places

Every span of what a scan finds is exactly where the thing stands (`scan_exact`): a directive starts at the
`#` of its code or at its word, the span of a target goes from quote to quote, and those of names are the
names. What is found later stands behind what was found before. Code behind a `#` is the one thing whose
place lies before the scan when it is found. `State.floor` is the place from which on the next thing can
be found. -/

namespace TypstLint.Markup

open Text (Span)

/-! ## Findings in their places -/

/-- A directive stands in a text: it starts with its word or with a `#` before the word, and its target
is in it, from quote to quote. -/
structure Directive.IsExact (text : List Char) (d : Directive) : Prop where
  start : '#' :: d.kind.word.toList <+: text.drop d.span.start.toNat
    ∨ d.kind.word.toList <+: text.drop d.span.start.toNat
  inside : ∀ target ∈ d.target, d.span.start ≤ target.span.start ∧ target.span.stop ≤ d.span.stop
  quoted : ∀ target ∈ d.target, ∃ body, target.span.slice text = '\x22' :: body ++ ['\x22']

/-- A binding stands in a text, and so do its parameters, one behind the other. -/
structure Binding.IsExact (text : List Char) (b : Binding) : Prop where
  name : b.span.slice text = b.name.toList
  params : ∀ param ∈ b.params, param.span.slice text = param.name.toList
  ordered : b.params.Pairwise fun param later => param.span.IsBefore later.span

/-- The spans of an outline are spans of the text, at which the things that were found stand in their
order. -/
structure Outline.IsExact (text : List Char) (o : Outline) : Prop where
  within : o.Within text.length
  directives : o.directives.Pairwise fun d later => d.span.IsBefore later.span
  directive : ∀ d ∈ o.directives, d.IsExact text
  bindings : o.bindings.Pairwise fun b later => b.span.IsBefore later.span
  binding : ∀ b ∈ o.bindings, b.IsExact text

/-- A finding stands in a text; nothing more is said of issues. -/
def Finding.IsExact (text : List Char) : Finding → Prop
  | directive d => d.IsExact text
  | binding b => b.IsExact text
  | issue _ => True

/-- The place of a directive or of a binding. -/
def Finding.place? : Finding → Option Span
  | directive d => some d.span
  | binding b => some b.span
  | issue _ => none

/-- What was found stands in a text between two places, one thing behind the other. -/
structure Located (text : List Char) (low high : Nat) (found : List Finding) : Prop where
  le : low ≤ high
  exact : ∀ f ∈ found, f.IsExact text
  between : ∀ f ∈ found, ∀ span ∈ f.place?, (low : Int) ≤ span.start ∧ span.stop ≤ high
  ordered : found.Pairwise fun f later =>
    ∀ span ∈ f.place?, ∀ next ∈ later.place?, span.stop ≤ next.start

variable {n low mid high : Nat} {c : Char} {rest text : List Char} {cur cur' : Cursor}
  {found found' : List Finding} {s s' : State}

namespace Located

theorem append (h : Located text low mid found) (h' : Located text mid high found') :
    Located text low high (found ++ found') where
  le := Nat.le_trans h.le h'.le
  exact f hf := (List.mem_append.mp hf).elim (h.exact f) (h'.exact f)
  between f hf span hspan := by
    have hle := h.le
    have hle' := h'.le
    rcases List.mem_append.mp hf with hf | hf
    · have := h.between f hf span hspan
      omega
    · have := h'.between f hf span hspan
      omega
  ordered := by
    refine List.pairwise_append.mpr ⟨h.ordered, h'.ordered, fun f hf later hlater span hspan next hnext => ?_⟩
    exact Int.le_trans (h.between f hf span hspan).2 (h'.between later hlater next hnext).1

/-- Issues are not asked for their order. -/
theorem issues (text : List Char) (hle : low ≤ high) (issues : List Issue) :
    Located text low high (issues.map .issue) where
  le := hle
  exact f hf := by
    obtain ⟨issue, -, rfl⟩ := List.mem_map.mp hf
    exact trivial
  between f hf span hspan := by
    obtain ⟨issue, -, rfl⟩ := List.mem_map.mp hf
    cases hspan
  ordered := by
    refine List.pairwise_map.mpr (List.pairwise_of_forall fun _ _ span hspan => ?_)
    cases hspan

theorem nil (text : List Char) (hle : low ≤ high) : Located text low high [] := issues text hle []

theorem singleton {f : Finding} (hle : low ≤ high) (hexact : f.IsExact text)
    (hbetween : ∀ span ∈ f.place?, (low : Int) ≤ span.start ∧ span.stop ≤ high) :
    Located text low high [f] where
  le := hle
  exact _ hf := List.mem_singleton.mp hf ▸ hexact
  between _ hf := List.mem_singleton.mp hf ▸ hbetween
  ordered := List.pairwise_singleton _ f

end Located

/-- The findings of one sort stand one behind the other. -/
theorem Located.pairwise_filterMap {α : Type} {sort? : Finding → Option α} {span : α → Span}
    (h : Located text low high found)
    (hplace : ∀ f a, sort? f = some a → f.place? = some (span a))
    (hwithin : ∀ a ∈ found.filterMap sort?, (span a).Within n) :
    (found.filterMap sort?).Pairwise fun a later => (span a).IsBefore (span later) := by
  refine List.pairwise_filterMap.mpr (h.ordered.imp_of_mem ?_)
  intro f g hf _ hordered a ha later hlater
  refine (hwithin a (List.mem_filterMap.mpr ⟨f, hf, ha⟩)).isBefore ?_
  exact hordered _ (hplace f a ha) _ (hplace g later hlater)

theorem Finding.directive?_eq_some_iff {f : Finding} {d : Directive} :
    f.directive? = some d ↔ f = .directive d := by
  cases f <;> simp [directive?]

theorem Finding.binding?_eq_some_iff {f : Finding} {b : Binding} :
    f.binding? = some b ↔ f = .binding b := by
  cases f <;> simp [binding?]

theorem Outline.isExact_ofFindings (hwithin : (Outline.ofFindings found).Within text.length)
    (h : Located text low high found) : (Outline.ofFindings found).IsExact text where
  within := hwithin
  directives := by
    refine h.pairwise_filterMap (fun f d hd => ?_) fun d hd => (hwithin.directives d hd).1
    rw [Finding.directive?_eq_some_iff.mp hd]
    rfl
  directive d hd := by
    obtain ⟨f, hf, hd⟩ := List.mem_filterMap.mp hd
    obtain rfl := Finding.directive?_eq_some_iff.mp hd
    exact h.exact _ hf
  bindings := by
    refine h.pairwise_filterMap (fun f b hb => ?_) fun b hb => (hwithin.bindings b hb).1
    rw [Finding.binding?_eq_some_iff.mp hb]
    rfl
  binding b hb := by
    obtain ⟨f, hf, hb⟩ := List.mem_filterMap.mp hb
    obtain rfl := Finding.binding?_eq_some_iff.mp hb
    exact h.exact _ hf

/-! ## Directives and bindings -/

/-- What a directive finds stands between its start and the place behind it. -/
theorem readDirective_located {kind : DirectiveKind} {start : Nat} (htext : cur.text = text)
    (hstart : start ≤ cur.pos) (hword : '#' :: kind.word.toList <+: text.drop start
      ∨ kind.word.toList <+: text.drop start)
    (h : readDirective kind start cur = .ok (cur', found)) : Located text start cur'.pos found := by
  have hquote := Cursor.moves_skipBlanks cur
  unfold readDirective at h
  simp only at h
  split at h
  · obtain ⟨rfl, rfl⟩ := Prod.mk.inj (Except.ok.inj h)
    refine .singleton hstart ⟨hword, by simp, by simp⟩ fun span hspan => ?_
    obtain rfl := Option.some.inj hspan
    exact ⟨Int.le_refl _, Int.le_refl _⟩
  · next hopen =>
    have hmeets : cur.skipBlanks.meets '\x22' = true := by simpa using hopen
    obtain ⟨⟨text?, length⟩, hliteral, h⟩ := bind_eq_ok.mp h
    have hle := (readLiteral_length (Cursor.rest_ne_nil_of_meets hmeets) hliteral).2
    have hbehind := hquote.trans (Cursor.moves_advance length cur.skipBlanks)
    have hpos : (Cursor.advance length cur.skipBlanks).pos = cur.skipBlanks.pos + length := by
      rw [Cursor.pos_advance, Nat.min_eq_left hle]
    cases text? with
    | none =>
      obtain ⟨rfl, rfl⟩ := Prod.mk.inj (Except.ok.inj h)
      exact Located.issues text (Nat.le_trans hstart hbehind.pos_le) [_]
    | some contents =>
      obtain ⟨clauses, hclauses, h⟩ := bind_eq_ok.mp h
      obtain ⟨rfl, rfl⟩ := Prod.mk.inj (Except.ok.inj h)
      have hmoves := kindReadClauses_moves hclauses
      have hend := Nat.le_trans hstart (hbehind.trans hmoves).pos_le
      refine (Located.issues text (Nat.le_refl start) clauses.issues).append ?_
      refine .singleton hend ⟨hword, fun target htarget => ?_, fun target htarget => ?_⟩ fun span hspan => ?_
      · obtain rfl := Option.some.inj htarget
        have hle := hquote.pos_le
        have hle' : (Cursor.advance length cur.skipBlanks).pos ≤ clauses.behind.pos := hmoves.pos_le
        simp only [Span.ofLength, Span.between]
        omega
      · obtain rfl := Option.some.inj htarget
        rw [Cursor.slice_next (hquote.text_eq.trans htext)]
        exact readLiteral_closed (beq_iff_eq.mp hmeets) hliteral
      · obtain rfl := Option.some.inj hspan
        exact ⟨Int.le_refl _, Int.le_refl _⟩

/-- The parameters of a closure are names in it, one behind the other. -/
theorem params_exact {segments : List Segment} (hin : ∀ segment ∈ segments, segment.IsIn text)
    (hordered : segments.Pairwise Segment.IsBefore)
    (hwithin : ∀ param ∈ segments.filterMap Segment.param?, param.span.Within n) :
    (∀ param ∈ segments.filterMap Segment.param?, param.span.slice text = param.name.toList)
      ∧ (segments.filterMap Segment.param?).Pairwise fun param later => param.span.IsBefore later.span := by
  refine ⟨fun param hparam => ?_, List.pairwise_filterMap.mpr (hordered.imp_of_mem ?_)⟩
  · obtain ⟨segment, hsegment, hparam⟩ := List.mem_filterMap.mp hparam
    exact (Segment.param?_exact (hin segment hsegment) hparam).1
  · intro segment later hsegment hlater hbefore param hparam next hnext
    have hparam' := Segment.param?_exact (hin segment hsegment) hparam
    have hnext' := Segment.param?_exact (hin later hlater) hnext
    refine (hwithin param (List.mem_filterMap.mpr ⟨segment, hsegment, hparam⟩)).isBefore ?_
    unfold Segment.IsBefore Segment.EndsBy at hbefore
    omega

/-- What a binding finds stands between the place behind its word and the one behind the binding. -/
theorem readBinding_located {topLevel : Bool} (htext : cur.text = text)
    (h : readBinding topLevel cur = .ok (cur', found)) : Located text cur.pos cur'.pos found := by
  have hwithin := readBinding_within h
  have hstart := Cursor.moves_skipBlanks cur
  have hname := hstart.trans (Cursor.moves_advance (identOf cur.skipBlanks.rest).length _)
  have hslice : (Span.ofLength cur.skipBlanks.pos (identOf cur.skipBlanks.rest).length).slice text
      = identOf cur.skipBlanks.rest := by
    rw [Cursor.slice_next (hstart.text_eq.trans htext), take_identOf]
  have hpos : cur.skipBlanks.behindWord.pos
      = cur.skipBlanks.pos + (identOf cur.skipBlanks.rest).length := by
    rw [Cursor.pos_advance, Nat.min_eq_left (length_identOf_le _)]
  have hfound : ∀ (b : Binding) (high : Nat), b.IsExact text →
      b.span = Span.ofLength cur.skipBlanks.pos (identOf cur.skipBlanks.rest).length →
      cur.skipBlanks.behindWord.pos ≤ high →
      Located text cur.pos high (if topLevel then [Finding.binding b] else []) := by
    intro b high hb hspan hle
    have hlow := Nat.le_trans hname.pos_le hle
    cases topLevel with
    | false => exact .nil text hlow
    | true =>
      refine .singleton hlow hb fun span hmem => ?_
      obtain rfl := Option.some.inj hmem
      have := hstart.pos_le
      rw [hspan, Span.ofLength]
      dsimp only
      omega
  unfold readBinding at h
  simp only at h
  split at h
  · obtain ⟨rfl, rfl⟩ := Prod.mk.inj (Except.ok.inj h)
    exact .nil text hstart.pos_le
  · split at h
    · obtain ⟨rfl, rfl⟩ := Prod.mk.inj (Except.ok.inj h)
      refine hfound _ _ ⟨?_, by simp, .nil⟩ rfl (Nat.le_refl _)
      rw [String.toList_ofList]
      exact hslice
    · obtain ⟨group, hgroup, h⟩ := bind_eq_ok.mp h
      have hmoves := groupRead_moves hgroup
      split at h
      · obtain ⟨rfl, rfl⟩ := Prod.mk.inj (Except.ok.inj h)
        exact Located.issues text (hname.trans hmoves).pos_le _
      · obtain ⟨⟨segments, issues⟩, hsplit, h⟩ := bind_eq_ok.mp h
        obtain ⟨rfl, rfl⟩ := Prod.mk.inj (Except.ok.inj h)
        have hfirst := hname.trans (Cursor.moves_next _)
        have hrest : text.drop cur.skipBlanks.behindWord.next.pos = cur.skipBlanks.behindWord.next.rest := by
          rw [← htext, ← hfirst.text_eq, Cursor.drop_pos]
        obtain ⟨hin, hordered⟩ := splitSegments_cuts (.start text _) hrest hsplit
        refine (Located.issues text (Nat.le_refl cur.pos) _).append ?_
        cases topLevel with
        | false => exact .nil text (hname.trans hmoves).pos_le
        | true =>
          have hbinding := hwithin _ (List.mem_append_right _ List.mem_cons_self)
          obtain ⟨hparams, hordered⟩ := params_exact hin hordered hbinding.2
          refine hfound _ _ ⟨?_, hparams, hordered⟩ rfl hmoves.pos_le
          rw [String.toList_ofList]
          exact hslice

/-! ## Frames -/

/-- A frame of code behind a `#` was opened at one. -/
def Frame.IsMarked (text : List Char) : Frame → Prop
  | embed opener .. => text[opener]? = some '#'
  | _ => True

/-- What a scan stands in was opened before its place, the inner behind the outer, and code in text behind
a `#`. -/
structure State.Nested (text : List Char) (s : State) : Prop where
  text_eq : s.cursor.text = text
  opened : s.Opened
  nested : s.frames.Pairwise fun inner outer => outer.opener < inner.opener
  marked : ∀ frame ∈ s.frames, frame.IsMarked text

/-- Where the next thing can be found: right behind a `#`, at the `#`, and else at the place of the scan
itself. -/
def State.floor (s : State) : Nat :=
  match s.frames with
  | .embed opener .. :: _ => if s.cursor.pos = opener + 1 then opener else s.cursor.pos
  | _ => s.cursor.pos

theorem State.floor_le_pos (s : State) : s.floor ≤ s.cursor.pos := by
  unfold floor
  split
  · split
    · omega
    · exact Nat.le_refl _
  · exact Nat.le_refl _

theorem State.lt_floor_succ (s : State) : s.cursor.pos < s.floor + 2 := by
  unfold floor
  split
  · split
    · omega
    · omega
  · omega

/-- Behind the place at which a frame stood before, nothing can be found further back. -/
theorem State.floor_eq_pos (h : ∀ frame ∈ s.frames.head?, frame.opener + 1 < s.cursor.pos) :
    s.floor = s.cursor.pos := by
  unfold floor
  split
  · next opener statement topLevel parens outer hframes =>
    have hlt : opener + 1 < s.cursor.pos := h (.embed opener statement topLevel parens) (by
      rw [hframes]
      rfl)
    rw [if_neg (Nat.ne_of_gt hlt)]
  · rfl

/-- A step that moves on never makes the next thing stand further back. -/
theorem State.floor_le_floor (h : s.cursor.pos < s'.cursor.pos) : s.floor ≤ s'.floor := by
  have hle := s.floor_le_pos
  have hlt := s'.lt_floor_succ
  omega

theorem Frame.OpensAt.opener_eq {frame : Frame} {pos : Nat} (h : frame.OpensAt c pos) :
    frame.opener = pos := by
  cases frame with
  | content | math => exact h
  | code | embed => exact h.1

theorem Frame.OpensAt.isMarked {frame : Frame} (h : frame.OpensAt c cur.pos) (htext : cur.text = text)
    (hrest : cur.rest = c :: rest) : frame.IsMarked text := by
  cases frame with
  | content | math | code => exact trivial
  | embed opener =>
    obtain ⟨rfl, -, rfl⟩ := h
    have hhead : (text.drop cur.pos)[0]? = some '#' := by
      rw [← htext, cur.drop_pos, hrest]
      rfl
    rwa [List.getElem?_drop] at hhead

@[simp] theorem Frame.opener_withParens (parens : List Nat) (frame : Frame) :
    (frame.withParens parens).opener = frame.opener := by
  cases frame <;> rfl

theorem Frame.isMarked_withParens {frame : Frame} (parens : List Nat) (h : frame.IsMarked text) :
    (frame.withParens parens).IsMarked text := by
  cases frame <;> exact h

/-! ## Steps -/

/-- A statement starts where the next thing can be found. -/
theorem State.floor_eq_statementPos {frame : Frame} {outer : List Frame}
    (hframes : s.frames = frame :: outer) (hstarts : startsStatement frame s.cursor = true) :
    s.floor = statementPos frame s.cursor := by
  unfold floor
  rw [hframes]
  cases frame with
  | embed opener => exact if_pos (beq_iff_eq.mp hstarts)
  | code => rfl
  | content | math => cases hstarts

/-- A statement starts with its word or with a `#` before the word. -/
theorem State.Nested.startsWith_statement {frame : Frame} (h : s.Nested text) (hframe : frame ∈ s.frames)
    (hstarts : startsStatement frame s.cursor = true) {word : List Char} (hword : word <+: s.cursor.rest) :
    '#' :: word <+: text.drop (statementPos frame s.cursor)
      ∨ word <+: text.drop (statementPos frame s.cursor) := by
  have hrest : text.drop s.cursor.pos = s.cursor.rest := by rw [← h.text_eq, Cursor.drop_pos]
  cases frame with
  | embed opener =>
    have hpos : s.cursor.pos = opener + 1 := beq_iff_eq.mp hstarts
    obtain ⟨hlt, hhash⟩ := List.getElem?_eq_some_iff.mp (h.marked _ hframe)
    refine .inl ?_
    show '#' :: word <+: text.drop opener
    rw [List.drop_eq_getElem_cons hlt, hhash, ← hpos, hrest]
    exact (List.cons_prefix_cons ..).mpr ⟨rfl, hword⟩
  | code | content | math => exact .inr (hrest ▸ hword)

/-- What a word leads to is found in its place. -/
theorem wordStep_located {frame : Frame} {outer : List Frame} (hnested : s.Nested text)
    (hframes : s.frames = frame :: outer) (hrest : s.cursor.rest = c :: rest)
    (hident : isIdentStart c = true) (h : wordStep frame s = .ok (s', found)) :
    Located text s.floor s'.floor found := by
  have hmem : frame ∈ s.frames := hframes ▸ List.mem_cons_self
  have hword : 0 < (identOf s.cursor.rest).length :=
    List.length_pos_iff.mpr (hrest ▸ identOf_ne_nil hident)
  have hlt : s.cursor.pos < s.cursor.behindWord.pos := Cursor.pos_lt_advance hword (by simp [hrest])
  have hbehind : s.cursor.behindWord.text = text :=
    (Cursor.moves_advance _ s.cursor).text_eq.trans hnested.text_eq
  have hmoves := (wordStep_finds h).moves
  obtain ⟨hframes', hcases⟩ := wordStep_cases h
  have hfloor : s'.floor = s'.cursor.pos := by
    refine State.floor_eq_pos fun outermost hhead => ?_
    rw [hframes'] at hhead
    have hopened := (hnested.opened _ (List.mem_of_mem_head? hhead)).1
    have := hmoves.pos_le
    omega
  have hle := Nat.le_trans s.floor_le_pos (Nat.le_of_lt hlt)
  rw [hfloor]
  rcases hcases with ⟨-, rfl⟩ | ⟨kind, hread, hstarts, hkind⟩ | hread
  · exact .nil text (Nat.le_trans hle hmoves.pos_le)
  · have hprefix := hnested.startsWith_statement hmem hstarts (isPrefix_identOf s.cursor.rest)
    rw [hkind] at hprefix
    rw [State.floor_eq_statementPos hframes hstarts] at hle ⊢
    exact readDirective_located hbehind hle hprefix hread
  · exact (Located.nil text hle).append (readBinding_located hbehind hread)

/-- A step leaves the frames in order, and what it finds stands in its place. -/
theorem StepsTo.located (hnested : s.Nested text) (hrest : s.cursor.rest = c :: rest)
    (hmoves : s.cursor.Moves s'.cursor) (h : StepsTo c s s' found) :
    s'.Nested text ∧ Located text s.floor s'.floor found := by
  have htext := hmoves.text_eq.trans hnested.text_eq
  have hopened := (h.opened_and_within hnested.opened hrest hmoves).1
  have hne : s.cursor.rest ≠ [] := by simp [hrest]
  have hnext (s : State) (hne : s.cursor.rest ≠ []) : s.cursor.pos < (s.advance 1).cursor.pos :=
    Cursor.pos_lt_advance Nat.one_pos hne
  have htail := hnested.nested.sublist (List.tail_sublist s.frames)
  have hmarked : ∀ frame ∈ s.frames.tail, frame.IsMarked text :=
    fun frame hframe => hnested.marked frame (List.mem_of_mem_tail hframe)
  cases h with
  | move n hn =>
    refine ⟨⟨htext, hopened, hnested.nested, hnested.marked⟩, .nil text (State.floor_le_floor ?_)⟩
    exact Cursor.pos_lt_advance hn hne
  | region kind region hkind hread =>
    refine ⟨⟨htext, hopened, hnested.nested, hnested.marked⟩,
      .issues text (State.floor_le_floor ?_) _⟩
    exact Cursor.pos_lt_advance (Region.read_length hkind hread).1 hne
  | leave hframes =>
    refine ⟨⟨htext, hopened, htail, hmarked⟩, .nil text ?_⟩
    -- the frame that was left was opened behind those around it, and before the place
    have hfloor : s.pop.floor = s.pop.cursor.pos := by
      refine State.floor_eq_pos fun frame hframe => ?_
      obtain ⟨inner, outer, houter⟩ := List.exists_cons_of_ne_nil hframes
      have hpairwise := hnested.nested
      rw [frames_pop, houter, List.tail_cons] at hframe
      rw [houter, List.pairwise_cons] at hpairwise
      have hlt := hpairwise.1 frame (List.mem_of_mem_head? hframe)
      have hinner := (hnested.opened inner (houter ▸ List.mem_cons_self)).1
      rw [cursor_pop]
      omega
    rw [hfloor]
    exact s.floor_le_pos
  | close =>
    refine ⟨⟨htext, hopened, htail, hmarked⟩, .nil text (State.floor_le_floor ?_)⟩
    exact hnext s.pop hne
  | enter frame hopens =>
    have hopener := hopens.opener_eq
    refine ⟨⟨htext, hopened, List.pairwise_cons.mpr ⟨fun outer houter => ?_, hnested.nested⟩,
      fun frame' hframe => ?_⟩, .nil text (State.floor_le_floor (hnext (s.push frame) hne))⟩
    · rw [hopener]
      exact (hnested.opened outer houter).1
    · rcases List.mem_cons.mp hframe with rfl | hframe
      · exact hopens.isMarked hnested.text_eq hrest
      · exact hnested.marked frame' hframe
  | parens frame outer openers hframes =>
    have hpairwise := hnested.nested
    have hframe := hnested.marked frame (hframes ▸ List.mem_cons_self)
    rw [hframes, List.pairwise_cons] at hpairwise
    refine ⟨⟨htext, hopened, ?_, fun frame' hframe' => ?_⟩, .nil text (State.floor_le_floor ?_)⟩
    · rw [frames_advance, frames_replace, hframes, List.tail_cons, List.pairwise_cons,
        Frame.opener_withParens]
      exact hpairwise
    · rcases List.mem_cons.mp hframe' with rfl | hframe'
      · exact Frame.isMarked_withParens openers hframe
      · exact hmarked frame' hframe'
    · exact hnext (s.replace (frame.withParens openers)) hne
  | word frame outer _ _ hframes hident hword =>
    have hframes' := (wordStep_cases hword).1
    exact ⟨⟨htext, hopened, hframes' ▸ hnested.nested, hframes' ▸ hnested.marked⟩,
      wordStep_located hnested hframes hrest hident hword⟩

/-! ## The whole text -/

theorem scanRest_located (hnested : s.Nested text) (h : scanRest s = .ok (s', found)) :
    Located text s.floor s'.floor found := by
  induction s using State.induction generalizing found with
  | atEnd s hrest =>
    rw [scanRest_of_nil hrest] at h
    obtain ⟨rfl, rfl⟩ := Prod.mk.inj (Except.ok.inj h)
    exact .nil text (Nat.le_refl _)
  | step s c rest hrest ih =>
    rw [scanRest_of_cons hrest] at h
    obtain ⟨⟨next, new⟩, hstep, h⟩ := bind_eq_ok.mp h
    obtain ⟨⟨last, later⟩, hlater, h⟩ := map_eq_ok.mp h
    obtain ⟨rfl, rfl⟩ := Prod.mk.inj h
    have hmoves := (step_finds hstep).moves
    obtain ⟨hnext, hnew⟩ := (stepsTo_of_step hstep).located hnested hrest hmoves
    exact hnew.append (ih next new hstep hnext hlater)

/-- Whatever a scan finds has spans of at least one character of the text. Directives and bindings stand
one behind the other, and so do the parameters of a binding. A directive starts at the `#` of its code or
at its word, the span of its target is in its own and goes from quote to quote, and at the spans of
bindings and parameters stand their names. -/
theorem scan_exact {outline : Outline} (h : scan text = .ok outline) : outline.IsExact text := by
  have hwithin := scan_within h
  rw [scan_eq_scanRest] at h
  obtain ⟨⟨s, found⟩, hscan, rfl⟩ := map_eq_ok.mp h
  have hstart : State.Nested text ⟨.ofText text, []⟩ := ⟨rfl, by simp [State.Opened], .nil, by simp⟩
  have hlocated := (scanRest_located hstart hscan).append (Located.issues text (Nat.le_refl _)
    (s.frames.reverse.flatMap Frame.issues))
  exact Outline.isExact_ofFindings hwithin hlocated

/-- A line with an import, a line with a closure, and a literal that is not closed. -/
def sampleText : List Char := "#import \x22a\x22: f\n#let g(x, y: 1) = \x22".toList

/-- What the text holds. -/
def sampleOutline : Outline where
  directives := [⟨.importing, some ⟨"a", ⟨8, 11⟩⟩, ⟨0, 14⟩, ["f"], false, none⟩]
  bindings := [⟨"g", ⟨20, 21⟩, [⟨"x", ⟨22, 23⟩, false⟩, ⟨"y", ⟨25, 26⟩, true⟩], true⟩]
  issues := [⟨.unterminatedString, ⟨33, 34⟩⟩]

theorem scan_exact_sample :
    scan sampleText = .ok sampleOutline ∧ sampleOutline.IsExact sampleText
      ∧ (⟨8, 11⟩ : Span).slice sampleText = "\x22a\x22".toList
      ∧ (⟨25, 26⟩ : Span).slice sampleText = "y".toList := by
  have hscan : scan sampleText = .ok sampleOutline := by decide +kernel
  exact ⟨hscan, scan_exact hscan, by decide, by decide⟩

end TypstLint.Markup
