import TypstLint.Proofs.Markup.Runs

set_option autoImplicit false

/-! # Scans that return

Only an escape of a string literal can stop a scan, so a text without a quote can be scanned
(`exists_scanRest`). And only behind a `#` a binding of the top level starts, so in a text without one
there is none (`bindings_scanRest`). -/

namespace TypstLint.Markup

variable {s s' : State} {cur cur' : Cursor} {cs rest : List Char} {c : Char} {found : List Finding}

/-! ## Texts without quotes -/

/-- Regions other than string literals can be read. -/
theorem Region.exists_read {kind : RegionKind} (hkind : RegionKind.at? cs = some kind)
    (hquote : '\x22' ∉ cs) : ∃ region, Region.read kind cs = .ok region := by
  cases kind with
  | lineComment | blockComment | raw => exact ⟨_, rfl⟩
  | string =>
    obtain ⟨rest, rfl⟩ := RegionKind.exists_of_at? hkind
    exact absurd List.mem_cons_self hquote

theorem exists_findClose (pos skip depth : Nat) (hquote : '\x22' ∉ cs) :
    ∃ result, findClose pos skip depth cs = .ok result := by
  induction cs generalizing pos skip depth with
  | nil => exact ⟨_, rfl⟩
  | cons c rest ih =>
    have hrest : '\x22' ∉ rest := fun hmem => hquote (List.mem_cons_of_mem c hmem)
    have hnext : ∀ skip depth, ∃ result, findClose (pos + 1) skip depth rest = .ok result :=
      fun skip depth => ih (pos + 1) skip depth hrest
    unfold findClose
    split
    · exact hnext _ _
    · split
      · next kind hkind =>
        obtain ⟨region, hread⟩ := Region.exists_read (Option.filter_eq_some_iff.mp hkind).1 hquote
        rw [hread]
        dsimp only
        split
        · exact ⟨_, rfl⟩
        · exact hnext _ _
      · split
        · exact hnext _ _
        · split
          · split
            · exact ⟨_, rfl⟩
            · exact hnext _ _
          · exact hnext _ _

theorem Group.exists_read (hquote : '\x22' ∉ cur.rest) : ∃ group, Group.read cur = .ok group := by
  obtain ⟨result, hclose⟩ := exists_findClose cur.pos 0 0 hquote
  exact ⟨_, by rw [Group.read, hclose]; rfl⟩

theorem exists_splitSegments (left pos skip : Nat) (depth : Int) (segments : Segments)
    (hquote : '\x22' ∉ cs) : ∃ result, splitSegments left pos skip depth segments cs = .ok result := by
  induction cs generalizing left pos skip depth segments with
  | nil => exact ⟨_, by rw [splitSegments]⟩
  | cons c rest ih =>
    have hc : (c == '\x22') = false := beq_false_of_ne fun heq => hquote (heq ▸ List.mem_cons_self)
    have hnext := fun left skip depth segments => ih left (pos + 1) skip depth segments
      fun hmem => hquote (List.mem_cons_of_mem c hmem)
    cases left with
    | zero => exact ⟨_, by rw [splitSegments]⟩
    | succ left =>
      cases skip with
      | succ skip => exact hnext _ _ _ _
      | zero =>
        simp only [splitSegments, hc, Bool.false_eq_true, if_false]
        split
        · exact hnext _ _ _ _
        · exact hnext _ _ _ _

/-- Without a quote behind its word a directive has no target. -/
theorem readDirective_of_no_quote (kind : DirectiveKind) (start : Nat) (hquote : '\x22' ∉ cur.rest) :
    readDirective kind start cur
      = .ok (cur, [.directive { kind, target := none, span := .between start cur.pos }]) := by
  have hmeets : cur.skipBlanks.meets '\x22' = false := by
    refine beq_false_of_ne fun hhead => hquote ?_
    have hmem := List.mem_of_mem_head? hhead
    rw [Cursor.skipBlanks, Cursor.skipWhile, Cursor.rest_advance] at hmem
    exact List.mem_of_mem_drop hmem
  simp only [readDirective, hmeets]
  rfl

theorem exists_readBinding (topLevel : Bool) (hquote : '\x22' ∉ cur.rest) :
    ∃ outcome, readBinding topLevel cur = .ok outcome := by
  have hname : '\x22' ∉ cur.skipBlanks.behindWord.rest := by
    rw [Cursor.skipBlanks, Cursor.skipWhile, Cursor.rest_advance, Cursor.rest_advance]
    exact fun hmem => hquote (List.mem_of_mem_drop (List.mem_of_mem_drop hmem))
  have hfirst : '\x22' ∉ cur.skipBlanks.behindWord.next.rest := by
    rw [Cursor.rest_next]
    exact fun hmem => hname (List.mem_of_mem_drop hmem)
  obtain ⟨group, hgroup⟩ := Group.exists_read hname
  obtain ⟨parts, hparts⟩ := exists_splitSegments group.body.length cur.skipBlanks.behindWord.next.pos 0 0
    { start := cur.skipBlanks.behindWord.next.pos } hfirst
  unfold readBinding
  simp only [hgroup, hparts, bind, Except.bind]
  split
  · exact ⟨_, rfl⟩
  · split
    · exact ⟨_, rfl⟩
    · split
      · exact ⟨_, rfl⟩
      · exact ⟨_, rfl⟩

theorem exists_wordStep (frame : Frame) (hquote : '\x22' ∉ s.cursor.rest) :
    ∃ outcome, wordStep frame s = .ok outcome := by
  have hbehind : '\x22' ∉ s.cursor.behindWord.rest := by
    rw [Cursor.rest_advance]
    exact fun hmem => hquote (List.mem_of_mem_drop hmem)
  obtain ⟨outcome, hbinding⟩ := exists_readBinding (isTopLevel frame) hbehind
  unfold wordStep
  simp only [readDirective_of_no_quote _ _ hbehind, hbinding]
  split
  · exact ⟨_, rfl⟩
  · split
    · exact ⟨_, rfl⟩
    · split
      · exact ⟨_, rfl⟩
      · exact ⟨_, rfl⟩

theorem exists_readRegion {kind : RegionKind} (hkind : RegionKind.at? s.cursor.rest = some kind)
    (hquote : '\x22' ∉ s.cursor.rest) : ∃ outcome, readRegion kind s = .ok outcome := by
  obtain ⟨region, hread⟩ := Region.exists_read hkind hquote
  exact ⟨_, by rw [readRegion, hread]; rfl⟩

theorem exists_textStep (inMath inContent : Bool) (hquote : '\x22' ∉ s.cursor.rest) :
    ∃ outcome, textStep inMath inContent c s = .ok outcome := by
  unfold textStep
  split
  · next hkind => exact exists_readRegion (Option.filter_eq_some_iff.mp hkind).1 hquote
  · simp only [← apply_ite plain]
    exact ⟨_, rfl⟩

theorem exists_ok_ite {p : Prop} [Decidable p] {x y : Outcome} (hthen : ∃ outcome, x = .ok outcome)
    (helse : ∃ outcome, y = .ok outcome) : ∃ outcome, (if p then x else y) = .ok outcome := by
  split
  · exact hthen
  · exact helse

theorem exists_codeStep (frame : Frame) (hquote : '\x22' ∉ s.cursor.rest) :
    ∃ outcome, codeStep frame c s = .ok outcome := by
  have hword := exists_wordStep frame hquote
  have hplain : ∀ next, ∃ outcome, plain next = .ok outcome := fun next => ⟨_, rfl⟩
  unfold codeStep
  cases hkind : RegionKind.at? s.cursor.rest with
  | some kind => exact exists_readRegion hkind hquote
  | none =>
    refine exists_ok_ite (hplain _) (exists_ok_ite (hplain _) (exists_ok_ite (hplain _) (exists_ok_ite ?_
      (exists_ok_ite (hplain _) (exists_ok_ite (hplain _) (exists_ok_ite (hplain _) (exists_ok_ite hword
      (exists_ok_ite (hplain _) (hplain _)))))))))
    cases frame.parens with
    | nil => exact hplain _
    | cons => exact hplain _

theorem exists_step (hquote : '\x22' ∉ s.cursor.rest) : ∃ outcome, s.step c = .ok outcome := by
  unfold State.step
  split
  · exact exists_textStep false false hquote
  · exact exists_textStep false true hquote
  · exact exists_textStep true false hquote
  · exact exists_codeStep _ hquote

theorem exists_scanRest (hquote : '\x22' ∉ s.cursor.rest) : ∃ outcome, scanRest s = .ok outcome := by
  induction s using State.induction with
  | atEnd s hrest => exact ⟨_, scanRest_of_nil hrest⟩
  | step s c rest hrest ih =>
    obtain ⟨⟨next, new⟩, hstep⟩ := exists_step (c := c) hquote
    obtain ⟨recent, -, hread⟩ := (step_finds hstep).moves.exists_recent
    have hnext : '\x22' ∉ next.cursor.rest := fun hmem => hquote (hread ▸ List.mem_append_right _ hmem)
    obtain ⟨outcome, hlater⟩ := ih next new hstep hnext
    rw [scanRest_of_cons hrest, hstep]
    simp only [Except.bind, hlater]
    exact ⟨_, rfl⟩

/-! ## Texts without a `#` -/

/-- What code behind a `#` starts with was read, and there is no other `#`. -/
structure State.IsPassed (s : State) : Prop where
  hash : '#' ∉ s.cursor.rest
  embedded : ∀ opener statement topLevel parens,
    .embed opener statement topLevel parens ∈ s.frames → opener + 1 < s.cursor.pos

/-- The bindings among some findings. -/
abbrev bindingsOf (found : List Finding) : List Binding := found.filterMap Finding.binding?

theorem filterMap_binding?_issues (issues : List Issue) :
    (issues.map Finding.issue).filterMap Finding.binding? = [] := by
  rw [List.filterMap_map, List.filterMap_eq_nil_iff]
  exact fun _ _ => rfl

/-- A binding inside other code does not count. -/
theorem bindingsOf_readBinding (h : readBinding false cur = .ok (cur', found)) :
    bindingsOf found = [] := by
  unfold readBinding at h
  simp only at h
  split at h
  · obtain ⟨-, rfl⟩ := Prod.mk.inj (Except.ok.inj h)
    rfl
  · split at h
    · obtain ⟨-, rfl⟩ := Prod.mk.inj (Except.ok.inj h)
      rfl
    · obtain ⟨group, -, h⟩ := bind_eq_ok.mp h
      split at h
      · obtain ⟨-, rfl⟩ := Prod.mk.inj (Except.ok.inj h)
        exact filterMap_binding?_issues _
      · obtain ⟨⟨segments, issues⟩, -, h⟩ := bind_eq_ok.mp h
        obtain ⟨-, rfl⟩ := Prod.mk.inj (Except.ok.inj h)
        rw [bindingsOf, List.filterMap_append, filterMap_binding?_issues]
        rfl

theorem bindingsOf_readDirective {kind : DirectiveKind} {start : Nat}
    (h : readDirective kind start cur = .ok (cur', found)) : bindingsOf found = [] := by
  unfold readDirective at h
  simp only at h
  split at h
  · obtain ⟨-, rfl⟩ := Prod.mk.inj (Except.ok.inj h)
    rfl
  · obtain ⟨⟨text?, length⟩, -, h⟩ := bind_eq_ok.mp h
    cases text? with
    | none =>
      obtain ⟨-, rfl⟩ := Prod.mk.inj (Except.ok.inj h)
      rfl
    | some contents =>
      obtain ⟨clauses, -, h⟩ := bind_eq_ok.mp h
      obtain ⟨-, rfl⟩ := Prod.mk.inj (Except.ok.inj h)
      rw [bindingsOf, List.filterMap_append, filterMap_binding?_issues]
      rfl

/-- In a frame that is none of the top level, or where no statement starts, no word binds a name. -/
theorem bindingsOf_wordStep {frame : Frame}
    (hframe : startsStatement frame s.cursor = true → isTopLevel frame = false)
    (h : wordStep frame s = .ok (s', found)) : bindingsOf found = [] := by
  cases hstarts : startsStatement frame s.cursor with
  | false =>
    rw [wordStep_of_not_starts hstarts] at h
    obtain ⟨-, rfl⟩ := Prod.mk.inj (Except.ok.inj h)
    rfl
  | true =>
    rcases (wordStep_cases h).2 with ⟨-, rfl⟩ | ⟨kind, hread, -, -⟩ | hread
    · rfl
    · exact bindingsOf_readDirective hread
    · rw [hframe hstarts] at hread
      exact bindingsOf_readBinding hread

theorem State.IsPassed.isTopLevel_eq_false {frame : Frame} (h : s.IsPassed) (hmem : frame ∈ s.frames)
    (hstarts : startsStatement frame s.cursor = true) : isTopLevel frame = false := by
  cases frame with
  | content | math | code => rfl
  | embed opener statement topLevel parens =>
    have hlt := h.embedded _ _ _ _ hmem
    have heq : s.cursor.pos = opener + 1 := beq_iff_eq.mp hstarts
    omega

/-- A step finds no binding, and leads on to a state in which none is found. -/
theorem State.IsPassed.of_step (h : s.IsPassed) (hrest : s.cursor.rest = c :: rest)
    (hstep : s.step c = .ok (s', found)) : s'.IsPassed ∧ bindingsOf found = [] := by
  have hmoves := (step_finds hstep).moves
  obtain ⟨recent, -, hread⟩ := hmoves.exists_recent
  have hhash : '#' ∉ s'.cursor.rest := fun hmem => h.hash (hread ▸ List.mem_append_right _ hmem)
  have hsame : ∀ opener statement topLevel parens,
      Frame.embed opener statement topLevel parens ∈ s.frames → opener + 1 < s'.cursor.pos :=
    fun opener statement topLevel parens hmem =>
      Nat.lt_of_lt_of_le (h.embedded _ _ _ _ hmem) hmoves.pos_le
  have htail : ∀ opener statement topLevel parens,
      Frame.embed opener statement topLevel parens ∈ s.frames.tail → opener + 1 < s'.cursor.pos :=
    fun opener statement topLevel parens hmem => hsame _ _ _ _ (List.mem_of_mem_tail hmem)
  cases stepsTo_of_step hstep with
  | move => exact ⟨⟨hhash, hsame⟩, rfl⟩
  | region => exact ⟨⟨hhash, hsame⟩, filterMap_binding?_issues _⟩
  | leave | close => exact ⟨⟨hhash, htail⟩, rfl⟩
  | enter frame hopens =>
    refine ⟨⟨hhash, fun opener statement topLevel parens hmem => ?_⟩, rfl⟩
    rcases List.mem_cons.mp hmem with rfl | hmem
    · obtain rfl := hopens.2.2
      exact absurd (hrest ▸ List.mem_cons_self) h.hash
    · exact hsame _ _ _ _ hmem
  | parens frame outer parens' hframes =>
    refine ⟨⟨hhash, fun opener statement topLevel parens hmem => ?_⟩, rfl⟩
    rcases List.mem_cons.mp hmem with hframe | hmem
    · cases frame with
      | content | math | code => cases hframe
      | embed opener' statement' topLevel' old =>
        obtain ⟨rfl, rfl, rfl, rfl⟩ := Frame.embed.inj hframe
        exact hsame _ _ _ old (hframes ▸ List.mem_cons_self)
    · exact htail _ _ _ _ hmem
  | word frame outer _ _ hframes _ hword =>
    obtain ⟨hframes', -⟩ := wordStep_cases hword
    refine ⟨⟨hhash, hframes' ▸ hsame⟩, ?_⟩
    exact bindingsOf_wordStep (h.isTopLevel_eq_false (hframes ▸ List.mem_cons_self)) hword

theorem bindings_scanRest (h : s.IsPassed) (hscan : scanRest s = .ok (s', found)) :
    bindingsOf found = [] := by
  induction s using State.induction generalizing found with
  | atEnd s hrest =>
    rw [scanRest_of_nil hrest] at hscan
    obtain ⟨-, rfl⟩ := Prod.mk.inj (Except.ok.inj hscan)
    rfl
  | step s c rest hrest ih =>
    rw [scanRest_of_cons hrest] at hscan
    obtain ⟨⟨next, new⟩, hstep, hscan⟩ := bind_eq_ok.mp hscan
    obtain ⟨⟨last, later⟩, hlater, heq⟩ := map_eq_ok.mp hscan
    obtain ⟨rfl, rfl⟩ := Prod.mk.inj heq
    obtain ⟨hnext, hnew⟩ := h.of_step hrest hstep
    rw [bindingsOf, List.filterMap_append, ← bindingsOf, hnew, List.nil_append]
    exact ih next new hstep hnext hlater

/-- A text without quotes and without another `#` holds no binding from a place on. -/
theorem exists_outlineFrom (hquote : '\x22' ∉ s.cursor.rest) (h : s.IsPassed) :
    ∃ outline, outlineFrom s = .ok outline ∧ outline.bindings = [] := by
  obtain ⟨⟨last, found⟩, hscan⟩ := exists_scanRest hquote
  refine ⟨_, by rw [outlineFrom, hscan]; rfl, ?_⟩
  show bindingsOf (found ++ _) = []
  rw [bindingsOf, List.filterMap_append, filterMap_binding?_issues, List.append_nil]
  exact bindings_scanRest h hscan

end TypstLint.Markup
