import TypstLint.Proofs.Markup.Step

set_option autoImplicit false

/-! # The places of targets

`Moves` says that a cursor stands in the same text as another one, at its place or behind it. A scan never
goes back, and the literal of a directive lies between the place where its step starts and the one where the
step ends. So the targets of a text start at different places, in the order of the text (`scan_targets`). -/

namespace TypstLint.Markup

/-! ## Moving through a text -/

namespace Cursor

variable {cur cur' cur'' : Cursor}

theorem next_of_rest_eq_nil (h : cur.rest = []) : cur.next = cur := by
  unfold next
  split
  · rfl
  · next c rest hrest => simp [h] at hrest

theorem pos_next {c : Char} {rest : List Char} (h : cur.rest = c :: rest) :
    cur.next.pos = cur.pos + 1 := by
  unfold next
  split
  · next hrest => simp [h] at hrest
  · rfl

theorem rest_next (cur : Cursor) : cur.next.rest = cur.rest.drop 1 := by
  unfold next
  split
  · next hrest => simp [hrest]
  · next c rest hrest => simp [hrest]

/-- Moving stops at the end of the text. -/
theorem pos_advance (n : Nat) (cur : Cursor) :
    (advance n cur).pos = cur.pos + min n cur.rest.length := by
  induction n generalizing cur with
  | zero => simp [advance]
  | succ n ih =>
    rw [advance, ih, rest_next]
    cases hrest : cur.rest with
    | nil => simp [next_of_rest_eq_nil hrest]
    | cons c rest =>
      rw [pos_next hrest, List.drop_one, List.tail_cons, List.length_cons]
      omega

@[simp] theorem rest_advance (n : Nat) (cur : Cursor) : (advance n cur).rest = cur.rest.drop n := by
  induction n generalizing cur with
  | zero => rfl
  | succ n ih => rw [advance, ih, rest_next, List.drop_drop, Nat.add_comm]

theorem past_next (cur : Cursor) : cur.next.past = (cur.rest.take 1).reverse ++ cur.past := by
  unfold next
  split
  · next hrest => simp [hrest]
  · next c rest hrest => simp [hrest]

theorem past_advance (n : Nat) (cur : Cursor) :
    (advance n cur).past = (cur.rest.take n).reverse ++ cur.past := by
  induction n generalizing cur with
  | zero => rfl
  | succ n ih =>
    rw [advance, ih, past_next, rest_next]
    cases cur.rest with
    | nil => simp
    | cons c rest => simp

theorem pos_lt_advance {n : Nat} (hn : 0 < n) (hrest : cur.rest ≠ []) :
    cur.pos < (advance n cur).pos := by
  have hlength := List.length_pos_iff.mpr hrest
  rw [pos_advance]
  omega

/-- A cursor stands in the same text, at the same place or behind it. -/
structure Moves (cur cur' : Cursor) : Prop where
  text_eq : cur'.text = cur.text
  pos_le : cur.pos ≤ cur'.pos

theorem Moves.refl (cur : Cursor) : cur.Moves cur := ⟨rfl, Nat.le_refl _⟩

theorem Moves.trans (h : cur.Moves cur') (h' : cur'.Moves cur'') : cur.Moves cur'' :=
  ⟨h'.text_eq.trans h.text_eq, Nat.le_trans h.pos_le h'.pos_le⟩

theorem Moves.length_rest_add (h : cur.Moves cur') :
    cur'.rest.length + cur'.pos = cur.rest.length + cur.pos := by
  have htext := congrArg List.length h.text_eq
  simp only [text, List.length_append, List.length_reverse] at htext
  rw [cur.pos_eq, cur'.pos_eq]
  omega

/-- What was read before stays behind the cursor. -/
theorem Moves.past_suffix (h : cur.Moves cur') : cur.past <:+ cur'.past := by
  have hlength := h.pos_le
  rw [cur.pos_eq, cur'.pos_eq] at hlength
  rw [← List.reverse_prefix]
  have hprefix : cur'.past.reverse <+: cur.text := ⟨cur'.rest, h.text_eq⟩
  exact List.prefix_of_prefix_length_le (List.prefix_append _ _) hprefix (by simpa using hlength)

theorem moves_advance (n : Nat) (cur : Cursor) : cur.Moves (advance n cur) :=
  ⟨text_advance n cur, by rw [pos_advance]; omega⟩

theorem moves_next (cur : Cursor) : cur.Moves cur.next := moves_advance 1 cur

theorem moves_skipBlanks (cur : Cursor) : cur.Moves cur.skipBlanks := moves_advance _ cur

theorem moves_atEnd (cur : Cursor) : cur.Moves cur.atEnd := moves_advance _ cur

theorem rest_ne_nil_of_meets {c : Char} (h : cur.meets c = true) : cur.rest ≠ [] := by
  unfold meets at h
  intro hrest
  simp [hrest] at h

end Cursor

/-! ## Targets -/

variable {cur cur' cur'' : Cursor} {found found' : List Finding} {s s' : State}

/-- The starts of the targets that are literals. -/
def targetStarts (ds : List Directive) : List Int := ds.filterMap fun d => d.target.map (·.span.start)

/-- What was found between two places of a text: the targets start between them, in ascending order. -/
structure Finds (cur cur' : Cursor) (found : List Finding) : Prop where
  moves : cur.Moves cur'
  ascending : (targetStarts (found.filterMap Finding.directive?)).Pairwise (· < ·)
  within : ∀ n ∈ targetStarts (found.filterMap Finding.directive?), (cur.pos : Int) ≤ n ∧ n < cur'.pos

theorem targetStarts_append (ds ds' : List Directive) :
    targetStarts (ds ++ ds') = targetStarts ds ++ targetStarts ds' := List.filterMap_append

theorem Finds.of_moves (h : cur.Moves cur')
    (hfound : targetStarts (found.filterMap Finding.directive?) = []) : Finds cur cur' found where
  moves := h
  ascending := by rw [hfound]; exact .nil
  within := by simp [hfound]

theorem Finds.append (h : Finds cur cur' found) (h' : Finds cur' cur'' found') :
    Finds cur cur'' (found ++ found') where
  moves := h.moves.trans h'.moves
  ascending := by
    rw [List.filterMap_append, targetStarts_append, List.pairwise_append]
    refine ⟨h.ascending, h'.ascending, fun a ha b hb => ?_⟩
    exact Int.lt_of_lt_of_le (h.within a ha).2 (h'.within b hb).1
  within := by
    intro n hn
    have hpos := h.moves.pos_le
    have hpos' := h'.moves.pos_le
    rw [List.filterMap_append, targetStarts_append, List.mem_append] at hn
    rcases hn with hn | hn
    · have := h.within n hn
      omega
    · have := h'.within n hn
      omega

theorem Finds.widen_left (hmoves : cur.Moves cur') (h : Finds cur' cur'' found) :
    Finds cur cur'' found := by
  have hnone : Finds cur cur' [] := .of_moves hmoves rfl
  exact hnone.append h

theorem filterMap_directive?_issues (issues : List Issue) :
    (issues.map Finding.issue).filterMap Finding.directive? = [] := by
  rw [List.filterMap_map, List.filterMap_eq_nil_iff]
  intro _ _
  rfl

/-! ## Directives -/

theorem readAlias_moves (cur : Cursor) : cur.Moves (readAlias cur).behind := by
  have hword := cur.moves_skipBlanks
  unfold readAlias
  simp only
  split
  · have hbehind := hword.trans (cur.skipBlanks.moves_advance 2)
    split
    · exact hbehind
    · exact (hbehind.trans (Cursor.moves_skipBlanks _)).trans (Cursor.moves_advance _ _)
  · exact .refl cur

theorem groupRead_moves {group : Group} (h : Group.read cur = .ok group) :
    cur.Moves group.behind := by
  obtain ⟨⟨close?, issues⟩, -, rfl⟩ := map_eq_ok.mp h
  cases close? with
  | none => exact cur.moves_atEnd
  | some close => exact cur.moves_advance _

theorem readItems_moves {clauses clauses' : Clauses} (h : readItems clauses cur = .ok clauses') :
    cur.Moves clauses'.behind := by
  have hstart := cur.moves_skipBlanks
  unfold readItems at h
  simp only at h
  split at h
  · obtain rfl := Except.ok.inj h
    exact hstart.trans (Cursor.moves_next _)
  · split at h
    · obtain ⟨group, hgroup, rfl⟩ := map_eq_ok.mp h
      exact hstart.trans (groupRead_moves hgroup)
    · obtain rfl := Except.ok.inj h
      exact hstart.trans (Cursor.moves_advance _ _)

theorem readClauses_moves {clauses : Clauses} (h : readClauses cur = .ok clauses) :
    cur.Moves clauses.behind := by
  have halias := readAlias_moves cur
  unfold readClauses at h
  simp only at h
  split at h
  · exact ((halias.trans (Cursor.moves_skipBlanks _)).trans (Cursor.moves_next _)).trans
      (readItems_moves h)
  · obtain rfl := Except.ok.inj h
    exact halias

theorem kindReadClauses_moves {kind : DirectiveKind} {clauses : Clauses}
    (h : kind.readClauses cur = .ok clauses) : cur.Moves clauses.behind := by
  cases kind with
  | importing => exact readClauses_moves h
  | including =>
    obtain rfl := Except.ok.inj h
    exact .refl cur

/-- The target of a directive starts at the quote, and what is read goes on behind it. -/
theorem readDirective_finds {kind : DirectiveKind} {start : Nat}
    (h : readDirective kind start cur = .ok (cur', found)) : Finds cur cur' found := by
  unfold readDirective at h
  have hblanks := cur.moves_skipBlanks
  by_cases hquote : cur.skipBlanks.meets '\x22' = true
  · simp only [hquote, Bool.not_true, Bool.false_eq_true, if_false] at h
    obtain ⟨⟨text?, length⟩, hliteral, h⟩ := bind_eq_ok.mp h
    -- the literal has at least its opening quote, so its start lies before the place behind it
    have hne := Cursor.rest_ne_nil_of_meets hquote
    have hlt := Cursor.pos_lt_advance (readLiteral_length hne hliteral).1 hne
    have hbehind := cur.skipBlanks.moves_advance length
    cases text? with
    | none =>
      obtain ⟨rfl, rfl⟩ := Prod.mk.inj (Except.ok.inj h)
      exact .of_moves (hblanks.trans hbehind) rfl
    | some text =>
      obtain ⟨clauses, hclauses, h⟩ := bind_eq_ok.mp h
      have hmoves := kindReadClauses_moves hclauses
      obtain ⟨rfl, rfl⟩ := Prod.mk.inj (Except.ok.inj h)
      have hle := hblanks.pos_le
      have hle' : (Cursor.advance length cur.skipBlanks).pos ≤ clauses.behind.pos := hmoves.pos_le
      refine ⟨(hblanks.trans hbehind).trans hmoves, ?_, fun n hn => ?_⟩
      · rw [List.filterMap_append, filterMap_directive?_issues, List.nil_append]
        exact List.pairwise_singleton _ _
      · rw [List.filterMap_append, filterMap_directive?_issues, List.nil_append] at hn
        obtain rfl := List.mem_singleton.mp hn
        show (cur.pos : Int) ≤ cur.skipBlanks.pos ∧ (cur.skipBlanks.pos : Int) < clauses.behind.pos
        omega
  · simp only [hquote, Bool.not_false, if_true] at h
    obtain ⟨rfl, rfl⟩ := Prod.mk.inj (Except.ok.inj h)
    exact .of_moves (.refl cur) rfl

/-- A binding is no directive. -/
theorem readBinding_moves {topLevel : Bool} (h : readBinding topLevel cur = .ok (cur', found)) :
    cur.Moves cur' ∧ found.filterMap Finding.directive? = [] := by
  have hstart := cur.moves_skipBlanks
  have hnone : ∀ b : Binding, (if topLevel then [Finding.binding b] else []).filterMap
      Finding.directive? = [] := by
    intro b
    split <;> rfl
  unfold readBinding at h
  simp only at h
  split at h
  · obtain ⟨rfl, rfl⟩ := Prod.mk.inj (Except.ok.inj h)
    exact ⟨hstart, rfl⟩
  · have hname := hstart.trans (cur.skipBlanks.moves_advance (identOf cur.skipBlanks.rest).length)
    split at h
    · obtain ⟨rfl, rfl⟩ := Prod.mk.inj (Except.ok.inj h)
      exact ⟨hname, hnone _⟩
    · obtain ⟨group, hgroup, h⟩ := bind_eq_ok.mp h
      have hmoves := hname.trans (groupRead_moves hgroup)
      split at h
      · obtain ⟨rfl, rfl⟩ := Prod.mk.inj (Except.ok.inj h)
        exact ⟨hmoves, filterMap_directive?_issues _⟩
      · obtain ⟨⟨segments, issues⟩, -, h⟩ := bind_eq_ok.mp h
        obtain ⟨rfl, rfl⟩ := Prod.mk.inj (Except.ok.inj h)
        rw [List.filterMap_append, filterMap_directive?_issues, hnone]
        exact ⟨hmoves, rfl⟩

theorem readBinding_finds {topLevel : Bool} (h : readBinding topLevel cur = .ok (cur', found)) :
    Finds cur cur' found := by
  obtain ⟨hmoves, hnone⟩ := readBinding_moves h
  exact .of_moves hmoves (by rw [hnone]; rfl)

/-! ## Steps -/

/-- What a word leads to is found behind the word. -/
theorem wordStep_finds {frame : Frame} (h : wordStep frame s = .ok (s', found)) :
    Finds s.cursor.behindWord s'.cursor found := by
  rcases (wordStep_cases h).2 with ⟨hcursor, rfl⟩ | ⟨_, hread, -⟩ | hread
  · rw [hcursor]
    exact .of_moves (.refl _) rfl
  · exact readDirective_finds hread
  · exact readBinding_finds hread

theorem StepsTo.finds {c : Char} (h : StepsTo c s s' found) : Finds s.cursor s'.cursor found := by
  cases h with
  | move n => exact .of_moves (s.cursor.moves_advance n) rfl
  | region kind region =>
    exact .of_moves (s.cursor.moves_advance _) (by rw [filterMap_directive?_issues]; rfl)
  | leave => exact .of_moves (.refl s.cursor) rfl
  | close | enter | parens => exact .of_moves (s.cursor.moves_advance 1) rfl
  | word frame outer _ _ _ _ hword =>
    exact .widen_left (s.cursor.moves_advance _) (wordStep_finds hword)

theorem step_finds {c : Char} (h : s.step c = .ok (s', found)) : Finds s.cursor s'.cursor found :=
  (stepsTo_of_step h).finds

/-! ## The whole text -/

/-- What a scan finds, from where it starts to where it ends. The findings are in reverse order. -/
theorem scanFrom_finds {fuel : Nat} {start : Cursor} (hfound : Finds start s.cursor found.reverse)
    (h : scanFrom fuel found s = .ok (s', found')) : Finds start s'.cursor found'.reverse := by
  induction fuel generalizing s found with
  | zero =>
    obtain ⟨rfl, rfl⟩ := Prod.mk.inj (Except.ok.inj h)
    exact hfound
  | succ fuel ih =>
    unfold scanFrom at h
    split at h
    · obtain ⟨rfl, rfl⟩ := Prod.mk.inj (Except.ok.inj h)
      exact hfound
    · split at h
      · cases h
      · next next new hstep =>
        refine ih ?_ h
        rw [List.reverse_append, List.reverse_reverse]
        exact hfound.append (step_finds hstep)

/-- The targets of a text that are literals start at different places, in the order of the text. -/
theorem scan_targets {text : List Char} {outline : Outline} (h : scan text = .ok outline) :
    (targetStarts outline.directives).Pairwise (· < ·) := by
  unfold scan at h
  obtain ⟨⟨s, found⟩, hscan, h⟩ := bind_eq_ok.mp h
  obtain rfl := Except.ok.inj h
  have hstart : Finds (Cursor.ofText text) (Cursor.ofText text) [] := .of_moves (.refl _) rfl
  have hfinds := scanFrom_finds hstart hscan
  show (targetStarts ((found.reverse ++ _).filterMap Finding.directive?)).Pairwise (· < ·)
  rw [List.filterMap_append, filterMap_directive?_issues, List.append_nil]
  exact hfinds.ascending

end TypstLint.Markup
