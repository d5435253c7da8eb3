import TypstLint.Markup.Scan
import TypstLint.Proofs.Markup.Region

set_option autoImplicit false

/-! # What a step of a scan can do

`StepsTo` lists what a step does: it moves on, reads a region, leaves or enters a frame, opens or closes
a parenthesis, or reads a word. What a scan keeps is proved from these cases (`stepsTo_of_step`). -/

namespace TypstLint.Markup

variable {c : Char} {s s' : State} {found : List Finding}

/-- A frame that is entered at the character `c` at a position. -/
def Frame.OpensAt (c : Char) (pos : Nat) : Frame → Prop
  | .content opener | .math opener => opener = pos
  | .code opener parens => opener = pos ∧ parens = [] ∧ c = '\x7b'
  | .embed opener _ _ parens => opener = pos ∧ parens = [] ∧ c = '#'

/-- What a step does at the character `c`. -/
inductive StepsTo (c : Char) (s : State) : State → List Finding → Prop where
  | move (n : Nat) : 0 < n → StepsTo c s (s.advance n) []
  | region (kind : RegionKind) (region : Region) : RegionKind.at? s.cursor.rest = some kind →
      Region.read kind s.cursor.rest = .ok region →
      StepsTo c s (s.advance region.length) ((region.issues s.cursor.pos).map .issue)
  | leave : s.frames ≠ [] → StepsTo c s s.pop []
  | close : s.frames ≠ [] → StepsTo c s (s.pop.advance 1) []
  | enter (frame : Frame) : frame.OpensAt c s.cursor.pos → StepsTo c s ((s.push frame).advance 1) []
  | parens (frame : Frame) (outer : List Frame) (parens : List Nat) : s.frames = frame :: outer →
      (∀ p ∈ parens, p = s.cursor.pos ∨ p ∈ frame.parens) →
      StepsTo c s ((s.replace (frame.withParens parens)).advance 1) []
  | word (frame : Frame) (outer : List Frame) (s' : State) (found : List Finding) :
      s.frames = frame :: outer → isIdentStart c = true → wordStep frame s = .ok (s', found) →
      StepsTo c s s' found

theorem StepsTo.of_plain {next : State} (hstep : StepsTo c s next []) (h : plain next = .ok (s', found)) :
    StepsTo c s s' found := by
  obtain ⟨rfl, rfl⟩ := Prod.mk.inj (Except.ok.inj h)
  exact hstep

theorem StepsTo.of_readRegion {kind : RegionKind} (hkind : RegionKind.at? s.cursor.rest = some kind)
    (h : readRegion kind s = .ok (s', found)) : StepsTo c s s' found := by
  obtain ⟨region, hread, h⟩ := map_eq_ok.mp h
  obtain ⟨rfl, rfl⟩ := Prod.mk.inj h
  exact .region kind region hkind hread

theorem StepsTo.of_enterCode (hc : c = '#') : StepsTo c s (enterCode s) [] := by
  unfold enterCode
  simp only
  split
  · exact .move 1 Nat.one_pos
  · exact .enter _ ⟨rfl, rfl, hc⟩

theorem stepsTo_of_textStep {inMath inContent : Bool} (hmath : inMath = true → s.frames ≠ [])
    (hcontent : inContent = true → s.frames ≠ [])
    (h : textStep inMath inContent c s = .ok (s', found)) : StepsTo c s s' found := by
  unfold textStep at h
  split at h
  · next kind hkind => exact .of_readRegion (Option.filter_eq_some_iff.mp hkind).1 h
  · split at h
    · exact .of_plain (.move 2 Nat.two_pos) h
    · split at h
      · cases inMath with
        | true => exact .of_plain (.close (hmath rfl)) h
        | false => exact .of_plain (.enter (.math s.cursor.pos) rfl) h
      · split at h
        · next hclose =>
          rw [Bool.and_eq_true] at hclose
          exact .of_plain (.close (hcontent hclose.2)) h
        · split at h
          · next hhash => exact .of_plain (.of_enterCode (beq_iff_eq.mp hhash)) h
          · exact .of_plain (.move 1 Nat.one_pos) h

theorem stepsTo_of_codeStep {frame : Frame} {outer : List Frame} (hframes : s.frames = frame :: outer)
    (h : codeStep frame c s = .ok (s', found)) : StepsTo c s s' found := by
  have hne : s.frames ≠ [] := by simp [hframes]
  have hmove : StepsTo c s (s.advance 1) [] := .move 1 Nat.one_pos
  have hleave : StepsTo c s s.pop [] := .leave hne
  have hclose : StepsTo c s (s.pop.advance 1) [] := .close hne
  unfold codeStep at h
  simp only at h
  split at h
  · next kind hkind => exact .of_readRegion hkind h
  · split at h
    · refine .of_plain (.parens frame outer _ hframes fun p hp => ?_) h
      exact List.mem_cons.mp hp
    · split at h
      · exact .of_plain (.enter (.content s.cursor.pos) rfl) h
      · split at h
        · next hbrace =>
          exact .of_plain (.enter (.code s.cursor.pos []) ⟨rfl, rfl, beq_iff_eq.mp hbrace⟩) h
        · split at h
          · split at h
            · next hparens =>
              refine .of_plain (.parens frame outer _ hframes fun p hp => .inr ?_) h
              rw [hparens]
              exact List.mem_cons_of_mem _ hp
            · split at h
              · exact .of_plain hleave h
              · exact .of_plain hmove h
          · split at h
            · split at h
              · exact .of_plain hleave h
              · exact .of_plain hclose h
            · split at h
              · exact .of_plain hleave h
              · split at h
                · exact .of_plain hclose h
                · split at h
                  · next hident => exact .word frame outer s' found hframes hident h
                  · split at h
                    · unfold expressionStep at h
                      split at h
                      · exact .of_plain hmove h
                      · exact .of_plain hleave h
                    · exact .of_plain hmove h

/-- A step does one of these things. -/
theorem stepsTo_of_step (h : s.step c = .ok (s', found)) : StepsTo c s s' found := by
  unfold State.step at h
  split at h
  · exact stepsTo_of_textStep (by simp) (by simp) h
  · next hframes => exact stepsTo_of_textStep (by simp) (by simp [hframes]) h
  · next hframes => exact stepsTo_of_textStep (by simp [hframes]) (by simp) h
  · next hframes => exact stepsTo_of_codeStep hframes h

/-! ## Words -/

/-- The place behind the word at a cursor. -/
abbrev Cursor.behindWord (cur : Cursor) : Cursor := Cursor.advance (identOf cur.rest).length cur

/-- A word is passed over, or it starts a directive or a binding. Only the word of a directive starts one,
where a statement can start. -/
theorem wordStep_cases {frame : Frame} (h : wordStep frame s = .ok (s', found)) :
    s'.frames = s.frames
      ∧ (s'.cursor = s.cursor.behindWord ∧ found = []
        ∨ (∃ kind, readDirective kind (statementPos frame s.cursor) s.cursor.behindWord
              = .ok (s'.cursor, found)
            ∧ startsStatement frame s.cursor = true ∧ identOf s.cursor.rest = kind.word.toList)
        ∨ readBinding (isTopLevel frame) s.cursor.behindWord = .ok (s'.cursor, found)) := by
  unfold wordStep at h
  obtain ⟨⟨cursor, found'⟩, hread, h⟩ := map_eq_ok.mp h
  obtain ⟨rfl, rfl⟩ := Prod.mk.inj h
  refine ⟨rfl, ?_⟩
  split at hread
  · obtain ⟨rfl, rfl⟩ := Prod.mk.inj (Except.ok.inj hread)
    exact .inl ⟨rfl, rfl⟩
  · next hstarts =>
    split at hread
    · next kind hkind =>
      unfold directiveKind? at hkind
      exact .inr (.inl ⟨kind, hread, by simpa using hstarts, (beq_iff_eq.mp (List.find?_some hkind :)).symm⟩)
    · split at hread
      · exact .inr (.inr hread)
      · obtain ⟨rfl, rfl⟩ := Prod.mk.inj (Except.ok.inj hread)
        exact .inl ⟨rfl, rfl⟩

theorem identOf_ne_nil {rest : List Char} (hc : isIdentStart c = true) : identOf (c :: rest) ≠ [] := by
  simp [identOf, hc]

/-! ## The parts of a state -/

@[simp] theorem cursor_advance (n : Nat) (s : State) :
    (s.advance n).cursor = Cursor.advance n s.cursor := rfl

@[simp] theorem cursor_pop (s : State) : s.pop.cursor = s.cursor := rfl

@[simp] theorem cursor_push (frame : Frame) (s : State) : (s.push frame).cursor = s.cursor := rfl

@[simp] theorem cursor_replace (frame : Frame) (s : State) : (s.replace frame).cursor = s.cursor := rfl

@[simp] theorem frames_advance (n : Nat) (s : State) : (s.advance n).frames = s.frames := rfl

@[simp] theorem frames_pop (s : State) : s.pop.frames = s.frames.tail := rfl

@[simp] theorem frames_push (frame : Frame) (s : State) : (s.push frame).frames = frame :: s.frames := by
  simp [State.push]

@[simp] theorem frames_replace (frame : Frame) (s : State) :
    (s.replace frame).frames = frame :: s.frames.tail := rfl

end TypstLint.Markup
