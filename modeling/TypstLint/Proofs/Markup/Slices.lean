import Mathlib.Data.List.Infix
import TypstLint.Proofs.Markup.Places

set_option autoImplicit false

/-! # The parts of a text that were read

A literal is read from quote to quote (`readLiteral_closed`), a name and the parts of a group are read as
they stand in the text (`splitSegments_cuts`, `Segment.param?_exact`). -/

namespace TypstLint.Markup

open Text (Span)

variable {n pos : Nat} {cs text : List Char} {cur : Cursor}

/-- What is left of a text is the part behind the place. -/
theorem Cursor.drop_pos (cur : Cursor) : cur.text.drop cur.pos = cur.rest := by
  rw [text, cur.pos_eq, ← List.length_reverse, List.drop_left]

/-- The span of what comes next. -/
theorem Cursor.slice_next (htext : cur.text = text) (n : Nat) :
    (Span.ofLength cur.pos n).slice text = cur.rest.take n := by
  rw [Span.slice_ofLength, ← htext, cur.drop_pos]

/-! ## Literals and names -/

theorem readLiteralFrom_closed {skip length : Nat} {done contents : List Char}
    (h : readLiteralFrom skip length done cs = .ok (some contents, n)) :
    ∃ body, cs.take (n - length) = body ++ ['\x22'] := by
  induction cs generalizing skip length done with
  | nil => cases h
  | cons c rest ih =>
    have hnext : ∀ {skip done}, readLiteralFrom skip (length + 1) done rest = .ok (some contents, n) →
        ∃ body, (c :: rest).take (n - length) = body ++ ['\x22'] := by
      intro skip done h
      obtain ⟨body, hbody⟩ := ih h
      have hlength : n - length = n - (length + 1) + 1 := by
        have hlt : 0 < ((rest.take (n - (length + 1))).length) := by simp [hbody]
        rw [List.length_take] at hlt
        omega
      exact ⟨c :: body, by rw [hlength, List.take_succ_cons, hbody, List.cons_append]⟩
    unfold readLiteralFrom at h
    split at h
    · exact hnext h
    · split at h
      · split at h
        · cases h
        · exact hnext h
      · split at h
        · next hquote =>
          obtain ⟨-, rfl⟩ := Prod.mk.inj (Except.ok.inj h)
          refine ⟨[], ?_⟩
          rw [Nat.add_sub_cancel_left, List.take_succ_cons, List.take_zero, beq_iff_eq.mp hquote,
            List.nil_append]
        · exact hnext h

/-- A literal that is closed starts and ends with a quote. -/
theorem readLiteral_closed {contents : List Char} (hopen : cs.head? = some '\x22')
    (h : readLiteral cs = .ok (some contents, n)) : ∃ body, cs.take n = '\x22' :: body ++ ['\x22'] := by
  obtain ⟨rest, rfl⟩ : ∃ rest, cs = '\x22' :: rest := by
    cases cs with
    | nil => cases hopen
    | cons c rest => exact ⟨rest, by rw [Option.some.inj hopen]⟩
  obtain ⟨body, hbody⟩ := readLiteralFrom_closed h
  rw [List.drop_succ_cons, List.drop_zero] at hbody
  have hlength : n = n - 1 + 1 := by
    have hlt : 0 < (rest.take (n - 1)).length := by simp [hbody]
    rw [List.length_take] at hlt
    omega
  exact ⟨body, by rw [hlength, List.take_succ_cons, hbody, List.cons_append]⟩

theorem isPrefix_identOf (cs : List Char) : identOf cs <+: cs := by
  cases cs with
  | nil => exact List.prefix_rfl
  | cons c rest =>
    simp only [identOf]
    split
    · exact (List.cons_prefix_cons ..).mpr ⟨rfl, List.takeWhile_prefix _⟩
    · exact List.nil_prefix

theorem take_identOf (cs : List Char) : cs.take (identOf cs).length = identOf cs :=
  (List.prefix_iff_eq_take.mp (isPrefix_identOf cs)).symm

/-! ## The parts of a group -/

/-- A part of a group as it stands in a text. -/
def Segment.IsIn (text : List Char) (segment : Segment) : Prop := segment.text <+: text.drop segment.start

/-- A part of a group ends before another one starts. -/
def Segment.IsBefore (segment later : Segment) : Prop := segment.EndsBy later.start

/-- The parts up to a position stand in a text, one behind the other. -/
structure Segments.Cuts (text : List Char) (pos : Nat) (segments : Segments) : Prop where
  upTo : segments.UpTo pos
  current : segments.text.reverse ++ text.drop pos = text.drop segments.start
  before : ∀ segment ∈ segments.before, segment.IsIn text ∧ segment.EndsBy segments.start
  ordered : segments.before.Pairwise fun later segment => segment.IsBefore later

namespace Segments.Cuts

variable {segments : Segments} {c : Char} {rest : List Char}

theorem start (text : List Char) (pos : Nat) : Cuts text pos { start := pos } where
  upTo := ⟨rfl, List.forall_mem_nil _⟩
  current := rfl
  before := List.forall_mem_nil _
  ordered := .nil

theorem push (h : segments.Cuts text pos) (hrest : text.drop pos = c :: rest) :
    (segments.push c).Cuts text (pos + 1) where
  upTo := h.upTo.push c
  current := by
    show (c :: segments.text).reverse ++ text.drop (pos + 1) = text.drop segments.start
    rw [← h.current, hrest, ← List.drop_drop, hrest]
    simp
  before := h.before
  ordered := h.ordered

/-- All characters up to the end of the group belong to the current part. -/
theorem toList {more : List Char} (h : segments.Cuts text pos) (hmore : more <+: text.drop pos) :
    (∀ segment ∈ ({ segments with text := more.reverse ++ segments.text } : Segments).toList,
        segment.IsIn text)
      ∧ ({ segments with text := more.reverse ++ segments.text } : Segments).toList.Pairwise
        Segment.IsBefore := by
  refine ⟨fun segment hmem => ?_, List.pairwise_reverse.mpr (List.pairwise_cons.mpr
    ⟨fun segment hmem => (h.before segment hmem).2, h.ordered⟩)⟩
  rcases List.mem_cons.mp (List.mem_reverse.mp hmem) with rfl | hmem
  · show (more.reverse ++ segments.text).reverse <+: text.drop segments.start
    rw [← h.current, List.reverse_append, List.reverse_reverse]
    exact (List.prefix_append_right_inj _).mpr hmore
  · exact (h.before segment hmem).1

theorem split (h : segments.Cuts text pos) :
    (segments.split (pos + 1)).Cuts text (pos + 1) where
  upTo := h.upTo.split
  current := rfl
  before segment hmem := by
    refine ⟨?_, h.upTo.split.before segment hmem⟩
    have hin := (h.toList List.nil_prefix).1
    exact hin segment (List.mem_reverse.mpr hmem)
  ordered := List.pairwise_cons.mpr ⟨fun segment hmem => (h.before segment hmem).2, h.ordered⟩

end Segments.Cuts

/-- The parts of a group stand in the text, one behind the other. -/
theorem splitSegments_cuts {left skip : Nat} {depth : Int} {segments : Segments} {parts : List Segment}
    {issues : List Issue} (hsegments : segments.Cuts text pos) (hcs : text.drop pos = cs)
    (h : splitSegments left pos skip depth segments cs = .ok (parts, issues)) :
    (∀ segment ∈ parts, segment.IsIn text) ∧ parts.Pairwise Segment.IsBefore := by
  have hlast := hsegments.toList List.nil_prefix
  induction cs generalizing left pos skip depth segments with
  | nil =>
    unfold splitSegments at h
    obtain ⟨rfl, -⟩ := Prod.mk.inj (Except.ok.inj h)
    exact hlast
  | cons c rest ih =>
    have hrest : text.drop (pos + 1) = rest := by rw [← List.drop_drop, hcs, List.drop_succ_cons,
      List.drop_zero]
    have hnext : ∀ {left skip depth segments}, Segments.Cuts text (pos + 1) segments →
        splitSegments left (pos + 1) skip depth segments rest = .ok (parts, issues) →
        (∀ segment ∈ parts, segment.IsIn text) ∧ parts.Pairwise Segment.IsBefore :=
      fun hsegments h => ih hsegments hrest h (hsegments.toList List.nil_prefix)
    cases left with
    | zero =>
      obtain ⟨rfl, -⟩ := Prod.mk.inj (Except.ok.inj h)
      exact hlast
    | succ left =>
      cases skip with
      | succ skip => exact hnext (hsegments.push hcs) h
      | zero =>
        unfold splitSegments at h
        simp only at h
        split at h
        · split at h
          · cases h
          · split at h
            · -- a literal that is not closed belongs to the current part as far as the group goes
              obtain ⟨rfl, -⟩ := Prod.mk.inj (Except.ok.inj h)
              have hmore : c :: rest.take left <+: text.drop pos := by
                rw [hcs]
                exact (List.cons_prefix_cons ..).mpr ⟨rfl, List.take_prefix _ _⟩
              have hparts := hsegments.toList hmore
              rwa [List.reverse_cons, List.append_assoc, List.singleton_append] at hparts
            · exact hnext (hsegments.push hcs) h
        · split at h
          · exact hnext hsegments.split h
          · exact hnext (hsegments.push hcs) h

/-- The parameter of a part is a name in it. -/
theorem Segment.param?_exact {segment : Segment} {param : Param} (hin : segment.IsIn text)
    (h : segment.param? = some param) :
    param.span.slice text = param.name.toList ∧ (segment.start : Int) ≤ param.span.start
      ∧ param.span.stop ≤ segment.start + segment.text.length := by
  have hbody := List.dropWhile_suffix isCodeBlank (l := segment.text)
  have hname := isPrefix_identOf (segment.text.dropWhile isCodeBlank)
  have hlength := hname.length_le
  have hle := hbody.length_le
  have hexact : (Span.ofLength (segment.start + (segment.text.length
          - (segment.text.dropWhile isCodeBlank).length))
        (identOf (segment.text.dropWhile isCodeBlank)).length).slice text
      = identOf (segment.text.dropWhile isCodeBlank) := by
    have hprefix := hin.drop (segment.text.length - (segment.text.dropWhile isCodeBlank).length)
    rw [← List.suffix_iff_eq_drop.mp hbody, List.drop_drop] at hprefix
    rw [Span.slice_ofLength]
    exact (List.prefix_iff_eq_take.mp (hname.trans hprefix)).symm
  have hparam : param.name = String.ofList (identOf (segment.text.dropWhile isCodeBlank))
      ∧ param.span = Span.ofLength (segment.start + (segment.text.length
          - (segment.text.dropWhile isCodeBlank).length))
        (identOf (segment.text.dropWhile isCodeBlank)).length := by
    unfold param? at h
    simp only at h
    split at h
    · cases h
    · split at h
      · obtain rfl := Option.some.inj h
        exact ⟨rfl, rfl⟩
      · split at h
        · obtain rfl := Option.some.inj h
          exact ⟨rfl, rfl⟩
        · cases h
  rw [hparam.1, hparam.2, hexact, String.toList_ofList]
  refine ⟨rfl, ?_, ?_⟩
  · simp only [Span.ofLength]
    omega
  · simp only [Span.ofLength]
    omega

end TypstLint.Markup
