import TypstLint.Proofs.Text.Blank
import TypstLint.Text.Lines

set_option autoImplicit false

/-! # Texts made of lines

A text of lines that end with line feeds is cut into these lines again (`lines_textOf`), where no other
line end stands in a line: `lines` would cut there as well. -/

namespace TypstLint.Text

/-- A line and what ends it. -/
structure EndedLine where
  body : List Char
  ending : List Char

/-- The characters of a line, with those that end it. -/
def EndedLine.raw (line : EndedLine) : List Char := line.body ++ line.ending

/-- The text of some lines. -/
def textOf (ls : List EndedLine) : List Char := ls.flatMap EndedLine.raw

/-- Lines with one of the given ends each, which only the last one may lack. -/
inductive EndedBy (endings : List (List Char)) : List EndedLine → Prop
  | nil : EndedBy endings []
  | last {body : List Char} (hbody : ∀ c ∈ body, isLineEnd c = false) (hne : body ≠ []) :
      EndedBy endings [⟨body, []⟩]
  | cons {line : EndedLine} {ls : List EndedLine} (hbody : ∀ c ∈ line.body, isLineEnd c = false)
      (hending : line.ending ∈ endings) (h : EndedBy endings ls) : EndedBy endings (line :: ls)

/-- Whether lines have one of the given ends each. -/
def areEnded (endings : List (List Char)) : List EndedLine → Bool
  | [] => true
  | line :: ls =>
    line.body.all (!isLineEnd ·)
      && (endings.contains line.ending || (ls.isEmpty && line.ending.isEmpty && !line.body.isEmpty))
      && areEnded endings ls

theorem areEnded_iff {endings : List (List Char)} {ls : List EndedLine} :
    areEnded endings ls = true ↔ EndedBy endings ls := by
  induction ls with
  | nil => exact iff_of_true rfl .nil
  | cons line ls ih =>
    obtain ⟨body, ending⟩ := line
    simp only [areEnded, Bool.and_eq_true, Bool.or_eq_true, ih, List.all_eq_true, Bool.not_eq_true',
      List.contains_iff_mem, List.isEmpty_iff, List.isEmpty_eq_false_iff]
    constructor
    · rintro ⟨⟨hbody, hending | ⟨⟨rfl, rfl⟩, hne⟩⟩, h⟩
      · exact .cons hbody hending h
      · exact .last hbody hne
    · intro h
      cases h with
      | last hbody hne => exact ⟨⟨hbody, .inr ⟨⟨rfl, rfl⟩, hne⟩⟩, .nil⟩
      | cons hbody hending h => exact ⟨⟨hbody, .inl hending⟩, h⟩

instance (endings : List (List Char)) (ls : List EndedLine) : Decidable (EndedBy endings ls) :=
  decidable_of_iff _ areEnded_iff

/-- A line feed, alone or behind a carriage return. -/
def lineFeeds : List (List Char) := [['\n'], ['\r', '\n']]

variable {endings : List (List Char)} {line : EndedLine} {ls ls' : List EndedLine} {body cs rest : List Char}

@[simp] theorem textOf_nil : textOf [] = [] := by simp [textOf]

@[simp] theorem textOf_cons (line : EndedLine) (ls : List EndedLine) :
    textOf (line :: ls) = line.raw ++ textOf ls := rfl

@[simp] theorem textOf_append (ls ls' : List EndedLine) : textOf (ls ++ ls') = textOf ls ++ textOf ls' :=
  List.flatMap_append

theorem EndedBy.mono {endings' : List (List Char)} (h : EndedBy endings ls) (hsub : endings ⊆ endings') :
    EndedBy endings' ls := by
  induction h with
  | nil => exact .nil
  | last hbody hne => exact .last hbody hne
  | cons hbody hending _ ih => exact .cons hbody (hsub hending) ih

/-- No line end stands in a line. -/
theorem EndedBy.forall_body (h : EndedBy endings ls) :
    ∀ line ∈ ls, ∀ c ∈ line.body, isLineEnd c = false := by
  induction h with
  | nil => simp
  | last hbody hne => simpa using hbody
  | cons hbody hending _ ih => exact List.forall_mem_cons.mpr ⟨hbody, ih⟩

theorem EndedBy.ending (h : EndedBy endings ls) : ∀ line ∈ ls, line.ending ∈ [] :: endings := by
  induction h with
  | nil => simp
  | last hbody hne => simp
  | cons hbody hending _ ih => exact List.forall_mem_cons.mpr ⟨List.mem_cons_of_mem _ hending, ih⟩

theorem EndedBy.raw_ne_nil (h : EndedBy endings ls) (hends : [] ∉ endings) :
    ∀ line ∈ ls, line.raw ≠ [] := by
  induction h with
  | nil => simp
  | last hbody hne => simpa [EndedLine.raw] using hne
  | @cons line ls hbody hending _ ih =>
    refine List.forall_mem_cons.mpr ⟨fun hnil => hends ?_, ih⟩
    rwa [← (List.append_eq_nil_iff.mp hnil).2]

/-! ## Cutting -/

/-- Characters that do not end a line belong to the line behind them. -/
theorem lines_append (hbody : ∀ c ∈ body, isLineEnd c = false) {first : List Char} {more : List (List Char)}
    (h : lines rest = first :: more) : lines (body ++ rest) = (body ++ first) :: more := by
  induction body with
  | nil => exact h
  | cons c body ih =>
    obtain ⟨hc, hbody⟩ := List.forall_mem_cons.mp hbody
    have hreturn : (c == '\r') = false := by
      refine beq_false_of_ne ?_
      rintro rfl
      cases hc
    have hlines : lines (c :: body ++ rest) = consLine c (lines (body ++ rest)) := rfl
    rw [hlines, ih hbody]
    simp [consLine, hreturn, hc]

/-- A line that does not end is one line. -/
theorem lines_of_forall (hbody : ∀ c ∈ body, isLineEnd c = false) (hne : body ≠ []) :
    lines body = [body] := by
  rcases List.eq_nil_or_concat body with rfl | ⟨init, c, rfl⟩
  · exact absurd rfl hne
  · have hinit : ∀ b ∈ init, isLineEnd b = false := fun b hb => hbody b (by simp [hb])
    have hlast : lines [c] = [[c]] := rfl
    simpa using lines_append hinit hlast

theorem lines_lineFeed (rest : List Char) : lines ('\n' :: rest) = ['\n'] :: lines rest := by
  have hlines : lines ('\n' :: rest) = consLine '\n' (lines rest) := rfl
  rw [hlines]
  cases lines rest with
  | nil => rfl
  | cons line more => rfl

/-- A line feed ends a line, also behind a carriage return. -/
theorem lines_ended (hbody : ∀ c ∈ body, isLineEnd c = false) {ending : List Char}
    (hending : ending ∈ lineFeeds) (rest : List Char) : lines (body ++ ending ++ rest) = (body ++ ending) :: lines rest := by
  have hrest : lines (ending ++ rest) = ending :: lines rest := by
    simp only [lineFeeds, List.mem_cons, List.not_mem_nil, or_false] at hending
    rcases hending with rfl | rfl
    · exact lines_lineFeed rest
    · have hlines : lines ('\r' :: '\n' :: rest) = consLine '\r' (lines ('\n' :: rest)) := rfl
      rw [List.cons_append, List.cons_append, List.nil_append, hlines, lines_lineFeed]
      rfl
  rw [List.append_assoc]
  exact lines_append hbody hrest

/-- The lines that make a text are the lines that it is cut into. -/
theorem lines_textOf (h : EndedBy lineFeeds ls) : lines (textOf ls) = ls.map EndedLine.raw := by
  induction h with
  | nil => rfl
  | @last body hbody hne => simpa [EndedLine.raw] using lines_of_forall hbody hne
  | @cons line ls hbody hending _ ih =>
    rw [textOf_cons, EndedLine.raw, lines_ended hbody hending, ih]
    rfl

theorem isLineEnd_of_break {c : Char} (hc : (c == '\r' || c == '\n') = true) : isLineEnd c = true := by
  simp only [Bool.or_eq_true, beq_iff_eq] at hc
  rcases hc with rfl | rfl
  · rfl
  · rfl

/-- Where no line ends, no line break is taken off. -/
theorem dropEndWhile_break (hbody : ∀ c ∈ body, isLineEnd c = false) :
    dropEndWhile (fun c => c == '\r' || c == '\n') body = body := by
  refine dropEndWhile_eq_self fun c hc => Bool.eq_false_iff.mpr fun hbreak => ?_
  have hmem := hbody c (List.mem_of_getLast? hc)
  simp [isLineEnd_of_break hbreak] at hmem

/-- A line without the line feed behind it. -/
theorem EndedBy.dropEndWhile_raw (h : EndedBy lineFeeds ls) :
    ∀ line ∈ ls, dropEndWhile (fun c => c == '\r' || c == '\n') line.raw = line.body := by
  intro line hline
  have hending : ∀ c ∈ line.ending, (c == '\r' || c == '\n') = true := by
    have hending := h.ending line hline
    simp only [lineFeeds, List.mem_cons, List.not_mem_nil, or_false] at hending
    rcases hending with hending | hending | hending <;> simp [hending]
  rw [EndedLine.raw, dropEndWhile_append_of_forall hending, dropEndWhile_break (h.forall_body line hline)]

/-- Two ways to cut lines at a place are one if the text up to there is the same. -/
theorem eq_of_textOf_eq {front front' : List EndedLine} (h : front ++ ls = front' ++ ls')
    (hraw : ∀ line ∈ front ++ ls, line.raw ≠ []) (htext : (textOf front).length = (textOf front').length) :
    front = front' ∧ ls = ls' := by
  induction front generalizing front' with
  | nil =>
    cases front' with
    | nil => exact ⟨rfl, h⟩
    | cons line front' =>
      have hpos := List.length_pos_iff.mpr (hraw line (by simp [h]))
      simp only [textOf_nil, textOf_cons, List.length_nil, List.length_append] at htext
      omega
  | cons line front ih =>
    cases front' with
    | nil =>
      have hpos := List.length_pos_iff.mpr (hraw line (by simp))
      simp only [textOf_nil, textOf_cons, List.length_nil, List.length_append] at htext
      omega
    | cons line' front' =>
      rw [List.cons_append, List.cons_append] at h
      obtain ⟨rfl, htail⟩ := List.cons_eq_cons.mp h
      simp only [textOf_cons, List.length_append, Nat.add_left_cancel_iff] at htext
      obtain ⟨rfl, hls⟩ := ih htail (fun other hother => hraw other (List.mem_cons_of_mem _ hother)) htext
      exact ⟨rfl, hls⟩

end TypstLint.Text
