import TypstLint.Manifest.Location
import TypstLint.Proofs.Text.Blank
import TypstLint.Proofs.Text.LineIndex

set_option autoImplicit false

/-! # The places of keys

A header has a bracket, and the line of a key has an equals sign, so neither is blank: the span of a
key is one of at least one character of the text (`keySpan_within`). -/

namespace TypstLint.Manifest

open Text (Span)

variable {table key line name cs : List Char} {offset : Nat} {span : Span}

theorem trimmedSpan_within (offset : Nat) {c : Char} (hc : Text.isBlank c = false) (hmem : c ∈ line) :
    (trimmedSpan offset line).Within (offset + line.length) := by
  have hlength := List.length_pos_iff.mpr (List.ne_nil_of_mem (Text.mem_trimWhile hc hmem))
  have hle := Text.length_trimWhile_le Text.isBlank line
  refine Span.within_ofLength hlength ?_
  rw [Text.trim]
  omega

theorem bracket_mem_of_headerName? (h : headerName? line = some name) : '[' ∈ line := by
  unfold headerName? at h
  split at h
  · next rest hrest =>
    have hmem : '[' ∈ line.dropWhile Text.isBlank := hrest ▸ List.mem_cons_self
    exact (List.dropWhile_sublist _).subset hmem
  · cases h

theorem dropQuote_sublist (cs : List Char) : (dropQuote cs).Sublist cs := by
  unfold dropQuote
  split
  · exact .refl _
  · split
    · exact List.sublist_cons_self _ _
    · exact .refl _

theorem equals_mem_of_startsWithKey (h : startsWithKey key cs = true) : '=' ∈ cs := by
  unfold startsWithKey at h
  rw [Bool.and_eq_true, beq_iff_eq] at h
  have hmem := List.mem_of_head? h.2
  have hquote := (List.dropWhile_sublist _).subset hmem
  exact (List.drop_sublist _ _).subset ((dropQuote_sublist _).subset hquote)

theorem equals_mem_of_holdsKey (h : holdsKey key line = true) : '=' ∈ line := by
  induction line with
  | nil => cases h
  | cons c rest ih =>
    unfold holdsKey at h
    simp only [Bool.or_eq_true, Bool.and_eq_true] at h
    rcases h with (h | h) | h
    · exact equals_mem_of_startsWithKey h
    · exact (dropQuote_sublist _).subset (equals_mem_of_startsWithKey h)
    · exact List.mem_cons_of_mem c (ih h.2)

theorem findKey_within {current : Option (List Char)} {lines : List (List Char)}
    (h : findKey table key offset current lines = some span) :
    span.Within (offset + lines.flatten.length) := by
  induction lines generalizing offset current with
  | nil => cases h
  | cons line lines ih =>
    rw [List.flatten_cons, List.length_append, ← Nat.add_assoc]
    unfold findKey at h
    split at h
    · exact ih h
    · split at h
      · next hholds =>
        rw [Bool.and_eq_true] at hholds
        have hline := trimmedSpan_within offset (by decide) (equals_mem_of_holdsKey hholds.2)
        obtain rfl := Option.some.inj h
        exact hline.mono (Nat.le_add_right _ _)
      · exact ih h

theorem findTable_within {lines : List (List Char)} (h : findTable table offset lines = some span) :
    span.Within (offset + lines.flatten.length) := by
  induction lines generalizing offset with
  | nil => cases h
  | cons line lines ih =>
    rw [List.flatten_cons, List.length_append, ← Nat.add_assoc]
    unfold findTable at h
    split at h
    · next hheader =>
      have hbracket := bracket_mem_of_headerName? (beq_iff_eq.mp hheader)
      have hline := trimmedSpan_within offset (by decide) hbracket
      obtain rfl := Option.some.inj h
      exact hline.mono (Nat.le_add_right _ _)
    · exact ih h

/-- The span of a key, or of the header of a table, is one of the text of the manifest. -/
theorem keySpan_within {text : List Char} {table : String} {key : Option String}
    (h : keySpan text table key = some span) : span.Within text.length := by
  -- the lines are the text, so an offset in one of them is one in the text
  have hlines : 0 + (Text.lines text).flatten.length = text.length := by
    rw [Text.flatten_lines, Nat.zero_add]
  rw [← hlines]
  unfold keySpan at h
  split at h
  · exact findTable_within h
  · split at h
    · cases h
    · exact findKey_within h

end TypstLint.Manifest
