import Mathlib.Data.List.TakeWhile
import Mathlib.Data.Prod.Lex
import TypstLint.Text.LineIndex
import TypstLint.Text.Span

set_option autoImplicit false

/-! # Places in a text

A span is given by offsets, and an offset by its line and column. Lines count the line feeds before an
offset (`line_eq`), places come in the order of the offsets (`lineCol_lt`), and a place determines its
offset (`lineStartsAt_iff`). -/

namespace TypstLint.Text.Span

/-- A span of at least one character of a text with `n` characters. -/
structure Within (s : Span) (n : Nat) : Prop where
  nonneg : 0 ≤ s.start
  lt : s.start < s.stop
  le : s.stop ≤ n

/-- A span ends before another one starts. -/
def IsBefore (s t : Span) : Prop := s.start < t.start ∧ s.stop ≤ t.start

/-- The part of a text in a span. -/
def slice {α : Type} (text : List α) (s : Span) : List α :=
  (text.drop s.start.toNat).take (s.stop.toNat - s.start.toNat)

variable {s t : Span} {start length stop n m : Nat}

theorem Within.mono (h : s.Within n) (hle : n ≤ m) : s.Within m :=
  ⟨h.nonneg, h.lt, Int.le_trans h.le (Int.ofNat_le.mpr hle)⟩

theorem within_ofLength (hlength : 0 < length) (hle : start + length ≤ n) :
    (ofLength start length).Within n := by
  constructor <;> simp only [ofLength] <;> omega

theorem within_between (hlt : start < stop) (hle : stop ≤ n) : (between start stop).Within n := by
  constructor <;> simp only [between] <;> omega

theorem Within.isBefore (h : s.Within n) (hle : s.stop ≤ t.start) : s.IsBefore t :=
  ⟨Int.lt_of_lt_of_le h.lt hle, hle⟩

theorem slice_ofLength {α : Type} (text : List α) (start length : Nat) :
    (ofLength start length).slice text = (text.drop start).take length := by
  have hlength : ((start : Int) + length).toNat - start = length := by omega
  simp only [slice, ofLength, Int.toNat_natCast, hlength]

end TypstLint.Text.Span

/-! ## Lines and columns

The place of an offset moves on by one column with every character, and to the start of the next line with
every line feed (`lineCol_succ`). So places come in the order of the offsets, the line counts the line feeds
before the offset, and the column counts from the start of the line. -/

namespace TypstLint.Text

variable {cs : List Char} {offset m n : Nat}

/-! ### Starts of lines -/

theorem startsAfterBreaks_eq (offset : Nat) (starts : List Nat) (cs : List Char) :
    startsAfterBreaks offset starts cs = starts.reverse ++ startsAfterBreaks offset [] cs := by
  induction cs generalizing offset starts with
  | nil => simp [startsAfterBreaks]
  | cons c rest ih =>
    simp only [startsAfterBreaks]
    rw [ih]
    split
    · rw [ih (offset + 1) [offset + 1]]
      simp
    · rfl

theorem startsAfterBreaks_cons (offset : Nat) (c : Char) (cs : List Char) :
    startsAfterBreaks offset [] (c :: cs)
      = (if c = '\n' then [offset + 1] else []) ++ startsAfterBreaks (offset + 1) [] cs := by
  rw [startsAfterBreaks, startsAfterBreaks_eq]
  by_cases hc : c = '\n' <;> simp [hc]

theorem startsAfterBreaks_append (offset : Nat) (u v : List Char) :
    startsAfterBreaks offset [] (u ++ v)
      = startsAfterBreaks offset [] u ++ startsAfterBreaks (offset + u.length) [] v := by
  induction u generalizing offset with
  | nil => rfl
  | cons c rest ih =>
    have hlength : offset + (c :: rest).length = offset + 1 + rest.length := by
      rw [List.length_cons]
      omega
    rw [List.cons_append, startsAfterBreaks_cons, ih, startsAfterBreaks_cons, List.append_assoc, hlength]

theorem mem_startsAfterBreaks {start : Nat} (h : start ∈ startsAfterBreaks offset [] cs) :
    offset < start ∧ start ≤ offset + cs.length := by
  induction cs generalizing offset with
  | nil => simp [startsAfterBreaks] at h
  | cons c rest ih =>
    rw [startsAfterBreaks_cons, List.mem_append] at h
    rw [List.length_cons]
    rcases h with h | h
    · have hstart : start = offset + 1 := by
        split at h
        · simpa using h
        · simp at h
      omega
    · have hrest := ih h
      omega

theorem lineStarts_ne_nil (cs : List Char) : lineStarts cs ≠ [] := List.cons_ne_nil _ _

theorem lineStarts_append (u v : List Char) :
    lineStarts (u ++ v) = lineStarts u ++ startsAfterBreaks u.length [] v := by
  rw [lineStarts, startsAfterBreaks_append, Nat.zero_add, lineStarts, List.cons_append]

/-- A line feed starts a line behind it. -/
theorem lineStarts_concat (cs : List Char) (c : Char) :
    lineStarts (cs ++ [c]) = lineStarts cs ++ if c = '\n' then [cs.length + 1] else [] := by
  rw [lineStarts_append]
  by_cases hc : c = '\n' <;> simp [startsAfterBreaks, hc]

theorem le_of_mem_lineStarts {start : Nat} (h : start ∈ lineStarts cs) : start ≤ cs.length := by
  rcases List.mem_cons.mp h with rfl | h
  · exact Nat.zero_le _
  · have hle := (mem_startsAfterBreaks h).2
    omega

/-- The lines that start up to an offset are those of the text before it. -/
theorem takeWhile_lineStarts (hn : n ≤ cs.length) :
    (lineStarts cs).takeWhile (fun start => decide (Int.ofNat start ≤ n)) = lineStarts (cs.take n) := by
  have hlength : (cs.take n).length = n := List.length_take_of_le hn
  have hbefore : ∀ start ∈ lineStarts (cs.take n), decide (Int.ofNat start ≤ n) = true := by
    intro start hstart
    have hle := le_of_mem_lineStarts hstart
    rw [hlength] at hle
    simpa using hle
  have hbehind : (startsAfterBreaks (cs.take n).length [] (cs.drop n)).takeWhile
      (fun start => decide (Int.ofNat start ≤ n)) = [] := by
    rw [hlength, List.takeWhile_eq_nil_iff]
    intro hpos
    have hlt := (mem_startsAfterBreaks (List.getElem_mem hpos)).1
    simpa using hlt
  conv_lhs => rw [← List.take_append_drop n cs, lineStarts_append]
  rw [List.takeWhile_append_of_pos hbefore, hbehind, List.append_nil]

/-! ### Places one after the other -/

/-- The place of an offset is that of the end of the text before it. -/
theorem lineCol_eq (hn : n ≤ cs.length) :
    lineCol cs n = (((lineStarts (cs.take n)).length : Int),
      (n : Int) - (lineStarts (cs.take n)).getLast (lineStarts_ne_nil _) + 1) := by
  have hlast := List.getLast?_eq_some_getLast (lineStarts_ne_nil (cs.take n))
  rw [lineCol, placeOf, takeWhile_lineStarts hn, hlast]
  rfl

theorem lineCol_zero (cs : List Char) : lineCol cs (0 : Nat) = (1, 1) :=
  lineCol_eq (Nat.zero_le cs.length)

theorem lineCol_succ (hn : n < cs.length) :
    lineCol cs (n + 1 : Nat) =
      if cs[n] = '\n' then ((lineCol cs n).1 + 1, 1) else ((lineCol cs n).1, (lineCol cs n).2 + 1) := by
  have htake : (cs.take n).length = n := List.length_take_of_le (Nat.le_of_lt hn)
  rw [lineCol_eq hn, lineCol_eq (Nat.le_of_lt hn)]
  simp only [List.take_succ_eq_append_getElem hn, lineStarts_concat, htake]
  split
  · simp
  · simp
    omega

theorem count_take_succ (hn : n < cs.length) :
    (cs.take (n + 1)).count '\n' = (cs.take n).count '\n' + if cs[n] = '\n' then 1 else 0 := by
  rw [List.take_succ_eq_append_getElem hn, List.count_append, List.count_singleton]
  simp

/-- The line of an offset counts the line feeds before it. -/
theorem line_eq (hn : n ≤ cs.length) : (lineCol cs n).1 = ((cs.take n).count '\n' : Nat) + 1 := by
  induction n with
  | zero =>
    rw [lineCol_zero]
    rfl
  | succ n ih =>
    have hline := ih (Nat.le_of_lt hn)
    rw [lineCol_succ hn, count_take_succ hn]
    split
    · dsimp only
      omega
    · exact hline

theorem one_le_column (hn : n ≤ cs.length) : 1 ≤ (lineCol cs n).2 := by
  induction n with
  | zero => rw [lineCol_zero]
  | succ n ih =>
    have hcolumn := ih (Nat.le_of_lt hn)
    rw [lineCol_succ hn]
    split
    · exact Int.le_refl 1
    · dsimp only
      omega

theorem lineCol_lt_succ (hn : n < cs.length) :
    toLex (lineCol cs n) < toLex (lineCol cs (n + 1 : Nat)) := by
  rw [lineCol_succ hn, Prod.Lex.toLex_lt_toLex]
  split
  · exact .inl (Int.lt_succ _)
  · exact .inr ⟨rfl, Int.lt_succ _⟩

/-- Places come in the order of the offsets. -/
theorem lineCol_lt (hmn : m < n) (hn : n ≤ cs.length) :
    toLex (lineCol cs m) < toLex (lineCol cs n) := by
  induction n, hmn using Nat.le_induction with
  | base => exact lineCol_lt_succ hn
  | succ n hmn ih => exact (ih (Nat.le_of_lt hn)).trans (lineCol_lt_succ hn)

/-- The places of two offsets in one line have columns in the order of the offsets. -/
theorem column_le (hmn : m ≤ n) (hn : n ≤ cs.length) (hline : (lineCol cs m).1 = (lineCol cs n).1) :
    (lineCol cs m).2 ≤ (lineCol cs n).2 := by
  rcases Nat.eq_or_lt_of_le hmn with rfl | hmn
  · exact Int.le_refl _
  · rcases Prod.Lex.toLex_lt_toLex.mp (lineCol_lt hmn hn) with hlt | ⟨-, hlt⟩
    · omega
    · exact Int.le_of_lt hlt

theorem line_le (hmn : m ≤ n) (hn : n ≤ cs.length) : (lineCol cs m).1 ≤ (lineCol cs n).1 := by
  rcases Nat.eq_or_lt_of_le hmn with rfl | hmn
  · exact Int.le_refl _
  · rcases Prod.Lex.toLex_lt_toLex.mp (lineCol_lt hmn hn) with hlt | ⟨heq, -⟩
    · exact Int.le_of_lt hlt
    · exact Int.le_of_eq heq

/-! ### Lines -/

/-- The line with a number starts at an offset: nothing or a line feed stands right before it, and the
number counts the line feeds before it. -/
structure LineStartsAt (cs : List Char) (line : Int) (start : Nat) : Prop where
  le : start ≤ cs.length
  behind : ∀ c ∈ (cs.take start).getLast?, c = '\n'
  line_eq : line = ((cs.take start).count '\n' : Nat) + 1

theorem LineStartsAt.not_lt {line : Int} {start start' : Nat} (h : LineStartsAt cs line start)
    (h' : LineStartsAt cs line start') : ¬ start < start' := by
  intro hlt
  obtain ⟨k, rfl⟩ : ∃ k, start' = k + 1 := ⟨start' - 1, by omega⟩
  have hk : k < cs.length := h'.le
  -- the line feed before the later start is one more than there are before the other
  have hlast : (cs.take (k + 1)).getLast? = some cs[k] := by
    rw [List.take_succ_eq_append_getElem hk, List.getLast?_concat]
  have hcount := count_take_succ hk
  rw [if_pos (h'.behind _ hlast)] at hcount
  have hmono := (List.take_sublist_take_left (l := cs) (Nat.le_of_lt_succ hlt)).count_le '\n'
  have hsame := h.line_eq.symm.trans h'.line_eq
  omega

theorem LineStartsAt.unique {line : Int} {start start' : Nat} (h : LineStartsAt cs line start)
    (h' : LineStartsAt cs line start') : start = start' :=
  Nat.le_antisymm (Nat.le_of_not_lt (h'.not_lt h)) (Nat.le_of_not_lt (h.not_lt h'))

/-- The line of an offset starts so far before it as the column says. -/
theorem exists_lineStartsAt (hn : n ≤ cs.length) :
    ∃ start : Nat, LineStartsAt cs (lineCol cs n).1 start ∧ (start : Int) + (lineCol cs n).2 - 1 = n := by
  induction n with
  | zero =>
    rw [lineCol_zero]
    exact ⟨0, ⟨Nat.zero_le _, by simp, rfl⟩, rfl⟩
  | succ n ih =>
    obtain ⟨start, hstart, hoffset⟩ := ih (Nat.le_of_lt hn)
    by_cases hbreak : cs[n] = '\n'
    · refine ⟨n + 1, ⟨hn, ?_, line_eq hn⟩, ?_⟩
      · rw [List.take_succ_eq_append_getElem hn, List.getLast?_concat, hbreak]
        simp
      · rw [lineCol_succ hn, if_pos hbreak]
        omega
    · rw [lineCol_succ hn, if_neg hbreak]
      refine ⟨start, hstart, ?_⟩
      push_cast
      omega

/-- A place determines its offset. -/
theorem lineStartsAt_iff (hn : n ≤ cs.length) (start : Nat) :
    LineStartsAt cs (lineCol cs n).1 start ↔ (start : Int) + (lineCol cs n).2 - 1 = n := by
  obtain ⟨start', hstart', hoffset⟩ := exists_lineStartsAt hn
  constructor
  · intro hstart
    rw [hstart.unique hstart', hoffset]
  · intro heq
    have hsame : start = start' := by omega
    exact hsame ▸ hstart'

end TypstLint.Text
