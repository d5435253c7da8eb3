import TypstLint.Manifest.Location
import TypstLint.Proofs.Text.Lines
import TypstLint.Toml.Reader

set_option autoImplicit false

/-! # The tables of keys

In a manifest with one entry a line, a key belongs to the table whose header is the nearest one before it.
The search for a key knows the headers of tables, but not those of arrays of tables, so it takes the keys
behind the latter for keys of the table before them (`keySpan_finds`). -/

namespace TypstLint.Manifest

open Text (Span EndedLine EndedBy textOf)

variable {name key indent blanks tail ending line cs : List Char} {c : Char}

/-! ## Entries -/

/-- What a line says. -/
inductive Entry where
  | blank
  | comment
  | header (name : List Char)
  | arrayHeader (name : List Char)
  | pair (key : List Char)
  deriving DecidableEq

/-- The table that an entry is the header of. -/
def Entry.table? : Entry → Option (List Char)
  | .header name => some name
  | _ => none

theorem Entry.table?_eq_some_iff {entry : Entry} : entry.table? = some name ↔ entry = .header name := by
  cases entry <;> simp [table?]

/-- The name of a table: the characters of bare keys, and points. -/
def IsTableName (name : List Char) : Prop := name ≠ [] ∧ ∀ c ∈ name, isTableChar c = true

/-- A key without quotes. -/
def IsBareKey (key : List Char) : Prop := key ≠ [] ∧ ∀ c ∈ key, Toml.isBareChar c = true

instance (name : List Char) : Decidable (IsTableName name) :=
  decidable_of_iff (name ≠ [] ∧ name.all isTableChar = true) (by simp [IsTableName])

instance (key : List Char) : Decidable (IsBareKey key) :=
  decidable_of_iff (key ≠ [] ∧ key.all Toml.isBareChar = true) (by simp [IsBareKey])

/-- Blanks, or none. -/
def AreBlanks (blanks : List Char) : Prop := ∀ c ∈ blanks, Text.isBlank c = true

/-- What may stand behind a header: blanks, and a comment behind them. -/
inductive IsTail : List Char → Prop
  | blanks {blanks : List Char} (h : AreBlanks blanks) : IsTail blanks
  | comment {blanks text : List Char} (h : AreBlanks blanks) : IsTail (blanks ++ '#' :: text)

/-- How an entry is written in a line. -/
inductive Entry.Written : Entry → List Char → Prop
  | blank {blanks : List Char} (h : AreBlanks blanks) : Written .blank blanks
  | comment {indent text : List Char} (hindent : AreBlanks indent) : Written .comment (indent ++ '#' :: text)
  | header {indent front name behind tail : List Char} (hindent : AreBlanks indent) (hfront : AreBlanks front)
      (hname : IsTableName name) (hbehind : AreBlanks behind) (htail : IsTail tail) :
      Written (.header name) (indent ++ '[' :: (front ++ (name ++ (behind ++ ']' :: tail))))
  | arrayHeader {indent front name behind tail : List Char} (hindent : AreBlanks indent)
      (hfront : AreBlanks front) (hname : IsTableName name) (hbehind : AreBlanks behind) (htail : IsTail tail) :
      Written (.arrayHeader name) (indent ++ '[' :: '[' :: (front ++ (name ++ (behind ++ ']' :: ']' :: tail))))
  | pair {indent key blanks value : List Char} (hindent : AreBlanks indent) (hkey : IsBareKey key)
      (hblanks : AreBlanks blanks) : Written (.pair key) (indent ++ (key ++ (blanks ++ '=' :: value)))

/-! ## Characters of names -/

theorem isBlank_of_isTableChar (h : isTableChar c = true) : Text.isBlank c = false := by
  have hranges : (((decide ('A' ≤ c ∧ c ≤ 'Z') || decide ('a' ≤ c) && decide (c ≤ 'z'))
      || decide ('0' ≤ c) && decide (c ≤ '9')) || c == '_' || c == '.' || c == '-') = true := h
  have hbounds : 45 ≤ c.toNat ∧ c.toNat ≤ 122 := by
    simp only [Bool.or_eq_true, Bool.and_eq_true, decide_eq_true_eq, beq_iff_eq, Char.le_def,
      UInt32.le_iff_toNat_le, Char.reduceVal, UInt32.reduceToNat] at hranges
    rcases hranges with ((h | rfl) | rfl) | rfl
    · have htoNat : c.toNat = c.val.toNat := rfl
      omega
    · decide
    · decide
    · decide
  simp [Text.isBlank, Text.inRanges, Text.blankRanges]
  omega

theorem isTableChar_of_isBlank (h : Text.isBlank c = true) : isTableChar c = false := by
  refine Bool.eq_false_iff.mpr fun hname => ?_
  simp [isBlank_of_isTableChar hname] at h

theorem isTableChar_of_isBareChar (h : Toml.isBareChar c = true) : isTableChar c = true := by
  simp only [Toml.isBareChar, isTableChar, Bool.or_eq_true] at h ⊢
  tauto

theorem isBlank_of_isBareChar (h : Toml.isBareChar c = true) : Text.isBlank c = false :=
  isBlank_of_isTableChar (isTableChar_of_isBareChar h)

theorem AreBlanks.append (h : AreBlanks blanks) (hending : AreBlanks ending) : AreBlanks (blanks ++ ending) :=
  List.forall_mem_append.mpr ⟨h, hending⟩

theorem head?_blanks_append {rest : List Char} (h : AreBlanks blanks) :
    ∀ d ∈ (blanks ++ c :: rest).head?, Text.isBlank d = true ∨ d = c := by
  intro d hd
  cases blanks with
  | nil => exact .inr (by simpa using hd.symm)
  | cons b blanks =>
    obtain rfl : b = d := by simpa using hd
    exact .inl (h b List.mem_cons_self)

theorem dropWhile_blanks {rest : List Char} (h : AreBlanks blanks) (hc : Text.isBlank c = false) :
    (blanks ++ c :: rest).dropWhile Text.isBlank = c :: rest :=
  Text.dropWhile_append_of_forall h (by simpa using hc)

/-! ## Headers -/

/-- What may end a line. -/
def IsEnding (ending : List Char) : Prop := ending ∈ [] :: Text.lineFeeds

theorem IsEnding.areBlanks (h : IsEnding ending) : AreBlanks ending := by
  simp only [IsEnding, Text.lineFeeds, List.mem_cons, List.not_mem_nil, or_false] at h
  rcases h with rfl | rfl | rfl <;> simp [AreBlanks] <;> decide

theorem IsEnding.length_dropWhile_le (h : IsEnding ending) (hcs : ∀ c ∈ cs, Text.isLineEnd c = false) :
    ((cs ++ ending).dropWhile (· != '\n')).length ≤ 1 := by
  have hnotFeed : ∀ c ∈ cs, (c != '\n') = true := by
    intro c hc
    refine bne_iff_ne.mpr ?_
    rintro rfl
    cases hcs _ hc
  rw [List.dropWhile_append_of_pos hnotFeed]
  simp only [IsEnding, Text.lineFeeds, List.mem_cons, List.not_mem_nil, or_false] at h
  rcases h with rfl | rfl | rfl <;> decide

theorem IsTail.isLineTail (h : IsTail tail) (hbody : ∀ c ∈ tail, Text.isLineEnd c = false)
    (hending : IsEnding ending) : isLineTail (tail ++ ending) = true := by
  cases h with
  | blanks h =>
    have hblanks := h.append hending.areBlanks
    rw [Manifest.isLineTail, List.dropWhile_eq_nil_iff.mpr hblanks]
  | @comment blanks text h =>
    have htext : ∀ c ∈ text, Text.isLineEnd c = false := fun c hc => hbody c (by simp [hc])
    have hlength := hending.length_dropWhile_le htext
    rw [List.append_assoc, List.cons_append, Manifest.isLineTail, dropWhile_blanks h rfl]
    simpa using hlength

theorem headerName?_indent {rest : List Char} (h : AreBlanks indent) (hc : Text.isBlank c = false) :
    headerName? (indent ++ c :: rest) = headerName? (c :: rest) := by
  rw [headerName?, dropWhile_blanks h hc, headerName?, List.dropWhile_cons_of_neg (by simp [hc])]

/-- A header of a table is read, whatever blanks and comments it has. -/
theorem headerName?_header {front behind rest : List Char} (hfront : AreBlanks front) (hname : IsTableName name)
    (hbehind : AreBlanks behind) (hrest : isLineTail rest = true) :
    headerName? ('[' :: (front ++ (name ++ (behind ++ ']' :: rest)))) = some name := by
  obtain ⟨c, cs, rfl⟩ := List.exists_cons_of_ne_nil hname.1
  have hc := isBlank_of_isTableChar (hname.2 c List.mem_cons_self)
  have hend : ∀ d ∈ (behind ++ ']' :: rest).head?, isTableChar d = false := by
    intro d hd
    rcases head?_blanks_append hbehind d hd with hd | rfl
    · exact isTableChar_of_isBlank hd
    · rfl
  have htake := Text.takeWhile_append_of_forall hname.2 hend
  have hfirst : ('[' :: (front ++ (c :: cs ++ (behind ++ ']' :: rest)))).dropWhile Text.isBlank
      = '[' :: (front ++ (c :: cs ++ (behind ++ ']' :: rest))) := rfl
  have hopened : (front ++ (c :: cs ++ (behind ++ ']' :: rest))).dropWhile Text.isBlank
      = c :: cs ++ (behind ++ ']' :: rest) := dropWhile_blanks hfront hc
  have hclosed : (behind ++ ']' :: rest).dropWhile Text.isBlank = ']' :: rest := dropWhile_blanks hbehind rfl
  simp only [headerName?, hfirst, hopened, htake, List.drop_left, hclosed, hrest]
  rfl

/-- The header of an array of tables is not. -/
theorem headerName?_arrayHeader (rest : List Char) : headerName? ('[' :: '[' :: rest) = none := rfl

theorem headerName?_of_ne {rest : List Char} (hblank : Text.isBlank c = false) (hc : c ≠ '[') :
    headerName? (c :: rest) = none := by
  rw [headerName?, List.dropWhile_cons_of_neg (by simp [hblank])]
  split
  · next heq => exact absurd (List.cons_eq_cons.mp heq).1 hc
  · rfl

/-- A line starts a table if it is the header of one. -/
theorem Entry.Written.headerName?_eq {entry : Entry} (h : entry.Written line)
    (hbody : ∀ c ∈ line, Text.isLineEnd c = false) (hending : IsEnding ending) :
    headerName? (line ++ ending) = entry.table? := by
  cases h with
  | blank h =>
    have hblanks := h.append hending.areBlanks
    rw [headerName?, List.dropWhile_eq_nil_iff.mpr hblanks]
    rfl
  | comment hindent =>
    rw [List.append_assoc, List.cons_append, headerName?_indent hindent rfl, headerName?_of_ne rfl (by decide)]
    rfl
  | @header indent front name behind tail hindent hfront hname hbehind htail =>
    have hrest := htail.isLineTail (fun c hc => hbody c (by simp [hc])) hending
    simp only [List.append_assoc, List.cons_append]
    rw [headerName?_indent hindent rfl, headerName?_header hfront hname hbehind hrest]
    rfl
  | arrayHeader hindent hfront hname hbehind htail =>
    simp only [List.append_assoc, List.cons_append]
    rw [headerName?_indent hindent rfl, headerName?_arrayHeader]
    rfl
  | @pair indent key blanks value hindent hkey hblanks =>
    obtain ⟨c, cs, rfl⟩ := List.exists_cons_of_ne_nil hkey.1
    have hc := hkey.2 c List.mem_cons_self
    have hbracket : c ≠ '[' := by
      rintro rfl
      cases hc
    simp only [List.append_assoc, List.cons_append]
    rw [headerName?_indent hindent (isBlank_of_isBareChar hc),
      headerName?_of_ne (isBlank_of_isBareChar hc) hbracket]
    rfl

/-! ## Keys -/

theorem dropQuote_of_isBlank_or_isBareChar {rest : List Char}
    (hc : Text.isBlank c = true ∨ Toml.isBareChar c = true ∨ c = '=') : dropQuote (c :: rest) = c :: rest := by
  have hquote : c ≠ '\x22' ∧ c ≠ '\'' := by
    constructor <;> rintro rfl <;> revert hc <;> decide
  simp [dropQuote, hquote]

theorem startsWithKey_eq_false {rest : List Char} (hkey : IsBareKey key) (hc : Toml.isBareChar c = false) :
    startsWithKey key (c :: rest) = false := by
  obtain ⟨d, key, rfl⟩ := List.exists_cons_of_ne_nil hkey.1
  have hne : d ≠ c := by
    rintro rfl
    simp [hkey.2 d List.mem_cons_self] at hc
  simp [startsWithKey, hne]

theorem startsWithKey_pair {rest : List Char} (hblanks : AreBlanks blanks) :
    startsWithKey key (key ++ (blanks ++ '=' :: rest)) = true := by
  have hquote : dropQuote (blanks ++ '=' :: rest) = blanks ++ '=' :: rest := by
    cases blanks with
    | nil => exact dropQuote_of_isBlank_or_isBareChar (.inr (.inr rfl))
    | cons b blanks => exact dropQuote_of_isBlank_or_isBareChar (.inl (hblanks b List.mem_cons_self))
  have hkeyStart : key.isPrefixOf (key ++ (blanks ++ '=' :: rest)) = true := by
    rw [List.isPrefixOf_iff_prefix]
    exact List.prefix_append key _
  rw [startsWithKey, hkeyStart, List.drop_left, hquote, dropWhile_blanks hblanks rfl]
  rfl

/-- A pair starts with its key, and with no other bare key. -/
theorem startsWithKey_iff {key' rest : List Char} (hkey : IsBareKey key) (hkey' : IsBareKey key')
    (hblanks : AreBlanks blanks) :
    startsWithKey key (key' ++ (blanks ++ '=' :: rest)) = true ↔ key' = key := by
  constructor
  · intro h
    rw [startsWithKey, Bool.and_eq_true, beq_iff_eq, List.isPrefixOf_iff_prefix] at h
    obtain ⟨hkeyStart, hhead⟩ := h
    have hkeys := List.prefix_or_prefix_of_prefix hkeyStart (List.prefix_append key' _)
    rcases hkeys with ⟨extra, rfl⟩ | ⟨extra, rfl⟩
    · -- a character of the longer key would stand where the equals sign is looked for
      cases extra with
      | nil => rw [List.append_nil]
      | cons c extra =>
        have hc := hkey'.2 c (by simp)
        rw [List.append_assoc, List.drop_left, List.cons_append,
          dropQuote_of_isBlank_or_isBareChar (.inr (.inl hc)),
          List.dropWhile_cons_of_neg (by simp [isBlank_of_isBareChar hc])] at hhead
        obtain rfl : c = '=' := by simpa using hhead
        cases hc
    · cases extra with
      | nil => rw [List.append_nil]
      | cons c extra =>
        have hc := hkey.2 c (by simp)
        have hextra : c :: extra <+: blanks ++ '=' :: rest := (List.prefix_append_right_inj key').mp hkeyStart
        have hmem : c ∈ (blanks ++ '=' :: rest).head? := by
          obtain ⟨more, hmore⟩ := hextra
          simp [← hmore]
        rcases head?_blanks_append hblanks c hmem with hblank | rfl
        · simp [isBlank_of_isBareChar hc] at hblank
        · cases hc
  · rintro rfl
    exact startsWithKey_pair hblanks

theorem holdsKey_indent {rest : List Char} (hkey : IsBareKey key) (h : AreBlanks indent) :
    holdsKey key (indent ++ rest) = holdsKey key rest := by
  induction indent with
  | nil => rfl
  | cons c indent ih =>
    obtain ⟨hc, hindent⟩ := List.forall_mem_cons.mp h
    have hbare : Toml.isBareChar c = false := by
      refine Bool.eq_false_iff.mpr fun hbare => ?_
      simp [isBlank_of_isBareChar hbare] at hc
    rw [List.cons_append, holdsKey, dropQuote_of_isBlank_or_isBareChar (.inl hc),
      startsWithKey_eq_false hkey hbare, hc, ih hindent]
    rfl

/-- What starts with neither a blank nor a quote holds a key if it starts with it. -/
theorem holdsKey_cons {rest : List Char} (hblank : Text.isBlank c = false)
    (hquote : dropQuote (c :: rest) = c :: rest) : holdsKey key (c :: rest) = startsWithKey key (c :: rest) := by
  rw [holdsKey, hquote, hblank, Bool.or_self, Bool.false_and, Bool.or_false]

/-- No key stands where a line starts with a mark. -/
theorem holdsKey_mark {rest : List Char} (hkey : IsBareKey key) (hindent : AreBlanks indent)
    (hc : c = '#' ∨ c = '[') : holdsKey key (indent ++ c :: rest) = false := by
  rw [holdsKey_indent hkey hindent]
  rcases hc with rfl | rfl
  · rw [holdsKey_cons rfl rfl, startsWithKey_eq_false hkey rfl]
  · rw [holdsKey_cons rfl rfl, startsWithKey_eq_false hkey rfl]

/-- A line holds a bare key if it is a pair with this key. -/
theorem Entry.Written.holdsKey_iff {entry : Entry} (h : entry.Written line) (hending : IsEnding ending)
    (hkey : IsBareKey key) : holdsKey key (line ++ ending) = true ↔ entry = .pair key := by
  cases h with
  | blank h =>
    have hblanks := h.append hending.areBlanks
    rw [← List.append_nil (line ++ ending), holdsKey_indent hkey hblanks]
    simp [holdsKey]
  | comment hindent =>
    rw [List.append_assoc, List.cons_append, holdsKey_mark hkey hindent (.inl rfl)]
    simp
  | header hindent hfront hname hbehind htail =>
    rw [List.append_assoc, List.cons_append, holdsKey_mark hkey hindent (.inr rfl)]
    simp
  | arrayHeader hindent hfront hname hbehind htail =>
    rw [List.append_assoc, List.cons_append, holdsKey_mark hkey hindent (.inr rfl)]
    simp
  | @pair indent key' blanks value hindent hkey' hblanks =>
    simp only [List.append_assoc, List.cons_append]
    rw [holdsKey_indent hkey hindent, Entry.pair.injEq, ← startsWithKey_iff hkey hkey' hblanks]
    obtain ⟨c, cs, rfl⟩ := List.exists_cons_of_ne_nil hkey'.1
    have hc := hkey'.2 c List.mem_cons_self
    rw [List.cons_append, holdsKey_cons (isBlank_of_isBareChar hc)
      (dropQuote_of_isBlank_or_isBareChar (.inr (.inl hc)))]

/-! ## Rows -/

/-- A line of a manifest, with what it says. -/
structure Row where
  line : EndedLine
  entry : Entry
  written : entry.Written line.body

/-- The text of some rows. -/
def textOfRows (rows : List Row) : List Char := textOf (rows.map Row.line)

/-- The span of a row behind others, without the blanks around it. -/
def Row.span (before : List Row) (row : Row) : Span :=
  .ofLength ((textOfRows before).length + (row.line.body.takeWhile Text.isBlank).length)
    (Text.trim row.line.body).length

/-- Whether a row of a text is behind some others. -/
def IsRowOf (rows before : List Row) (row : Row) : Prop := ∃ behind, rows = before ++ row :: behind

/-- The first row with a property, which may depend on the rows before it. -/
structure IsFirst (p : List Row → Row → Prop) (rows before : List Row) (row : Row) : Prop where
  isRow : IsRowOf rows before row
  holds : p before row
  first : ∀ before' row', IsRowOf before before' row' → ¬ p before' row'

/-- What is found is the span of the first row with a property; if there is none, nothing is found. -/
def Finds (p : List Row → Row → Prop) (rows : List Row) : Option Span → Prop
  | some span => ∃ before row, IsFirst p rows before row ∧ row.span before = span
  | none => ∀ before row, IsRowOf rows before row → ¬ p before row

/-- The header of a table. -/
def Entry.isTableHeader (entry : Entry) : Bool := entry.table?.isSome

/-- A header, of a table or of an array of tables. -/
def Entry.isHeader : Entry → Bool
  | .header _ | .arrayHeader _ => true
  | _ => false

/-- The last header of some rows. -/
def nearest (isHeader : Entry → Bool) (before : List Row) : Option Entry :=
  ((before.map Row.entry).filter isHeader).getLast?

/-- Whether a row is a pair with a key, and the nearest header before it is that of a table. -/
def IsKeyOf (isHeader : Entry → Bool) (table key : List Char) (before : List Row) (row : Row) : Prop :=
  row.entry = .pair key ∧ nearest isHeader before = some (.header table)

/-- Whether a row is the header of a table. -/
def IsHeaderOf (table : List Char) (row : Row) : Prop := row.entry = .header table

variable {p : List Row → Row → Prop} {rows before before' : List Row} {row row' : Row}

theorem isRowOf_concat : IsRowOf (rows ++ [row]) before' row' ↔
    IsRowOf rows before' row' ∨ before' = rows ∧ row' = row := by
  constructor
  · rintro ⟨behind, heq⟩
    rcases List.eq_nil_or_concat behind with rfl | ⟨init, last, rfl⟩
    · obtain ⟨rfl, hrow⟩ := List.append_inj' heq rfl
      exact .inr ⟨rfl, (List.singleton_inj.mp hrow).symm⟩
    · rw [List.concat_eq_append, ← List.cons_append, ← List.append_assoc] at heq
      exact .inl ⟨init, (List.append_inj' heq rfl).1⟩
  · rintro (⟨behind, rfl⟩ | ⟨rfl, rfl⟩)
    · exact ⟨behind ++ [row], by simp⟩
    · exact ⟨[], rfl⟩

/-- Of two rows, one is before the other one, or they are the same. -/
theorem IsRowOf.trichotomy (h : IsRowOf rows before row) (h' : IsRowOf rows before' row') :
    IsRowOf before' before row ∨ (before = before' ∧ row = row') ∨ IsRowOf before before' row' := by
  obtain ⟨behind, rfl⟩ := h
  obtain ⟨behind', heq⟩ := h'
  rcases List.append_eq_append_iff.mp heq with ⟨between, rfl, htail⟩ | ⟨between, rfl, htail⟩
  · cases between with
    | nil =>
      obtain ⟨rfl, -⟩ := List.cons_eq_cons.mp htail
      exact .inr (.inl ⟨(List.append_nil before).symm, rfl⟩)
    | cons _ between =>
      obtain ⟨rfl, -⟩ := List.cons_eq_cons.mp htail
      exact .inl ⟨between, rfl⟩
  · cases between with
    | nil =>
      obtain ⟨rfl, -⟩ := List.cons_eq_cons.mp htail
      exact .inr (.inl ⟨List.append_nil before', rfl⟩)
    | cons _ between =>
      obtain ⟨rfl, -⟩ := List.cons_eq_cons.mp htail
      exact .inr (.inr ⟨between, rfl⟩)

theorem IsFirst.unique (h : IsFirst p rows before row) (h' : IsFirst p rows before' row') :
    before = before' ∧ row = row' := by
  rcases h.isRow.trichotomy h'.isRow with hlt | heq | hlt
  · exact absurd h.holds (h'.first before row hlt)
  · exact heq
  · exact absurd h'.holds (h.first before' row' hlt)

theorem Finds.eq_of_isFirst {span? : Option Span} (h : Finds p rows span?) (hfirst : IsFirst p rows before row) :
    span? = some (row.span before) := by
  cases span? with
  | none => exact absurd hfirst.holds (h before row hfirst.isRow)
  | some span =>
    obtain ⟨before', row', hfirst', rfl⟩ := h
    obtain ⟨rfl, rfl⟩ := hfirst.unique hfirst'
    rfl

/-- A search that goes from row to row finds the first one. -/
theorem finds_of_search (search : List Row → List Row → Option Span)
    (hnil : ∀ before, search before [] = none)
    (hfound : ∀ before, ∀ row ∈ rows, ∀ rest, p before row →
      search before (row :: rest) = some (row.span before))
    (hnext : ∀ before, ∀ row ∈ rows, ∀ rest, ¬ p before row →
      search before (row :: rest) = search (before ++ [row]) rest) : Finds p rows (search [] rows) := by
  -- no row that was passed has the property
  have hsearch : ∀ rest before, rows = before ++ rest →
      (∀ before' row', IsRowOf before before' row' → ¬ p before' row') →
        Finds p rows (search before rest) := by
    intro rest
    induction rest with
    | nil =>
      intro before hrows hpassed
      rw [hnil, hrows, List.append_nil]
      exact hpassed
    | cons row rest ih =>
      intro before hrows hpassed
      have hmem : row ∈ rows := by simp [hrows]
      by_cases hrow : p before row
      · rw [hfound before row hmem rest hrow]
        exact ⟨before, row, ⟨⟨rest, hrows⟩, hrow, hpassed⟩, rfl⟩
      · rw [hnext before row hmem rest hrow]
        refine ih (before ++ [row]) (by simp [hrows]) fun before' row' hrow' => ?_
        rcases isRowOf_concat.mp hrow' with hrow' | ⟨rfl, rfl⟩
        · exact hpassed before' row' hrow'
        · exact hrow
  exact hsearch rows [] rfl fun before row hrow => by simp [IsRowOf] at hrow

/-! ## Searches -/

theorem Entry.Written.exists_mark {entry : Entry} (h : entry.Written line) (hne : entry ≠ .blank) :
    ∃ c ∈ line, Text.isBlank c = false := by
  cases h with
  | blank h => exact absurd rfl hne
  | comment hindent => exact ⟨'#', by simp, rfl⟩
  | header hindent hfront hname hbehind htail => exact ⟨'[', by simp, rfl⟩
  | arrayHeader hindent hfront hname hbehind htail => exact ⟨'[', by simp, rfl⟩
  | pair hindent hkey hblanks => exact ⟨'=', by simp, rfl⟩

/-- The span of a row starts before those of later rows. -/
theorem Row.start_span_lt (row' : Row) (h : IsRowOf before' before row) (hne : row.entry ≠ .blank) :
    (row.span before).start < (row'.span before').start := by
  obtain ⟨between, rfl⟩ := h
  obtain ⟨c, hmem, hc⟩ := row.written.exists_mark hne
  have hindent := Text.length_takeWhile_lt_of_mem hmem hc
  simp only [span, Span.ofLength, textOfRows, List.map_append, List.map_cons, Text.textOf_append, Text.textOf_cons,
    EndedLine.raw, List.length_append]
  omega

theorem Row.span_inj (h : IsRowOf rows before row) (h' : IsRowOf rows before' row') (hne : row.entry ≠ .blank)
    (hne' : row'.entry ≠ .blank) (hspan : row.span before = row'.span before') :
    before = before' ∧ row = row' := by
  rcases h.trichotomy h' with hlt | heq | hlt
  · have hstart := Row.start_span_lt row' hlt hne
    rw [hspan] at hstart
    exact absurd hstart (Int.lt_irrefl _)
  · exact heq
  · have hstart := Row.start_span_lt row hlt hne'
    rw [hspan] at hstart
    exact absurd hstart (Int.lt_irrefl _)

/-- What ends a line does not matter to its span. -/
theorem Row.trimmedSpan_raw (before : List Row) (hending : IsEnding row.line.ending) (hne : row.entry ≠ .blank) :
    trimmedSpan (textOfRows before).length row.line.raw = row.span before := by
  obtain ⟨c, hmem, hc⟩ := row.written.exists_mark hne
  have htrim : Text.trim row.line.raw = Text.trim row.line.body :=
    Text.trimWhile_append_of_forall_right hending.areBlanks
  have hindent : row.line.raw.takeWhile Text.isBlank = row.line.body.takeWhile Text.isBlank :=
    Text.takeWhile_append_of_mem hmem hc
  rw [trimmedSpan, htrim, hindent]
  rfl

theorem nearest_concat (isHeader : Entry → Bool) (before : List Row) (row : Row) :
    nearest isHeader (before ++ [row])
      = if isHeader row.entry then some row.entry else nearest isHeader before := by
  simp only [nearest, List.map_append, List.filter_append, List.map_cons, List.map_nil]
  split
  · next h => simp [h]
  · next h => simp [h]

theorem length_textOfRows_concat (before : List Row) (row : Row) :
    (textOfRows (before ++ [row])).length = (textOfRows before).length + row.line.raw.length := by
  simp [textOfRows]

/-- The nearest header is the nearest header of a table, if it is one. -/
theorem nearest_isTableHeader (h : nearest Entry.isHeader before = some (.header name)) :
    nearest Entry.isTableHeader before = some (.header name) := by
  have hheaders : ∀ entry : Entry, (entry.isTableHeader && entry.isHeader) = entry.isTableHeader := by
    intro entry
    cases entry <;> rfl
  obtain ⟨init, hinit⟩ := List.getLast?_eq_some_iff.mp h
  have hfilter : (before.map Row.entry).filter Entry.isTableHeader
      = ((before.map Row.entry).filter Entry.isHeader).filter Entry.isTableHeader := by
    simp only [List.filter_filter, hheaders]
  rw [nearest, hfilter, hinit, List.filter_append]
  exact List.getLast?_concat

/-- The table that the search takes keys for, behind some rows. -/
def currentTable (before : List Row) : Option (List Char) := (nearest Entry.isTableHeader before).bind Entry.table?

theorem currentTable_concat (before : List Row) (row : Row) :
    currentTable (before ++ [row]) = row.entry.table?.or (currentTable before) := by
  rw [currentTable, nearest_concat, Entry.isTableHeader]
  cases htable : row.entry.table? with
  | none => rfl
  | some name => exact htable

theorem currentTable_eq_some_iff :
    currentTable before = some name ↔ nearest Entry.isTableHeader before = some (.header name) := by
  simp [currentTable, Option.bind_eq_some_iff, Entry.table?_eq_some_iff]

section

variable (hrows : EndedBy Text.lineFeeds (rows.map Row.line))
include hrows

theorem isEnding_of_mem (hmem : row ∈ rows) : IsEnding row.line.ending :=
  hrows.ending row.line (List.mem_map_of_mem hmem)

theorem headerName?_raw (hmem : row ∈ rows) : headerName? row.line.raw = row.entry.table? :=
  row.written.headerName?_eq (hrows.forall_body row.line (List.mem_map_of_mem hmem)) (isEnding_of_mem hrows hmem)

/-- The search for a table finds its first header. -/
theorem findTable_finds (table : List Char) :
    Finds (fun _ => IsHeaderOf table) rows (findTable table 0 (rows.map fun row => row.line.raw)) := by
  refine finds_of_search
    (fun before rest => findTable table (textOfRows before).length (rest.map fun row => row.line.raw))
    (fun before => rfl) ?_ ?_
  · intro before row hmem rest hheader
    rw [IsHeaderOf] at hheader
    have hspan := Row.trimmedSpan_raw before (isEnding_of_mem hrows hmem) (by simp [hheader])
    rw [List.map_cons, findTable, headerName?_raw hrows hmem, hheader, ← hspan]
    exact if_pos (beq_self_eq_true _)
  · intro before row hmem rest hheader
    have htable : ¬ (row.entry.table? == some table) = true := by
      rwa [beq_iff_eq, Entry.table?_eq_some_iff]
    rw [List.map_cons, findTable, headerName?_raw hrows hmem, if_neg htable, length_textOfRows_concat]

/-- The search for a bare key finds the first pair with it whose nearest header of a table is the right one. -/
theorem findKey_finds {table key : List Char} (hkey : IsBareKey key) :
    Finds (IsKeyOf Entry.isTableHeader table key) rows
      (findKey table key 0 none (rows.map fun row => row.line.raw)) := by
  refine finds_of_search
    (fun before rest =>
      findKey table key (textOfRows before).length (currentTable before) (rest.map fun row => row.line.raw))
    (fun before => rfl) ?_ ?_
  · rintro before row hmem rest ⟨hpair, htable⟩
    have hname := headerName?_raw hrows hmem
    rw [hpair] at hname
    have hholds := (row.written.holdsKey_iff (isEnding_of_mem hrows hmem) hkey).mpr hpair
    have hspan := Row.trimmedSpan_raw before (isEnding_of_mem hrows hmem) (by simp [hpair])
    have hhere : (some table == some table && holdsKey key row.line.raw) = true := by
      rw [beq_self_eq_true, Bool.true_and]
      exact hholds
    rw [List.map_cons, findKey, hname, ← hspan, currentTable_eq_some_iff.mpr htable]
    exact if_pos hhere
  · intro before row hmem rest hnot
    rw [List.map_cons, findKey, headerName?_raw hrows hmem, currentTable_concat, length_textOfRows_concat]
    cases htable : row.entry.table? with
    | some name => rfl
    | none =>
      have hcurrent : ¬ (currentTable before == some table && holdsKey key row.line.raw) = true := by
        rw [Bool.and_eq_true, beq_iff_eq, currentTable_eq_some_iff]
        rintro ⟨hnearest, hholds⟩
        exact hnot ⟨(row.written.holdsKey_iff (isEnding_of_mem hrows hmem) hkey).mp hholds, hnearest⟩
      exact if_neg hcurrent

end

/-! ## Keys and headers -/

theorem IsKeyOf.isTableHeader (h : IsKeyOf Entry.isHeader name key before row) :
    IsKeyOf Entry.isTableHeader name key before row :=
  ⟨h.1, nearest_isTableHeader h.2⟩

theorem IsKeyOf.entry_ne_blank {isHeader : Entry → Bool} (h : IsKeyOf isHeader name key before row) :
    row.entry ≠ .blank := by
  simp [h.1]

/-- Where the nearest header of a table was looked for, the nearest header was found exactly if no header of
an array stands between it and the pair. -/
theorem Finds.isHeader_iff {span? : Option Span} (h : Finds (IsKeyOf Entry.isTableHeader name key) rows span?) :
    Finds (IsKeyOf Entry.isHeader name key) rows span? ↔ ∀ before row,
      IsFirst (IsKeyOf Entry.isTableHeader name key) rows before row →
        nearest Entry.isHeader before = some (.header name) := by
  constructor
  · intro hfinds before row hfirst
    obtain rfl := h.eq_of_isFirst hfirst
    obtain ⟨before', row', hfirst', hspan⟩ := hfinds
    obtain ⟨rfl, rfl⟩ := Row.span_inj hfirst'.isRow hfirst.isRow hfirst'.holds.entry_ne_blank
      hfirst.holds.entry_ne_blank hspan
    exact hfirst'.holds.2
  · intro hnearest
    cases span? with
    | none => exact fun before row hrow hkey => h before row hrow hkey.isTableHeader
    | some span =>
      obtain ⟨before, row, hfirst, hspan⟩ := h
      refine ⟨before, row, ⟨hfirst.isRow, ⟨hfirst.holds.1, hnearest before row hfirst⟩, ?_⟩, hspan⟩
      exact fun before' row' hrow' hkey => hfirst.first before' row' hrow' hkey.isTableHeader

/-- The header of a table is found. Of a key, the first pair is found whose nearest header of a table is the
right one; it is the pair that is asked for exactly if no header of an array of tables is nearer. -/
theorem keySpan_finds (hrows : EndedBy Text.lineFeeds (rows.map Row.line)) (table key : String)
    (hkey : IsBareKey key.toList) :
    Finds (fun _ => IsHeaderOf table.toList) rows (keySpan (textOfRows rows) table none)
      ∧ Finds (IsKeyOf Entry.isTableHeader table.toList key.toList) rows
        (keySpan (textOfRows rows) table (some key))
      ∧ (Finds (IsKeyOf Entry.isHeader table.toList key.toList) rows
          (keySpan (textOfRows rows) table (some key)) ↔
        ∀ before row, IsFirst (IsKeyOf Entry.isTableHeader table.toList key.toList) rows before row →
          nearest Entry.isHeader before = some (.header table.toList)) := by
  have hlines : Text.lines (textOfRows rows) = rows.map fun row => row.line.raw := by
    rw [textOfRows, Text.lines_textOf hrows, List.map_map]
    rfl
  have hne : key.isEmpty = false := by
    refine Bool.eq_false_iff.mpr fun hempty => hkey.1 ?_
    rw [String.isEmpty_iff.mp hempty]
    rfl
  have hfinds : Finds (IsKeyOf Entry.isTableHeader table.toList key.toList) rows
      (keySpan (textOfRows rows) table (some key)) := by
    simp only [keySpan, hne, hlines]
    exact findKey_finds hrows hkey
  refine ⟨?_, hfinds, hfinds.isHeader_iff⟩
  rw [keySpan, hlines]
  exact findTable_finds hrows table.toList

/-- The header of a table. -/
def headerRow (name : List Char) (h : IsTableName name) : Row where
  line := ⟨'[' :: (name ++ [']']), ['\n']⟩
  entry := .header name
  written := @Entry.Written.header [] [] name [] [] nofun nofun h nofun (.blanks nofun)

/-- The header of an array of tables. -/
def arrayHeaderRow (name : List Char) (h : IsTableName name) : Row where
  line := ⟨'[' :: '[' :: (name ++ [']', ']']), ['\n']⟩
  entry := .arrayHeader name
  written := @Entry.Written.arrayHeader [] [] name [] [] nofun nofun h nofun (.blanks nofun)

/-- A pair, indented by two spaces. -/
def pairRow (key value : List Char) (h : IsBareKey key) : Row where
  line := ⟨' ' :: ' ' :: (key ++ '=' :: value), ['\r', '\n']⟩
  entry := .pair key
  written := @Entry.Written.pair [' ', ' '] key [] value (by simp [AreBlanks]; rfl) h nofun

/-- Two tables with the same key. -/
def twoTables : List Row :=
  [headerRow "package".toList (by decide),
    pairRow "name".toList "1".toList (by decide),
    headerRow "tool.a".toList (by decide),
    pairRow "names".toList "2".toList (by decide),
    pairRow "name".toList "[ 3 ]".toList (by decide)]

/-- The key of the second table is found there, and not the longer key before it. -/
theorem keySpan_finds_second : EndedBy Text.lineFeeds (twoTables.map Row.line) ∧ IsBareKey "name".toList
    ∧ keySpan (textOfRows twoTables) "tool.a" (some "name") = some (.between 42 52)
    ∧ Finds (IsKeyOf Entry.isTableHeader "tool.a".toList "name".toList) twoTables
      (keySpan (textOfRows twoTables) "tool.a" (some "name")) := by
  have hrows : EndedBy Text.lineFeeds (twoTables.map Row.line) := by decide
  have hkey : IsBareKey "name".toList := by decide
  exact ⟨hrows, hkey, by decide +kernel, (keySpan_finds hrows "tool.a" "name" hkey).2.1⟩

/-- A table, and an array of tables with the key that is looked for. -/
def arrayBehindTable : List Row :=
  [headerRow "package".toList (by decide), arrayHeaderRow "tool".toList (by decide),
    pairRow "version".toList "1".toList (by decide)]

/-- The key of the array is taken for one of the table, which has no such key. -/
theorem keySpan_finds_array : EndedBy Text.lineFeeds (arrayBehindTable.map Row.line)
    ∧ keySpan (textOfRows arrayBehindTable) "package" (some "version") = some (.between 21 30)
    ∧ Finds (IsKeyOf Entry.isHeader "package".toList "version".toList) arrayBehindTable none
    ∧ ¬ Finds (IsKeyOf Entry.isHeader "package".toList "version".toList) arrayBehindTable
      (keySpan (textOfRows arrayBehindTable) "package" (some "version")) := by
  have hnone : Finds (IsKeyOf Entry.isHeader "package".toList "version".toList) arrayBehindTable none := by
    rintro before row ⟨behind, heq⟩ ⟨hpair, hnearest⟩
    rcases before with _ | ⟨first, _ | ⟨second, _ | ⟨third, before⟩⟩⟩
    · obtain ⟨rfl, -⟩ := List.cons_eq_cons.mp heq
      cases hpair
    · obtain ⟨-, rfl, -⟩ : _ ∧ _ ∧ _ := by simpa [arrayBehindTable] using heq
      cases hpair
    · obtain ⟨rfl, rfl, -⟩ : _ ∧ _ ∧ _ := by simpa [arrayBehindTable] using heq
      cases hnearest
    · simp [arrayBehindTable] at heq
  have hkeySpan : keySpan (textOfRows arrayBehindTable) "package" (some "version") = some (.between 21 30) := by
    decide +kernel
  refine ⟨by decide, hkeySpan, hnone, ?_⟩
  rw [hkeySpan]
  rintro ⟨before, row, hfirst, -⟩
  exact hnone before row hfirst.isRow hfirst.holds

end TypstLint.Manifest
