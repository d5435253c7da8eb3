import TypstLint.Proofs.Markup.Equation
import TypstLint.Proofs.Markup.Spelling

set_option autoImplicit false

/-! # Lists of items

The items of an import stand on its line or in parentheses, with blanks around their words. In both forms an
item binds its new name or, if it has none, the last part of its path (`scan_import_items`). -/

namespace TypstLint.Markup

open Text (isBlank)

variable {c : Char} {text literal piece line group gap tail past rest blanks word : List Char}
  {ws : List (List Char)}

/-! ## Words and blanks -/

/-- A text of words, with blanks in front of them, between them and behind them. -/
inductive IsSpacedOut : List (List Char) → List Char → Prop
  | nil {blanks : List Char} : (∀ c ∈ blanks, isBlank c = true) → IsSpacedOut [] blanks
  | cons {blanks word text : List Char} {ws : List (List Char)} : (∀ c ∈ blanks, isBlank c = true) →
      (∀ c ∈ text.head?, isBlank c = true) → IsSpacedOut ws text →
      IsSpacedOut (word :: ws) (blanks ++ (word ++ text))

namespace IsSpacedOut

theorem mem (h : IsSpacedOut ws text) (hc : c ∈ text) : isBlank c = true ∨ ∃ word ∈ ws, c ∈ word := by
  induction h with
  | nil hblanks => exact .inl (hblanks c hc)
  | cons hblanks _ _ ih =>
    rcases List.mem_append.mp hc with hc | hc
    · exact .inl (hblanks c hc)
    · rcases List.mem_append.mp hc with hc | hc
      · exact .inr ⟨_, List.mem_cons_self, hc⟩
      · exact (ih hc).imp_right fun ⟨word, hword, hc⟩ => ⟨word, List.mem_cons_of_mem _ hword, hc⟩

/-- The words are those that are read. -/
theorem words_eq (h : IsSpacedOut ws text)
    (hws : ∀ word ∈ ws, word ≠ [] ∧ ∀ c ∈ word, isBlank c = false) : Text.words text = ws := by
  induction h with
  | nil hblanks =>
    have hnone := Text.words_append_of_blank hblanks []
    rw [List.append_nil] at hnone
    exact hnone
  | cons hblanks hhead _ ih =>
    obtain ⟨⟨hne, hword⟩, hws⟩ := List.forall_mem_cons.mp hws
    rw [Text.words_append_of_blank hblanks, Text.words_append_of_word hne hword hhead, ih hws]

end IsSpacedOut

/-- No identifier goes on with a blank. -/
theorem isIdentContinue_of_isBlank (h : isBlank c = true) : isIdentContinue c = false := by
  have htable : ∀ range ∈ Text.blankRanges, ∀ n ∈ List.range' range.1 (range.2 + 1 - range.1),
      isIdentContinue (Char.ofNat n) = false := by
    decide +kernel
  obtain ⟨range, hrange, hc⟩ := List.any_eq_true.mp h
  obtain ⟨hlow, hhigh⟩ : range.1 ≤ c.toNat ∧ c.toNat ≤ range.2 := by simpa using hc
  have hmem := htable range hrange c.toNat (List.mem_range'_1.mpr (by omega))
  rwa [Char.ofNat_toNat] at hmem

/-! ## Items -/

/-- An item of an import: the identifiers of its path, and its new name if it has one. -/
structure ImportItem where
  path : List (List Char)
  newName : Option (List Char)
  path_ne_nil : path ≠ []
  isIdent_path : ∀ word ∈ path, IsIdent word
  isIdent_newName : ∀ word ∈ newName, IsIdent word

namespace ImportItem

variable {item : ImportItem}

/-- The words that an item is written with. -/
def words (item : ImportItem) : List (List Char) :=
  ['.'].intercalate item.path :: match item.newName with
    | none => []
    | some name => ["as".toList, name]

/-- The name that an item binds. -/
def name (item : ImportItem) : List Char := item.newName.getD (item.path.getLast item.path_ne_nil)

theorem notMem_path {d : Char} (hd : isIdentContinue d = false) : ∀ word ∈ item.path, d ∉ word := by
  intro word hword hmem
  rw [(item.isIdent_path word hword).isIdentContinue_of_mem hmem] at hd
  cases hd

theorem isIdent_or_eq_point (hword : word ∈ item.words) (hc : c ∈ word) : isIdentContinue c = true ∨ c = '.' := by
  rcases List.mem_cons.mp hword with rfl | hword
  · rcases Text.mem_of_mem_intercalate hc with rfl | ⟨part, hpart, hc⟩
    · exact .inr rfl
    · exact .inl ((item.isIdent_path part hpart).isIdentContinue_of_mem hc)
  · cases hname : item.newName with
    | none =>
      rw [hname] at hword
      cases hword
    | some name =>
      have has : IsIdent "as".toList := by decide
      have hident : IsIdent name := item.isIdent_newName name hname
      rw [hname] at hword
      rcases List.mem_pair.mp hword with rfl | rfl
      · exact .inl (has.isIdentContinue_of_mem hc)
      · exact .inl (hident.isIdentContinue_of_mem hc)

theorem ne_nil_of_mem_words (hword : word ∈ item.words) : word ≠ [] := by
  rcases List.mem_cons.mp hword with rfl | hword
  · intro hnil
    have hpath := Text.splitOn_intercalate item.path_ne_nil (notMem_path (d := '.') (by decide))
    rw [hnil] at hpath
    exact (item.isIdent_path [] (hpath ▸ List.mem_cons_self)).1 rfl
  · cases hname : item.newName with
    | none =>
      rw [hname] at hword
      cases hword
    | some name =>
      rw [hname] at hword
      rcases List.mem_pair.mp hword with rfl | rfl
      · exact List.cons_ne_nil _ _
      · exact (item.isIdent_newName _ hname).1

theorem isBlank_of_mem_words (hword : word ∈ item.words) (hc : c ∈ word) : isBlank c = false := by
  rw [← Bool.not_eq_true]
  intro hblank
  rcases isIdent_or_eq_point hword hc with hident | rfl
  · rw [isIdentContinue_of_isBlank hblank] at hident
    cases hident
  · cases hblank

/-- An item binds its name, whatever the blanks around its words are. -/
theorem itemName?_eq (h : IsSpacedOut item.words piece) : itemName? piece = some item.name := by
  have hwords : Text.words piece = item.words := h.words_eq fun word hword =>
    ⟨ne_nil_of_mem_words hword, fun c hc => isBlank_of_mem_words hword hc⟩
  have hlast := Text.afterLast_intercalate item.path_ne_nil (notMem_path (d := '.') (by decide))
  cases hname : item.newName with
  | none => simp [itemName?, hwords, words, name, hname, hlast]
  | some name => simp [itemName?, hwords, words, ImportItem.name, hname]

end ImportItem

/-! ## Lists -/

variable {item : ImportItem} {items : List ImportItem}

/-- The text of a list of items, with commas between them and perhaps one behind the last one. -/
inductive IsItemList : List ImportItem → List Char → Prop
  | last {item : ImportItem} {piece : List Char} : IsSpacedOut item.words piece → IsItemList [item] piece
  | comma {item : ImportItem} {piece blanks : List Char} : IsSpacedOut item.words piece →
      (∀ c ∈ blanks, isBlank c = true) → IsItemList [item] (piece ++ ',' :: blanks)
  | cons {item : ImportItem} {items : List ImportItem} {piece text : List Char} :
      IsSpacedOut item.words piece → IsItemList items text → IsItemList (item :: items) (piece ++ ',' :: text)

theorem itemNames_append (xs ys : List Char) : itemNames (xs ++ ',' :: ys) = itemNames xs ++ itemNames ys := by
  simp only [itemNames, Text.splitOn_append, List.filterMap_append, List.map_append]

theorem itemNames_of_notMem (h : ',' ∉ text) : itemNames text = ((itemName? text).map String.ofList).toList := by
  rw [itemNames, Text.splitOn_of_notMem h]
  cases hname : itemName? text <;> simp [hname]

theorem itemNames_cons_of_blank (hc : isBlank c = true) (text : List Char) :
    itemNames (c :: text) = itemNames text := by
  have hcomma : c ≠ ',' := by
    rintro rfl
    cases hc
  have hname : ∀ piece, itemName? (c :: piece) = itemName? piece := fun piece => by
    rw [itemName?, Text.words_cons_of_blank hc, itemName?]
  cases hsplit : Text.splitOn ',' text with
  | nil => exact absurd hsplit (Text.splitWhere_ne_nil _ text)
  | cons piece pieces =>
    rw [itemNames, itemNames, Text.splitOn_cons_of_ne hcomma hsplit, hsplit, List.filterMap_cons, hname,
      List.filterMap_cons]

theorem itemNames_append_of_blank (hblanks : ∀ c ∈ blanks, isBlank c = true) (text : List Char) :
    itemNames (blanks ++ text) = itemNames text := by
  induction blanks with
  | nil => rfl
  | cons c blanks ih =>
    obtain ⟨hc, hblanks⟩ := List.forall_mem_cons.mp hblanks
    rw [List.cons_append, itemNames_cons_of_blank hc, ih hblanks]

theorem itemNames_piece (h : IsSpacedOut item.words piece) : itemNames piece = [String.ofList item.name] := by
  have hcomma : ',' ∉ piece := by
    intro hmem
    rcases h.mem hmem with hblank | ⟨word, hword, hc⟩
    · cases hblank
    · exact absurd (ImportItem.isIdent_or_eq_point hword hc) (by decide)
  rw [itemNames_of_notMem hcomma, ImportItem.itemName?_eq h]
  rfl

/-- The names that are read from a list are those that its items bind. -/
theorem IsItemList.itemNames_eq (h : IsItemList items text) :
    itemNames text = items.map fun item => String.ofList item.name := by
  induction h with
  | last hpiece => exact itemNames_piece hpiece
  | comma hpiece hblanks =>
    have hnone := itemNames_append_of_blank hblanks []
    rw [List.append_nil] at hnone
    rw [itemNames_append, itemNames_piece hpiece, hnone]
    rfl
  | cons hpiece _ ih => rw [itemNames_append, itemNames_piece hpiece, ih, List.map_cons, List.singleton_append]

/-- Whether `c` may be a character of a list. -/
def isListChar (c : Char) : Bool := isBlank c || isIdentContinue c || c == '.' || c == ','

theorem isListChar_of_spacedOut (h : IsSpacedOut item.words piece) (hc : c ∈ piece) : isListChar c = true := by
  rcases h.mem hc with hblank | ⟨word, hword, hc⟩
  · simp [isListChar, hblank]
  · rcases ImportItem.isIdent_or_eq_point hword hc with hident | rfl
    · simp [isListChar, hident]
    · rfl

theorem IsItemList.isListChar_of_mem (h : IsItemList items text) (hc : c ∈ text) : isListChar c = true := by
  induction h with
  | last h => exact isListChar_of_spacedOut h hc
  | comma h hblanks =>
    rcases List.mem_append.mp hc with hc | hc
    · exact isListChar_of_spacedOut h hc
    · rcases List.mem_cons.mp hc with rfl | hc
      · rfl
      · simp [isListChar, hblanks c hc]
  | cons h _ ih =>
    rcases List.mem_append.mp hc with hc | hc
    · exact isListChar_of_spacedOut h hc
    · rcases List.mem_cons.mp hc with rfl | hc
      · rfl
      · exact ih hc

/-! ## The line of an import -/

/-- A list without parentheses goes on to the end of its line. -/
theorem bareLength_over (htext : ∀ c ∈ text, c ∉ "\n;]\x7d/".toList) (hrest : ∀ n, bareLength n rest = n)
    (n : Nat) : bareLength n (text ++ rest) = n + text.length := by
  induction text generalizing n with
  | nil => exact hrest n
  | cons c text ih =>
    obtain ⟨hc, htext⟩ := List.forall_mem_cons.mp htext
    have hne : ∀ d ∈ "\n;]\x7d/".toList, c ≠ d := fun d hd heq => hc (heq ▸ hd)
    have hstop : ¬ (c == '\n' || c == ';' || c == ']' || c == '\x7d') = true := by
      simp [hne '\n' (by decide), hne ';' (by decide), hne ']' (by decide), hne '\x7d' (by decide)]
    have hslash : c ≠ '/' := hne '/' (by decide)
    rw [List.cons_append, bareLength, if_neg hstop, ih htext, List.length_cons, Nat.add_assoc, Nat.add_comm 1]
    · exact fun _ heq => absurd heq hslash
    · exact fun _ heq => absurd heq hslash

/-- Where an import stops, the file or its line ends. -/
def IsLineTail (tail : List Char) : Prop := tail = [] ∨ tail = ['\n']

theorem IsLineTail.bareLength_eq (h : IsLineTail tail) (n : Nat) : bareLength n tail = n := by
  rcases h with rfl | rfl <;> rfl

theorem IsLineTail.eq_newline (h : IsLineTail tail) (hc : c ∈ tail) : c = '\n' := by
  rcases h with rfl | rfl
  · cases hc
  · exact List.mem_singleton.mp hc

/-- The blanks behind an import and the end of its line hold nothing. -/
theorem outlineFrom_lineTail (hblanks : ∀ c ∈ blanks, isBlank c = true) (hnewline : '\n' ∉ blanks)
    (htail : IsLineTail tail) (past : List Char) :
    outlineFrom ⟨.between past (blanks ++ tail), [.embed 0 true true []]⟩ = .ok ⟨[], [], []⟩ := by
  induction blanks generalizing past with
  | nil =>
    rcases htail with rfl | rfl
    · exact outlineFrom_of_nil rfl
    · exact outlineFrom_lineEnd past
  | cons c blanks ih =>
    obtain ⟨hc, hblanks⟩ := List.forall_mem_cons.mp hblanks
    rw [List.mem_cons, not_or] at hnewline
    have hplain : ∀ d ∈ "$\x22#\\\x60/\n".toList ++ "()[]\x7b\x7d;".toList, ¬ (isBlank d && d != '\n') = true :=
      List.any_eq_false.mp (by decide)
    have hclass : c ∉ "$\x22#\\\x60/\n".toList ++ "()[]\x7b\x7d;".toList := fun hmem =>
      hplain c hmem (by rw [hc, Bool.true_and, bne_iff_ne]; exact hnewline.1 ∘ Eq.symm)
    rw [List.mem_append, not_or] at hclass
    have htext : IsEquationText [c] := fun d hd => List.mem_singleton.mp hd ▸ hclass.1
    have hstart : isIdentStart c = false := by
      rw [← Bool.not_eq_true]
      intro hstart
      have hcontinue := isIdentContinue_of_isIdentStart hstart
      rw [isIdentContinue_of_isBlank hc] at hcontinue
      cases hcontinue
    have hrun : Runs ⟨.between past (c :: (blanks ++ tail)), [.embed 0 true true []]⟩ []
        ⟨.between (c :: past) (blanks ++ tail), [.embed 0 true true []]⟩ :=
      Stands.statement.runs_codeChar rfl htext hstart hclass.2
    rw [List.cons_append, hrun.outlineFrom_eq_of_nil, ih hblanks hnewline.2]

theorem isBlank_of_isInlineBlank (h : isInlineBlank c = true) : isBlank c = true := by
  have hblank : c = ' ' ∨ c = '\t' := by simpa [isInlineBlank] using h
  rcases hblank with rfl | rfl <;> decide

/-- A line starts with blanks that are passed over, behind which there is none. -/
theorem exists_skipBlanks (line : List Char) (htail : IsLineTail tail) :
    ∃ front body, line = front ++ body ∧ (∀ c ∈ front, isInlineBlank c = true)
      ∧ ∀ past, (Cursor.between past (line ++ tail)).skipBlanks = .between (front.reverse ++ past) (body ++ tail) := by
  have hhead : ∀ c ∈ (line.dropWhile isInlineBlank ++ tail).head?, isInlineBlank c = false := by
    have hdrop := List.head?_dropWhile_not isInlineBlank line
    cases hbody : line.dropWhile isInlineBlank with
    | nil =>
      intro c hc
      rw [htail.eq_newline (List.mem_of_head? hc)]
      decide
    | cons d body =>
      rw [hbody] at hdrop
      rintro c ⟨rfl⟩
      exact hdrop
  have hfront : ∀ c ∈ line.takeWhile isInlineBlank, isInlineBlank c = true := fun c hc => List.mem_takeWhile_imp hc
  refine ⟨line.takeWhile isInlineBlank, line.dropWhile isInlineBlank, List.takeWhile_append_dropWhile.symm, hfront,
    fun past => ?_⟩
  rw [← Cursor.skipBlanks_between hfront hhead, ← List.append_assoc, List.takeWhile_append_dropWhile]

/-- The items on the line of an import. -/
theorem readItems_line (hline : IsItemList items line) (hnewline : '\n' ∉ line) (htail : IsLineTail tail)
    (clauses : Clauses) (past : List Char) :
    ∃ past' blanks, (∀ c ∈ blanks, isBlank c = true) ∧ '\n' ∉ blanks
      ∧ readItems clauses (.between past (line ++ tail))
        = .ok { clauses with
          items := items.map fun item => String.ofList item.name
          behind := .between past' (blanks ++ tail) } := by
  obtain ⟨front, body, rfl, hfront, hstart⟩ := exists_skipBlanks line htail
  have hbody : ∀ c ∈ body, isListChar c = true ∧ c ≠ '\n' := fun c hc =>
    ⟨hline.isListChar_of_mem (List.mem_append_right front hc),
      fun heq => hnewline (heq ▸ List.mem_append_right front hc)⟩
  have hmeets : ∀ d, isListChar d = false → d ≠ '\n' →
      (Cursor.between (front.reverse ++ past) (body ++ tail)).meets d = false := by
    intro d hd hne
    rw [Cursor.meets, beq_eq_false_iff_ne]
    intro heq
    rcases List.mem_append.mp (List.mem_of_head? heq) with hmem | hmem
    · rw [(hbody d hmem).1] at hd
      cases hd
    · exact hne (htail.eq_newline hmem)
  have hlength : bareLength 0 (body ++ tail) = body.length := by
    have hstops : ∀ d ∈ ";]\x7d/".toList, ¬ isListChar d = true := List.any_eq_false.mp (by decide)
    have htext : ∀ c ∈ body, c ∉ '\n' :: ";]\x7d/".toList := fun c hc hmem =>
      (List.mem_cons.mp hmem).elim (hbody c hc).2 fun hmem => hstops c hmem (hbody c hc).1
    rw [bareLength_over htext htail.bareLength_eq, Nat.zero_add]
  have hitems : itemNames body = items.map fun item => String.ofList item.name := by
    rw [← hline.itemNames_eq, itemNames_append_of_blank fun c hc => isBlank_of_isInlineBlank (hfront c hc)]
  obtain ⟨blanks, hkept, hblanks⟩ := Text.exists_append_dropEndWhile isBlank body
  have hbehind : Cursor.advance (Text.dropEndWhile isBlank body).length (.between (front.reverse ++ past) (body ++ tail))
      = .between ((Text.dropEndWhile isBlank body).reverse ++ (front.reverse ++ past)) (blanks ++ tail) := by
    have hover := Cursor.advance_over (Text.dropEndWhile isBlank body) (front.reverse ++ past) (blanks ++ tail)
    rwa [← List.append_assoc, ← hkept] at hover
  refine ⟨(Text.dropEndWhile isBlank body).reverse ++ (front.reverse ++ past), blanks, hblanks, fun hmem => ?_, ?_⟩
  · exact (hbody '\n' (hkept ▸ List.mem_append_right _ hmem)).2 rfl
  · simp only [readItems, hstart, hmeets '*' rfl (by decide), hmeets '(' rfl (by decide), Cursor.rest_between, hlength,
      List.take_left, hitems, hbehind, Bool.false_eq_true, if_false]

/-- The items in parentheses. -/
theorem readItems_group (hgroup : IsItemList items group) (hgap : ∀ c ∈ gap, isInlineBlank c = true)
    (clauses : Clauses) (past tail : List Char) :
    readItems clauses (.between past (gap ++ '(' :: (group ++ ')' :: tail)))
      = .ok { clauses with
        items := items.map fun item => String.ofList item.name
        issues := []
        behind := .between (')' :: (group.reverse ++ '(' :: (gap.reverse ++ past))) tail } := by
  have hplain : ∀ d ∈ "()/\x22".toList, ¬ isListChar d = true := List.any_eq_false.mp (by decide)
  have htext : ListText (fun _ => False) 1 group 1 :=
    listText_of_notMem (fun c hc hmem => hplain c hmem (hgroup.isListChar_of_mem hc)) 1
  have hclose : findClose (gap.reverse ++ past).length 0 0 ('(' :: (group ++ ')' :: tail))
      = .ok (some ((gap.reverse ++ past).length + 1 + group.length), []) :=
    htext.findClose_eq _ _
  rw [readItems_paren hgap, Group.read_of_closed hclose, ← hgroup.itemNames_eq]
  rfl

/-- What is found in an import of items that ends at `stop`. -/
def importedItems (text literal : List Char) (items : List ImportItem) (stop : Nat) : Outline where
  directives := [
    { kind := .importing
      target := some ⟨String.ofList text, .ofLength 8 (quoted literal).length⟩
      span := .between 0 stop
      items := items.map fun item => String.ofList item.name }]
  bindings := []
  issues := []

/-- An import of items on its line and one of the same items in parentheses hold one directive each, with the names
that the items bind, and no issue. -/
theorem scan_import_items (htext : Spells text literal) (hline : IsItemList items line) (hnewline : '\n' ∉ line)
    (hgroup : IsItemList items group) (hgap : ∀ c ∈ gap, isInlineBlank c = true) (htail : IsLineTail tail) :
    ∃ stop stop',
      scan ("#import ".toList ++ (quoted literal ++ ':' :: (line ++ tail)))
          = .ok (importedItems text literal items stop)
      ∧ scan ("#import ".toList ++ (quoted literal ++ ':' :: (gap ++ '(' :: (group ++ ')' :: tail))))
          = .ok (importedItems text literal items stop') := by
  have hclauses : ∀ past rest, readClauses (.between past (':' :: rest))
      = readItems { behind := .between past (':' :: rest) } (.between (':' :: past) rest) := fun past rest => rfl
  have hnone : ∀ past, outlineFrom ⟨.between past ([] ++ tail), [.embed 0 true true []]⟩ = .ok ⟨[], [], []⟩ :=
    outlineFrom_lineTail (List.forall_mem_nil _) List.not_mem_nil htail
  obtain ⟨past, blanks, hblanks, hnewline', hread⟩ := readItems_line hline hnewline htail
    { behind := .between (pastTarget literal) (':' :: (line ++ tail)) } (':' :: pastTarget literal)
  have hread' := readItems_group hgroup hgap
    { behind := .between (pastTarget literal) (':' :: (gap ++ '(' :: (group ++ ')' :: tail))) }
    (':' :: pastTarget literal) tail
  exact ⟨_, _,
    scan_import_of_readClauses htext ((hclauses _ _).trans hread) (outlineFrom_lineTail hblanks hnewline' htail past),
    scan_import_of_readClauses htext ((hclauses _ _).trans hread') (hnone _)⟩

/-- A path and a new name, on a line and in parentheses on lines of their own. -/
theorem scan_import_items_sample :
    ∃ stop stop' : Nat,
      scan "#import \x22p\x22: a.b, c as d \n".toList
        = .ok ⟨[⟨.importing, some ⟨"p", ⟨8, 11⟩⟩, ⟨0, stop⟩, ["b", "d"], false, none⟩], [], []⟩
      ∧ scan "#import \x22p\x22: (\na.b,\nc\tas d ,\n)\n".toList
        = .ok ⟨[⟨.importing, some ⟨"p", ⟨8, 11⟩⟩, ⟨0, stop'⟩, ["b", "d"], false, none⟩], [], []⟩ := by
  let path : ImportItem := ⟨[['a'], ['b']], none, by decide, by decide, by simp⟩
  let renamed : ImportItem := ⟨[['c']], some ['d'], by decide, by decide, by simp; decide⟩
  have hp : Spells ['p'] (['p'] ++ []) := .cons (.itself (by decide) (by decide)) .nil
  have hblank : ∀ c, isBlank c = true → ∀ d ∈ [c], isBlank d = true := fun c hc => List.forall_mem_singleton.mpr hc
  have hhead : ∀ c text, isBlank c = true → ∀ d ∈ (c :: text).head?, isBlank d = true := by
    rintro c text hc d ⟨rfl⟩
    exact hc
  have hgap : ∀ c ∈ [' '], isInlineBlank c = true := List.forall_mem_singleton.mpr rfl
  have hend : ∀ c, isBlank c = true → IsSpacedOut [] [c] := fun c hc => .nil (hblank c hc)
  have hpath : ∀ c, isBlank c = true → IsSpacedOut path.words ([c] ++ ("a.b".toList ++ [])) := fun c hc =>
    .cons (hblank c hc) nofun (.nil nofun)
  have hrenamed : ∀ c c', isBlank c = true → isBlank c' = true → IsSpacedOut renamed.words
      ([c] ++ ("c".toList ++ ([c'] ++ ("as".toList ++ ([' '] ++ ("d".toList ++ [' '])))))) := fun c c' hc hc' =>
    .cons (hblank c hc) (hhead c' _ hc') (.cons (hblank c' hc') (hhead ' ' _ rfl)
      (.cons (hblank ' ' rfl) (hhead ' ' _ rfl) (hend ' ' rfl)))
  have hline : IsItemList [path, renamed] " a.b, c as d ".toList :=
    IsItemList.cons (hpath ' ' rfl) (.last (hrenamed ' ' ' ' rfl rfl))
  have hgroup : IsItemList [path, renamed] "\na.b,\nc\tas d ,\n".toList :=
    IsItemList.cons (hpath '\n' rfl) (.comma (hrenamed '\n' '\t' rfl rfl) (hblank '\n' rfl))
  have hscan := scan_import_items hp hline (by decide) hgroup hgap (.inr rfl)
  have htext : "#import \x22p\x22: a.b, c as d \n".toList
      = "#import ".toList ++ (quoted (['p'] ++ []) ++ ':' :: (" a.b, c as d ".toList ++ ['\n'])) := rfl
  have htext' : "#import \x22p\x22: (\na.b,\nc\tas d ,\n)\n".toList
      = "#import ".toList ++ (quoted (['p'] ++ []) ++ ':' :: ([' '] ++ '('
        :: ("\na.b,\nc\tas d ,\n".toList ++ ')' :: ['\n']))) := rfl
  rw [htext, htext']
  exact hscan

end TypstLint.Markup
