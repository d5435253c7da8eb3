import TypstLint.Proofs.Readme
import TypstLint.Proofs.Text.Lines

set_option autoImplicit false

/-! # Fenced blocks

Markdown has a rule for the lines that open a block and for those that close it. The scan of an introduction
goes by a rule that is more lenient in two places: backticks may stand behind the backticks of an opening
line, and any blanks may stand around the run of a closing line. So the blocks that are found are those of
Markdown exactly if the opening and closing lines of these blocks are lines of Markdown (`scan_fenced`). -/

namespace TypstLint.Readme

open Text (EndedLine EndedBy textOf)

variable {line info cs : List Char} {c : Char} {fence fence' : Fence} {n : Nat}

/-! ## Runs of a character -/

theorem exists_run (c : Char) (cs : List Char) :
    ∃ n rest, cs = List.replicate n c ++ rest ∧ rest.head? ≠ some c := by
  refine ⟨(cs.takeWhile (· == c)).length, cs.dropWhile (· == c), ?_, fun hhead => ?_⟩
  · have hrun : cs.takeWhile (· == c) = List.replicate (cs.takeWhile (· == c)).length c :=
      List.eq_replicate_of_mem fun d hd => by simpa using List.mem_takeWhile_imp hd
    rw [← hrun, List.takeWhile_append_dropWhile]
  · have hrest := List.head?_dropWhile_not (· == c) cs
    simp [hhead] at hrest

theorem takeWhile_run (n : Nat) (h : cs.head? ≠ some c) :
    (List.replicate n c ++ cs).takeWhile (· == c) = List.replicate n c :=
  Text.takeWhile_append_of_forall (by simp) fun d hd => beq_false_of_ne fun heq => h (heq ▸ hd)

theorem dropWhile_run (n : Nat) (h : cs.head? ≠ some c) :
    (List.replicate n c ++ cs).dropWhile (· == c) = cs :=
  Text.dropWhile_append_of_forall (by simp) fun d hd => beq_false_of_ne fun heq => h (heq ▸ hd)

/-! ## Opening lines -/

/-- The language that an info text names: what it starts with, up to a blank or a backtick. -/
def languageOf (info : List Char) : String :=
  .ofList (Text.toLower ((info.dropWhile Text.isBlank).takeWhile fun c => c != '\x60' && !Text.isBlank c))

/-- A line is at most three spaces, the run of a fence, and the info text. -/
structure Fence.Starts (fence : Fence) (line info : List Char) : Prop where
  mark : fence.mark = '\x60' ∨ fence.mark = '~'
  length : 3 ≤ fence.length
  shape : ∃ indent ≤ 3, line = List.replicate indent ' ' ++ (List.replicate fence.length fence.mark ++ info)
  behind : info.head? ≠ some fence.mark
  language : fence.language = languageOf info

theorem Fence.Starts.mark_ne_space (h : fence.Starts line info) : fence.mark ≠ ' ' := by
  intro hspace
  rcases h.mark with hmark | hmark <;> simp [hspace] at hmark

theorem Fence.Starts.isBlank_mark (h : fence.Starts line info) : Text.isBlank fence.mark = false := by
  rcases h.mark with hmark | hmark <;> rw [hmark] <;> rfl

theorem indent?_eq (hn : n ≤ 3) (h : cs.head? ≠ some ' ') :
    indent? (List.replicate n ' ' ++ cs) = some n := by
  simp only [indent?, takeWhile_run n h, List.length_replicate, hn, if_true]

theorem Fence.Starts.head?_ne_space (h : fence.Starts line info) :
    (List.replicate fence.length fence.mark ++ info).head? ≠ some ' ' := by
  have hlength := h.length
  rw [List.head?_append, List.head?_replicate, if_neg (by omega)]
  simpa using h.mark_ne_space

/-- The info text of a line is what is left behind the fence. -/
theorem Fence.Starts.info_eq (h : fence.Starts line info) :
    info = (line.dropWhile (· == ' ')).drop fence.length := by
  obtain ⟨indent, -, hline⟩ := h.shape
  rw [hline, dropWhile_run indent h.head?_ne_space, List.drop_left' (by simp)]

/-- The fence of a line is read. -/
theorem Fence.Starts.opening? (h : fence.Starts line info) : Fence.opening? line = some fence := by
  obtain ⟨mark, length, language⟩ := fence
  obtain ⟨indent, hindent, rfl⟩ := h.shape
  obtain ⟨more, rfl⟩ : ∃ more, length = more + 3 := ⟨length - 3, (Nat.sub_add_cancel h.length).symm⟩
  have hhead : (List.replicate (more + 3) mark ++ info).head? ≠ some ' ' := h.head?_ne_space
  have hrun : (List.replicate (more + 2) mark ++ info).takeWhile (· == mark) = List.replicate (more + 2) mark :=
    takeWhile_run _ h.behind
  have hdrop : (List.replicate indent ' ' ++ (List.replicate (more + 3) mark ++ info)).drop indent
      = mark :: (List.replicate (more + 2) mark ++ info) := by
    rw [List.drop_left' (by simp)]
    rfl
  have hmark : (mark == '\x60' || mark == '~') = true := by simpa using h.mark
  have hlength : 1 + (more + 2) = more + 3 := by omega
  obtain rfl : language = languageOf info := h.language
  simp only [Fence.opening?, indent?_eq hindent hhead, hdrop, hrun, hmark, List.length_replicate, hlength,
    Bool.true_and, decide_eq_true_eq]
  rw [if_pos (by omega), List.drop_left' (by simp)]
  rfl

/-- A line that a fence is read of is one. -/
theorem Fence.exists_starts (h : Fence.opening? line = some fence) : ∃ info, fence.Starts line info := by
  obtain ⟨indent, rest, rfl, hrest⟩ := exists_run ' ' line
  simp only [Fence.opening?, indent?, takeWhile_run indent hrest, List.length_replicate] at h
  split at h
  · cases h
  · next n hn =>
    split at hn
    · next hindent =>
      obtain rfl := Option.some.inj hn
      rw [List.drop_left' (by simp)] at h
      split at h
      · cases h
      · next mark rest =>
        obtain ⟨more, info, rfl, hinfo⟩ := exists_run mark rest
        simp only [takeWhile_run more hinfo, List.length_replicate] at h
        split at h
        · next hmark =>
          simp only [Bool.and_eq_true, Bool.or_eq_true, beq_iff_eq, decide_eq_true_eq] at hmark
          obtain rfl := Option.some.inj h
          refine ⟨info, hmark.1, hmark.2, ⟨indent, hindent, ?_⟩, hinfo, ?_⟩
          · rw [Nat.add_comm]
            rfl
          · rw [List.drop_left' (by simp)]
            rfl
        · cases h
    · cases hn

theorem Fence.opening?_eq_some_iff : Fence.opening? line = some fence ↔ ∃ info, fence.Starts line info :=
  ⟨exists_starts, fun ⟨_, h⟩ => h.opening?⟩

/-! ## Rules -/

/-- A rule for the lines that open a block, each of them with one fence, and for those that close it. -/
structure FenceRule where
  opens : List Char → Fence → Prop
  closes : Fence → List Char → Prop
  unique : ∀ {line fence fence'}, opens line fence → opens line fence' → fence = fence'

/-- What the scan goes by. -/
def FenceRule.lenient : FenceRule where
  opens := fun line fence => ∃ info, fence.Starts line info
  closes := fun fence line => ∃ n front behind, fence.length ≤ n ∧ (∀ c ∈ front, Text.isBlank c = true)
    ∧ (∀ c ∈ behind, Text.isBlank c = true) ∧ line = front ++ (List.replicate n fence.mark ++ behind)
  unique := by
    rintro line fence fence' ⟨info, h⟩ ⟨info', h'⟩
    exact Option.some.inj (h.opening?.symm.trans h'.opening?)

/-- A line that is read as a closing one is a run of the mark, long enough, with blanks on both sides. -/
theorem Fence.closes_iff (hmark : Text.isBlank fence.mark = false) :
    fence.closes line = true ↔ FenceRule.lenient.closes fence line := by
  have hcloses : fence.closes line = true ↔
      fence.length ≤ (Text.trim line).length ∧ ∀ c ∈ Text.trim line, c = fence.mark := by
    simp [Fence.closes]
  rw [hcloses, Text.trim]
  constructor
  · rintro ⟨hn, hrun⟩
    obtain ⟨front, behind, hline, hfront, hbehind⟩ := Text.exists_append_trimWhile Text.isBlank line
    refine ⟨_, front, behind, hn, hfront, hbehind, ?_⟩
    rwa [← List.eq_replicate_of_mem hrun]
  · rintro ⟨n, front, behind, hn, hfront, hbehind, rfl⟩
    have hrun : ∀ c ∈ List.replicate n fence.mark, Text.isBlank c = false := by
      intro c hc
      rw [List.eq_of_mem_replicate hc, hmark]
    rw [Text.trimWhile_append_of_forall hfront, Text.trimWhile_append_of_forall_right hbehind,
      Text.trimWhile_eq_self hrun, List.length_replicate]
    exact ⟨hn, fun c hc => List.eq_of_mem_replicate hc⟩

/-- What Markdown goes by: no backtick stands behind a run of backticks that opens a block; and a closing
line starts with at most three spaces, and ends with spaces and tabs. -/
def FenceRule.markdown : FenceRule where
  opens := fun line fence => ∃ info, fence.Starts line info ∧ (fence.mark = '\x60' → '\x60' ∉ info)
  closes := fun fence line => ∃ n indent behind, fence.length ≤ n ∧ indent ≤ 3
    ∧ (∀ c ∈ behind, c = ' ' ∨ c = '\t')
    ∧ line = List.replicate indent ' ' ++ (List.replicate n fence.mark ++ behind)
  unique := by
    rintro line fence fence' ⟨info, h, -⟩ ⟨info', h', -⟩
    exact Option.some.inj (h.opening?.symm.trans h'.opening?)

/-- The lines of one rule are lines of another one. -/
structure FenceRule.Refines (rule rule' : FenceRule) : Prop where
  opens : ∀ {line fence}, rule.opens line fence → rule'.opens line fence
  closes : ∀ {line fence}, rule.closes fence line → rule'.closes fence line

theorem FenceRule.markdown_refines_lenient : markdown.Refines lenient where
  opens := by
    rintro line fence ⟨info, hstarts, -⟩
    exact ⟨info, hstarts⟩
  closes := by
    rintro line fence ⟨n, indent, behind, hn, -, hbehind, rfl⟩
    refine ⟨n, List.replicate indent ' ', behind, hn, fun c hc => ?_, fun c hc => ?_, rfl⟩
    · rw [List.eq_of_mem_replicate hc]
      rfl
    · rcases hbehind c hc with rfl | rfl <;> rfl

/-- Whether a line opens a block of Markdown can be told from its fence and what is left behind it. -/
theorem FenceRule.markdown_opens_iff : markdown.opens line fence ↔ Fence.opening? line = some fence
    ∧ (fence.mark = '\x60' → '\x60' ∉ (line.dropWhile (· == ' ')).drop fence.length) := by
  rw [Fence.opening?_eq_some_iff]
  constructor
  · rintro ⟨info, hstarts, hinfo⟩
    exact ⟨⟨info, hstarts⟩, hstarts.info_eq ▸ hinfo⟩
  · rintro ⟨⟨info, hstarts⟩, hinfo⟩
    exact ⟨info, hstarts, hstarts.info_eq ▸ hinfo⟩

/-- No line that is indented further closes a block of Markdown. -/
theorem FenceRule.indent_of_markdown_closes (h : markdown.closes fence line) (hmark : fence.mark ≠ ' ')
    (hlength : 0 < fence.length) : (indent? line).isSome = true := by
  obtain ⟨n, indent, behind, hn, hindent, -, rfl⟩ := h
  have hhead : (List.replicate n fence.mark ++ behind).head? ≠ some ' ' := by
    rw [List.head?_append, List.head?_replicate, if_neg (by omega)]
    simpa using hmark
  rw [indent?_eq hindent hhead]
  rfl

/-! ## Blocks -/

/-- Lines up to the first one with a property, this line, and the lines behind it. -/
structure UpToFirst (p : EndedLine → Prop) (ls before : List EndedLine) (first? : Option EndedLine)
    (behind : List EndedLine) : Prop where
  eq : ls = before ++ (first?.toList ++ behind)
  before : ∀ line ∈ before, ¬ p line
  first : ∀ line ∈ first?, p line
  behind : first? = none → behind = []

/-- The lines of a block that starts at an offset: the opening line, those inside, and the closing line
unless the block goes on to the end. -/
structure FencedLines where
  start : Nat
  fence : Fence
  opening : EndedLine
  inside : List EndedLine
  closing? : Option EndedLine

/-- All lines of a block. -/
def FencedLines.lines (b : FencedLines) : List EndedLine := b.opening :: (b.inside ++ b.closing?.toList)

/-- The block that some lines make. It ends where the closing line ends, in front of its line feed. -/
def FencedLines.block (b : FencedLines) : Block :=
  let bodyStart := b.start + b.opening.raw.length
  ⟨b.fence.language, textOf b.inside, bodyStart,
    .between b.start (bodyStart + (textOf b.inside).length + (b.closing?.map (·.body.length)).getD 0)⟩

/-- The opening and the closing line of a block are lines of a rule. -/
def FencedLines.Obeys (rule : FenceRule) (b : FencedLines) : Prop :=
  rule.opens b.opening.body b.fence ∧ ∀ line ∈ b.closing?, rule.closes b.fence line.body

/-- The blocks of lines that start at an offset, by a rule. Every line that is in no block opens none, and
a block ends with the first line that closes it. -/
inductive Fenced (rule : FenceRule) : Nat → List EndedLine → List FencedLines → Prop
  | nil {n : Nat} : Fenced rule n [] []
  | plain {n : Nat} {line : EndedLine} {ls : List EndedLine} {bs : List FencedLines}
      (hplain : ∀ fence, ¬ rule.opens line.body fence) (h : Fenced rule (n + line.raw.length) ls bs) :
      Fenced rule n (line :: ls) bs
  | block {n : Nat} {line : EndedLine} {ls rest : List EndedLine} {b : FencedLines} {bs : List FencedLines}
      (hstart : b.start = n) (hline : b.opening = line) (hopens : rule.opens line.body b.fence)
      (hcloses : UpToFirst (rule.closes b.fence ·.body) ls b.inside b.closing? rest)
      (h : Fenced rule (n + (textOf b.lines).length) rest bs) : Fenced rule n (line :: ls) (b :: bs)

variable {p : EndedLine → Prop} {rule rule' : FenceRule} {ls before before' behind behind' : List EndedLine}
  {first? first?' : Option EndedLine} {bs bs' : List FencedLines}

theorem exists_upToFirst (p : EndedLine → Prop) (ls : List EndedLine) :
    ∃ before first? behind, UpToFirst p ls before first? behind := by
  induction ls with
  | nil => exact ⟨[], none, [], rfl, by simp, by simp, by simp⟩
  | cons line ls ih =>
    by_cases hline : p line
    · exact ⟨[], some line, ls, rfl, by simp, by simpa using hline, by simp⟩
    · obtain ⟨before, first?, behind, heq, hbefore, hfirst, hbehind⟩ := ih
      refine ⟨line :: before, first?, behind, by rw [heq, List.cons_append], ?_, hfirst, hbehind⟩
      exact List.forall_mem_cons.mpr ⟨hline, hbefore⟩

theorem UpToFirst.forall {q : EndedLine → Prop} (h : UpToFirst p ls before first? behind)
    (hls : ∀ line ∈ ls, q line) :
    (∀ line ∈ before, q line) ∧ (∀ line ∈ first?, q line) ∧ ∀ line ∈ behind, q line := by
  rw [h.eq, List.forall_mem_append, List.forall_mem_append] at hls
  simpa using hls

theorem UpToFirst.eq_takeWhile [DecidablePred p] (h : UpToFirst p ls before first? behind) :
    before = ls.takeWhile (¬ p ·) ∧ first? = (ls.dropWhile (¬ p ·)).head?
      ∧ behind = (ls.dropWhile (¬ p ·)).tail := by
  obtain ⟨rfl, hbefore, hfirst, hbehind⟩ := h
  have hpass : ∀ line ∈ before, decide (¬ p line) = true := by simpa using hbefore
  rw [List.takeWhile_append_of_pos hpass, List.dropWhile_append_of_pos hpass]
  cases first? with
  | none => simp [hbehind rfl]
  | some line => simp [hfirst line rfl]

theorem UpToFirst.unique (h : UpToFirst p ls before first? behind)
    (h' : UpToFirst p ls before' first?' behind') :
    before = before' ∧ first? = first?' ∧ behind = behind' := by
  classical
  obtain ⟨rfl, rfl, rfl⟩ := h.eq_takeWhile
  obtain ⟨rfl, rfl, rfl⟩ := h'.eq_takeWhile
  exact ⟨rfl, rfl, rfl⟩

/-- Where the first lines with two properties have the same text before them, they are the same. -/
theorem UpToFirst.eq_of_textOf_eq {p' : EndedLine → Prop} (h : UpToFirst p ls before first? behind)
    (h' : UpToFirst p' ls before' first?' behind') (hraw : ∀ line ∈ ls, line.raw ≠ [])
    (htext : textOf before = textOf before') : before = before' ∧ first? = first?' ∧ behind = behind' := by
  obtain ⟨rfl, htail⟩ :=
    Text.eq_of_textOf_eq (h.eq.symm.trans h'.eq) (h.eq ▸ hraw) (congrArg List.length htext)
  cases first? with
  | none =>
    cases first?' with
    | none => exact ⟨rfl, rfl, by rw [h.behind rfl, h'.behind rfl]⟩
    | some line' => simp [h.behind rfl] at htail
  | some line =>
    cases first?' with
    | none => simp [h'.behind rfl] at htail
    | some line' =>
      obtain ⟨rfl, hbehind⟩ := List.cons_eq_cons.mp htail
      exact ⟨rfl, rfl, hbehind⟩

/-- Lines have blocks by every rule. -/
theorem Fenced.exists (rule : FenceRule) (n : Nat) (ls : List EndedLine) : ∃ bs, Fenced rule n ls bs := by
  -- a block takes up several lines, so the induction is on their number
  induction hlength : ls.length using Nat.strong_induction_on generalizing n ls with
  | _ length ih =>
    cases ls with
    | nil => exact ⟨[], .nil⟩
    | cons line ls =>
      by_cases hplain : ∀ fence, ¬ rule.opens line.body fence
      · obtain ⟨bs, hbs⟩ := ih ls.length (by simp at hlength; omega) (n + line.raw.length) ls rfl
        exact ⟨bs, .plain hplain hbs⟩
      · obtain ⟨fence, hopens⟩ := not_forall_not.mp hplain
        obtain ⟨inside, closing?, rest, hcloses⟩ := exists_upToFirst (rule.closes fence ·.body) ls
        have hrest : rest.length ≤ ls.length := by
          rw [hcloses.eq, List.length_append, List.length_append]
          omega
        let b : FencedLines := ⟨n, fence, line, inside, closing?⟩
        obtain ⟨bs, hbs⟩ :=
          ih rest.length (by simp at hlength; omega) (n + (textOf b.lines).length) rest rfl
        exact ⟨b :: bs, .block rfl rfl hopens hcloses hbs⟩

/-- Lines have one list of blocks by a rule. -/
theorem Fenced.unique (h : Fenced rule n ls bs) (h' : Fenced rule n ls bs') : bs = bs' := by
  induction h generalizing bs' with
  | nil =>
    cases h'
    rfl
  | plain hplain h ih =>
    cases h' with
    | plain hplain' h' => exact ih h'
    | block hstart' hline' hopens' hcloses' h' => exact absurd hopens' (hplain _)
  | @block n line ls rest b bs hstart hline hopens hcloses h ih =>
    cases h' with
    | plain hplain' h' => exact absurd hopens (hplain' _)
    | @block _ _ _ rest' b' bs' hstart' hline' hopens' hcloses' h' =>
      obtain ⟨start, fence, opening, inside, closing?⟩ := b
      obtain ⟨start', fence', opening', inside', closing?'⟩ := b'
      subst hstart hline
      obtain rfl : start' = start := hstart'
      obtain rfl : opening' = opening := hline'
      obtain rfl : fence = fence' := rule.unique hopens hopens'
      obtain ⟨rfl, rfl, rfl⟩ := UpToFirst.unique hcloses hcloses'
      rw [ih h']

/-! ## Two rules -/

theorem Fenced.obeys (h : Fenced rule n ls bs) : ∀ b ∈ bs, b.Obeys rule := by
  induction h with
  | nil => simp
  | plain hplain h ih => exact ih
  | block hstart hline hopens hcloses h ih =>
    subst hline
    exact List.forall_mem_cons.mpr ⟨⟨hopens, hcloses.first⟩, ih⟩

/-- Blocks by the wider rule are those by the narrower one if their lines are. -/
theorem Fenced.of_obeys (hrule : rule.Refines rule') (h : Fenced rule' n ls bs)
    (hobeys : ∀ b ∈ bs, b.Obeys rule) : Fenced rule n ls bs := by
  induction h with
  | nil => exact .nil
  | plain hplain h ih => exact .plain (fun fence hopens => hplain fence (hrule.opens hopens)) (ih hobeys)
  | block hstart hline hopens hcloses h ih =>
    obtain ⟨⟨hopens, hclosing⟩, hobeys⟩ := List.forall_mem_cons.mp hobeys
    refine .block hstart hline (hline ▸ hopens) ⟨hcloses.eq, ?_, hclosing, hcloses.behind⟩ (ih hobeys)
    exact fun line hinside hclose => hcloses.before line hinside (hrule.closes hclose)

theorem Fenced.le_start (h : Fenced rule n ls bs) : ∀ b ∈ bs, n ≤ b.start := by
  induction h with
  | nil => simp
  | plain hplain h ih => exact fun b hb => Nat.le_of_add_right_le (ih b hb)
  | block hstart hline hopens hcloses h ih =>
    exact List.forall_mem_cons.mpr ⟨hstart.ge, fun b hb => Nat.le_of_add_right_le (ih b hb)⟩

/-- No block of later lines is one that starts before them. -/
theorem Fenced.map_block_ne {b : FencedLines} {blocks : List Block} (h : Fenced rule n ls bs)
    (hlt : b.start < n) : bs.map FencedLines.block ≠ b.block :: blocks := by
  intro hblocks
  obtain ⟨other, bs, rfl, hother, -⟩ := List.map_eq_cons_iff.mp hblocks
  have hle := h.le_start other List.mem_cons_self
  have hstart : (other.start : Int) = b.start := congrArg (·.span.start) hother
  omega

/-- Where the blocks by two rules are the same, their lines are the same. -/
theorem Fenced.eq_of_map_block_eq (hrule : rule.Refines rule') (h : Fenced rule n ls bs)
    (h' : Fenced rule' n ls bs') (hraw : ∀ line ∈ ls, line.raw ≠ [])
    (hblocks : bs.map FencedLines.block = bs'.map FencedLines.block) : bs = bs' := by
  induction h generalizing bs' with
  | nil =>
    cases h'
    rfl
  | @plain n line ls bs hplain h ih =>
    obtain ⟨hline, hls⟩ := List.forall_mem_cons.mp hraw
    have hpos := List.length_pos_iff.mpr hline
    cases h' with
    | plain hplain' h' => exact ih h' hls hblocks
    | block hstart' hline' hopens' hcloses' h' => exact absurd hblocks (h.map_block_ne (by omega))
  | @block n line ls rest b bs hstart hline hopens hcloses h ih =>
    obtain ⟨hne, hls⟩ := List.forall_mem_cons.mp hraw
    have hpos := List.length_pos_iff.mpr hne
    cases h' with
    | plain hplain' h' => exact absurd hblocks.symm (h'.map_block_ne (by omega))
    | @block _ _ _ rest' b' bs' hstart' hline' hopens' hcloses' h' =>
      obtain ⟨hblock, hmap⟩ := List.cons_eq_cons.mp hblocks
      obtain ⟨start, fence, opening, inside, closing?⟩ := b
      obtain ⟨start', fence', opening', inside', closing?'⟩ := b'
      subst hstart hline
      obtain rfl : start' = start := hstart'
      obtain rfl : opening' = opening := hline'
      obtain rfl : fence = fence' := rule'.unique (hrule.opens hopens) hopens'
      have htext : textOf inside = textOf inside' := congrArg Block.body hblock
      obtain ⟨rfl, rfl, rfl⟩ := hcloses.eq_of_textOf_eq hcloses' hls htext
      obtain ⟨-, -, hrest⟩ := hcloses.forall hls
      rw [ih h' hrest hmap]

/-! ## The scan -/

variable {lines : List Line} {blocks : List Block} {line : EndedLine} {b : OpenBlock}

/-- The text of a line is what the scan reads of it. -/
def IsRead (line : EndedLine) : Prop :=
  Text.dropEndWhile (fun c => c == '\r' || c == '\n') line.raw = line.body

theorem Scan.read_plain (hread : IsRead line) (hplain : Fence.opening? line.body = none) :
    Scan.read ⟨n, lines, blocks, none⟩ line.raw
      = ⟨n + line.raw.length, ⟨line.body, n, false⟩ :: lines, blocks, none⟩ := by
  rw [IsRead] at hread
  simp [read, hread, hplain]

theorem Scan.read_opening (hread : IsRead line) (hopens : Fence.opening? line.body = some fence) :
    Scan.read ⟨n, lines, blocks, none⟩ line.raw
      = ⟨n + line.raw.length, ⟨line.body, n, true⟩ :: lines, blocks,
        some ⟨fence, n, n + line.raw.length, []⟩⟩ := by
  rw [IsRead] at hread
  simp [read, hread, hopens]

theorem Scan.read_closing (hread : IsRead line) (hcloses : b.fence.closes line.body = true) :
    Scan.read ⟨n, lines, blocks, some b⟩ line.raw = ⟨n + line.raw.length, ⟨line.body, n, true⟩ :: lines,
      b.close (n + line.body.length) :: blocks, none⟩ := by
  rw [IsRead] at hread
  simp [read, hread, hcloses]

/-- Lines that do not close a block are kept in it. -/
theorem Scan.foldl_read_inside (lines : List Line) {inside : List EndedLine}
    (hinside : ∀ line ∈ inside, IsRead line ∧ b.fence.closes line.body = false) :
    ∃ lines', (inside.map EndedLine.raw).foldl Scan.read ⟨n, lines, blocks, some b⟩
      = ⟨n + (textOf inside).length, lines', blocks,
        some { b with lines := (inside.map EndedLine.raw).reverse ++ b.lines }⟩ := by
  induction inside generalizing n lines b with
  | nil => exact ⟨lines, rfl⟩
  | cons line inside ih =>
    obtain ⟨⟨hread, hkeep⟩, hinside⟩ := List.forall_mem_cons.mp hinside
    rw [IsRead] at hread
    have hline : Scan.read ⟨n, lines, blocks, some b⟩ line.raw = ⟨n + line.raw.length,
        ⟨line.body, n, true⟩ :: lines, blocks, some { b with lines := line.raw :: b.lines }⟩ := by
      simp [read, hread, hkeep]
    obtain ⟨lines', hfold⟩ := ih (n := n + line.raw.length) (b := { b with lines := line.raw :: b.lines })
      (⟨line.body, n, true⟩ :: lines) hinside
    refine ⟨lines', ?_⟩
    rw [List.map_cons, List.foldl_cons, hline, hfold]
    simp [Nat.add_assoc]

/-- What the scan keeps of a block while it is open. -/
def FencedLines.openBlock (b : FencedLines) : OpenBlock :=
  ⟨b.fence, b.start, b.start + b.opening.raw.length, (b.inside.map EndedLine.raw).reverse⟩

theorem FencedLines.close_openBlock (b : FencedLines) :
    b.openBlock.close (b.start + b.opening.raw.length + (textOf b.inside).length
      + (b.closing?.map (·.body.length)).getD 0) = b.block := by
  simp [OpenBlock.close, openBlock, block, textOf, List.flatMap]

/-- The opening line of a block and the lines inside are read. -/
theorem FencedLines.foldl_read (b : FencedLines) (lines : List Line) (blocks : List Block)
    (hopening : IsRead b.opening) (hopens : Fence.opening? b.opening.body = some b.fence)
    (hinside : ∀ line ∈ b.inside, IsRead line ∧ b.fence.closes line.body = false) :
    ∃ lines', ((b.opening :: b.inside).map EndedLine.raw).foldl Scan.read ⟨b.start, lines, blocks, none⟩
      = ⟨b.start + b.opening.raw.length + (textOf b.inside).length, lines', blocks, some b.openBlock⟩ := by
  rw [List.map_cons, List.foldl_cons, Scan.read_opening hopening hopens]
  obtain ⟨lines', hfold⟩ := Scan.foldl_read_inside (n := b.start + b.opening.raw.length)
    (b := ⟨b.fence, b.start, b.start + b.opening.raw.length, []⟩)
    (⟨b.opening.body, b.start, true⟩ :: lines) hinside
  rw [List.append_nil] at hfold
  exact ⟨lines', hfold⟩

/-- The scan finds the blocks of the lenient rule. -/
theorem Fenced.blocks_foldl_read (h : Fenced .lenient n ls bs) (hread : ∀ line ∈ ls, IsRead line)
    (lines : List Line) (blocks : List Block) :
    ((ls.map EndedLine.raw).foldl Scan.read ⟨n, lines, blocks, none⟩).outline.blocks
      = blocks.reverse ++ bs.map FencedLines.block := by
  induction h generalizing lines blocks with
  | nil => simp [Scan.outline]
  | @plain n line ls bs hplain h ih =>
    obtain ⟨hline, hread⟩ := List.forall_mem_cons.mp hread
    have hnone : Fence.opening? line.body = none := by
      refine Option.eq_none_iff_forall_ne_some.mpr fun fence hfence => ?_
      exact hplain fence (Fence.opening?_eq_some_iff.mp hfence)
    rw [List.map_cons, List.foldl_cons, Scan.read_plain hline hnone]
    exact ih hread _ blocks
  | @block n line ls rest b bs hstart hline hopens hcloses h ih =>
    obtain ⟨hopening, hls⟩ := List.forall_mem_cons.mp hread
    obtain ⟨hinside, hclosing, hrest⟩ := hcloses.forall hls
    obtain ⟨info, hstarts⟩ := hopens
    subst hstart hline
    have hcloses_iff : ∀ line, b.fence.closes line = true ↔ FenceRule.lenient.closes b.fence line :=
      fun line => Fence.closes_iff hstarts.isBlank_mark
    have hkeep : ∀ line ∈ b.inside, b.fence.closes line.body = false := by
      refine fun line hline => Bool.eq_false_iff.mpr fun hclose => ?_
      exact hcloses.before line hline ((hcloses_iff _).mp hclose)
    obtain ⟨lines', hfold⟩ := b.foldl_read lines blocks hopening hstarts.opening?
      fun line hline => ⟨hinside line hline, hkeep line hline⟩
    rw [hcloses.eq, ← List.cons_append, List.map_append, List.foldl_append, hfold]
    have hblock := b.close_openBlock
    cases hlast : b.closing? with
    | none =>
      -- the block goes on to the end, and is closed there
      obtain rfl := hcloses.behind hlast
      cases h
      rw [hlast, Option.map_none, Option.getD_none, Nat.add_zero] at hblock
      simp [Scan.outline, hblock]
    | some closing =>
      have hclose := (hcloses_iff _).mpr (hcloses.first closing hlast)
      have hlength : b.start + b.opening.raw.length + (textOf b.inside).length + closing.raw.length
          = b.start + (textOf b.lines).length := by
        simp [FencedLines.lines, hlast, Nat.add_assoc]
      rw [hlast, Option.map_some, Option.getD_some] at hblock
      rw [Option.toList_some, List.singleton_append, List.map_cons, List.foldl_cons,
        Scan.read_closing (hclosing closing hlast) hclose, hlength, ih hrest, hblock]
      simp

/-! ## Introductions -/

/-- The blocks that lines have by a rule, and no other ones. -/
def AreBlocks (rule : FenceRule) (ls : List EndedLine) (bs : List FencedLines) : Prop :=
  ∀ others, Fenced rule 0 ls others ↔ others = bs

theorem Fenced.areBlocks (h : Fenced rule 0 ls bs) : AreBlocks rule ls bs := by
  intro others
  constructor
  · intro hothers
    exact hothers.unique h
  · rintro rfl
    exact h

/-- The blocks that are found in lines are those of the lenient rule. They are those of Markdown exactly if
their opening and closing lines are lines of Markdown. -/
theorem scan_fenced (h : EndedBy [['\n']] ls) :
    ∃ found, AreBlocks .lenient ls found ∧ (scan (textOf ls)).blocks = found.map FencedLines.block
      ∧ ∃ rendered, AreBlocks .markdown ls rendered
        ∧ ((scan (textOf ls)).blocks = rendered.map FencedLines.block ↔
          ∀ b ∈ found, b.Obeys .markdown) := by
  obtain ⟨found, hfound⟩ := Fenced.exists .lenient 0 ls
  obtain ⟨rendered, hrendered⟩ := Fenced.exists .markdown 0 ls
  have hends : EndedBy Text.lineFeeds ls := h.mono (by simp [Text.lineFeeds])
  have hblocks : (scan (textOf ls)).blocks = found.map FencedLines.block := by
    have hread := hfound.blocks_foldl_read hends.dropEndWhile_raw [] []
    rw [← Text.lines_textOf hends] at hread
    exact hread
  refine ⟨found, hfound.areBlocks, hblocks, rendered, hrendered.areBlocks, ?_⟩
  rw [hblocks]
  constructor
  · intro hmap
    obtain rfl : rendered = found := hrendered.eq_of_map_block_eq FenceRule.markdown_refines_lenient hfound
      (h.raw_ne_nil (by simp)) hmap.symm
    exact hrendered.obeys
  · intro hobeys
    rw [hrendered.unique (hfound.of_obeys FenceRule.markdown_refines_lenient hobeys)]

/-- An example in a block, and a block that is not closed. -/
def fencedLines : List EndedLine :=
  [⟨"``` Typ".toList, ['\n']⟩, ⟨"#f()".toList, ['\n']⟩, ⟨"``".toList, ['\n']⟩,
    ⟨"  ```` ".toList, ['\n']⟩, ⟨"~~~".toList, ['\n']⟩, ⟨"```".toList, []⟩]

/-- A shorter run does not close the first block, and another mark does not close the second one. -/
theorem scan_fenced_two_marks : EndedBy [['\n']] fencedLines
    ∧ (scan (textOf fencedLines)).blocks
      = [⟨"typ", "#f()\n``\n".toList, 8, .between 0 23⟩, ⟨"", "```".toList, 28, .between 24 31⟩]
    ∧ ∃ found, AreBlocks .lenient fencedLines found
      ∧ (scan (textOf fencedLines)).blocks = found.map FencedLines.block
      ∧ ∃ rendered, AreBlocks .markdown fencedLines rendered
        ∧ ((scan (textOf fencedLines)).blocks = rendered.map FencedLines.block ↔
          ∀ b ∈ found, b.Obeys .markdown) := by
  have hends : EndedBy [['\n']] fencedLines := by decide
  exact ⟨hends, by decide, scan_fenced hends⟩

/-- Code between backticks in one line. -/
def inlineLines : List EndedLine := [⟨"```typ #f() ``` calls".toList, ['\n']⟩, ⟨"More".toList, ['\n']⟩]

/-- A block with an indented run in it. -/
def indentedLines : List EndedLine :=
  [⟨"~~~typ".toList, ['\n']⟩, ⟨"    ~~~".toList, ['\n']⟩, ⟨"~~~".toList, ['\n']⟩]

/-- By the rule of Markdown, the backticks in one line do not open a block, and the indented line does not close
one. -/
theorem scan_fenced_not_markdown :
    (EndedBy [['\n']] inlineLines ∧ AreBlocks .markdown inlineLines []
      ∧ (scan (textOf inlineLines)).blocks = [⟨"typ", "More\n".toList, 22, .between 0 27⟩])
    ∧ EndedBy [['\n']] indentedLines ∧ (∃ b, AreBlocks .markdown indentedLines [b]
        ∧ b.block = ⟨"typ", "    ~~~\n".toList, 7, .between 0 18⟩)
      ∧ (scan (textOf indentedLines)).blocks
        = [⟨"typ", [], 7, .between 0 14⟩, ⟨"", [], 19, .between 15 19⟩] := by
  have hnone : Fenced .markdown 0 inlineLines [] := by
    refine .plain (fun fence hopens => ?_) (.plain (fun fence hopens => ?_) .nil)
    · obtain ⟨hread, hinfo⟩ := FenceRule.markdown_opens_iff.mp hopens
      have hfence : Fence.opening? "```typ #f() ``` calls".toList = some ⟨'\x60', 3, "typ"⟩ := by
        decide
      obtain rfl := Option.some.inj (hfence.symm.trans hread)
      exact hinfo rfl (by decide)
    · cases (FenceRule.markdown_opens_iff.mp hopens).1
  have hone : Fenced .markdown 0 indentedLines [⟨0, ⟨'~', 3, "typ"⟩, ⟨"~~~typ".toList, ['\n']⟩,
      [⟨"    ~~~".toList, ['\n']⟩], some ⟨"~~~".toList, ['\n']⟩⟩] := by
    refine .block rfl rfl ?_ ⟨rfl, ?_, ?_, by simp⟩ .nil
    · exact FenceRule.markdown_opens_iff.mpr ⟨by decide, by simp⟩
    · refine List.forall_mem_singleton.mpr fun hclose => ?_
      cases FenceRule.indent_of_markdown_closes hclose (by decide) (by decide)
    · rintro line ⟨⟩
      exact ⟨3, 0, [], Nat.le_refl 3, Nat.zero_le 3, by simp, rfl⟩
  exact ⟨⟨by decide, hnone.areBlocks, by decide⟩, by decide,
    ⟨_, hone.areBlocks, by decide⟩, by decide⟩

end TypstLint.Readme
