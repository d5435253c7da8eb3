import TypstLint.Proofs.Except
import TypstLint.Proofs.Markup.Places
import TypstLint.Proofs.Text.Lines
import TypstLint.Rules.Files

set_option autoImplicit false

/-! # The places of lines and blocks

The lines of an introduction cover its text, but for line feeds and carriage returns between them. The
bodies of its code blocks are pieces of the text, in spans that lie apart, and the lines in these spans
are the lines of code (`readme_splits`). So what is found in an example is shown where it stands. -/

namespace TypstLint.Text

/-! ## Lines with what ends them -/

/-- A line of a text with its end, which only the last line may lack. -/
inductive IsRawLine : List Char → Prop
  | ended {body : List Char} {c : Char} (hbody : ∀ b ∈ body, isLineEnd b = false)
      (hc : isLineEnd c = true) : IsRawLine (body ++ [c])
  | broken {body : List Char} (hbody : ∀ b ∈ body, isLineEnd b = false) :
      IsRawLine (body ++ ['\r', '\n'])
  | last {body : List Char} (hbody : ∀ b ∈ body, isLineEnd b = false) (hne : body ≠ []) :
      IsRawLine body

variable {c : Char} {raw : List Char} {ls : List (List Char)}

theorem IsRawLine.ne_nil (h : IsRawLine raw) : raw ≠ [] := by
  cases h with
  | ended => simp
  | broken => simp
  | last hbody hne => exact hne

/-- No line goes on behind a line feed. -/
theorem IsRawLine.eq_lineFeed (h : IsRawLine raw) (hhead : raw.head? = some '\n') : raw = ['\n'] := by
  have hend : isLineEnd '\n' = true := rfl
  cases h with
  | @ended body c hbody hc =>
    cases body with
    | nil => simpa using hhead
    | cons b body =>
      obtain rfl : b = '\n' := by simpa using hhead
      simp [hend] at hbody
  | @broken body hbody =>
    cases body with
    | nil => simp at hhead
    | cons b body =>
      obtain rfl : b = '\n' := by simpa using hhead
      simp [hend] at hbody
  | last hbody hne =>
    obtain ⟨rest, rfl⟩ := List.head?_eq_some_iff.mp hhead
    simp [hend] at hbody

theorem isRawLine_singleton (c : Char) : IsRawLine [c] := by
  cases hc : isLineEnd c with
  | true => exact @IsRawLine.ended [] c (by simp) hc
  | false => exact .last (by simpa using hc) (by simp)

theorem IsRawLine.cons (h : IsRawLine raw) (hc : isLineEnd c = false) : IsRawLine (c :: raw) := by
  have hcons : ∀ {body : List Char}, (∀ b ∈ body, isLineEnd b = false) →
      ∀ b ∈ c :: body, isLineEnd b = false :=
    fun hbody => List.forall_mem_cons.mpr ⟨hc, hbody⟩
  cases h with
  | ended hbody hend => exact .ended (hcons hbody) hend
  | broken hbody => exact .broken (hcons hbody)
  | last hbody hne => exact .last (hcons hbody) (by simp)

theorem isRawLine_of_mem_consLine (h : ∀ l ∈ ls, IsRawLine l) : ∀ l ∈ consLine c ls, IsRawLine l := by
  cases ls with
  | nil => simpa [consLine] using isRawLine_singleton c
  | cons line rest =>
    obtain ⟨hline, hrest⟩ := List.forall_mem_cons.mp h
    simp only [consLine]
    split
    · next hbreak =>
      -- a carriage return in front of a line feed, and the line feed is a line of its own
      simp only [Bool.and_eq_true, beq_iff_eq] at hbreak
      obtain ⟨rfl, hhead⟩ := hbreak
      rw [hline.eq_lineFeed hhead]
      exact List.forall_mem_cons.mpr ⟨@IsRawLine.broken [] (by simp), hrest⟩
    · split
      · exact List.forall_mem_cons.mpr ⟨isRawLine_singleton c, h⟩
      · next hc => exact List.forall_mem_cons.mpr ⟨hline.cons (by simpa using hc), hrest⟩

theorem isRawLine_of_mem_lines (cs : List Char) : ∀ raw ∈ lines cs, IsRawLine raw := by
  induction cs with
  | nil => simp [lines]
  | cons c cs ih => exact isRawLine_of_mem_consLine ih

/-- What a line may have behind its text: other line ends are kept in the text. -/
def lineBreaks : List (List Char) := [[], ['\n'], ['\r'], ['\r', '\n']]

theorem IsRawLine.exists_break (h : IsRawLine raw) :
    ∃ br ∈ lineBreaks, dropEndWhile (fun c => c == '\r' || c == '\n') raw ++ br = raw := by
  cases h with
  | @ended body c hbody hc =>
    cases hbreak : c == '\r' || c == '\n' with
    | true =>
      refine ⟨[c], ?_, by rw [dropEndWhile_append_of_forall (by simpa using hbreak), dropEndWhile_break hbody]⟩
      simp only [Bool.or_eq_true, beq_iff_eq] at hbreak
      rcases hbreak with rfl | rfl
      · simp [lineBreaks]
      · simp [lineBreaks]
    | false =>
      have hlast : dropEndWhile (fun c => c == '\r' || c == '\n') (body ++ [c]) = body ++ [c] :=
        dropEndWhile_eq_self (by simpa using hbreak)
      exact ⟨[], by simp [lineBreaks], by rw [hlast, List.append_nil]⟩
  | broken hbody =>
    refine ⟨['\r', '\n'], by simp [lineBreaks], ?_⟩
    rw [dropEndWhile_append_of_forall (by simp), dropEndWhile_break hbody]
  | last hbody hne => exact ⟨[], by simp [lineBreaks], by rw [dropEndWhile_break hbody, List.append_nil]⟩

end TypstLint.Text

namespace TypstLint.Readme

open Text (Span lineBreaks)

/-! ## Lines that cover a text -/

/-- Lines cover a text from an offset on: each starts where the one before it and its break end. -/
inductive Covers : Nat → List Line → List Char → Prop
  | nil {n : Nat} : Covers n [] []
  | cons {n : Nat} {line : Line} {lines : List Line} {br rest : List Char} (hstart : line.start = n)
      (hbr : br ∈ lineBreaks) (hne : line.text ++ br ≠ [])
      (h : Covers (n + (line.text ++ br).length) lines rest) :
      Covers n (line :: lines) (line.text ++ br ++ rest)

variable {n : Nat} {line : Line} {lines : List Line} {done raw text br : List Char}

theorem Covers.concat (h : Covers n lines done) (line : Line) (hstart : line.start = n + done.length)
    (hbr : br ∈ lineBreaks) (hne : line.text ++ br ≠ []) :
    Covers n (lines ++ [line]) (done ++ (line.text ++ br)) := by
  induction h with
  | nil => simpa using Covers.cons (by simpa using hstart) hbr hne .nil
  | cons hstart' hbr' hne' h ih =>
    rw [List.append_assoc]
    refine .cons hstart' hbr' hne' (ih ?_)
    rw [hstart, List.length_append, Nat.add_assoc]

theorem Covers.bounds (h : Covers n lines done) :
    ∀ line ∈ lines, n ≤ line.start ∧ line.start < n + done.length
      ∧ line.start + line.text.length ≤ n + done.length := by
  induction h with
  | nil => simp
  | cons hstart hbr hne h ih =>
    have hpos := List.length_pos_iff.mpr hne
    simp only [List.length_append] at hpos ih ⊢
    refine List.forall_mem_cons.mpr ⟨by omega, fun line hline => ?_⟩
    have hline := ih line hline
    omega

theorem Covers.pairwise (h : Covers n lines done) : lines.Pairwise (·.start < ·.start) := by
  induction h with
  | nil => exact .nil
  | cons hstart hbr hne h ih =>
    have hpos := List.length_pos_iff.mpr hne
    refine List.pairwise_cons.mpr ⟨fun line hline => ?_, ih⟩
    have hline := (h.bounds line hline).1
    omega

theorem Covers.slice (h : Covers n lines done) (front : List Char) (hn : front.length = n) :
    ∀ line ∈ lines, line.span.slice (front ++ done) = line.text := by
  induction h generalizing front with
  | nil => simp
  | @cons n line lines br rest hstart hbr hne h ih =>
    refine List.forall_mem_cons.mpr ⟨?_, fun line' hline' => ?_⟩
    · rw [Line.span, Span.slice_ofLength, hstart, ← hn, List.drop_left, List.append_assoc, List.take_left]
    · have hmoved := ih (front ++ (line.text ++ br)) (by rw [List.length_append, hn]) line' hline'
      rwa [List.append_assoc] at hmoved

/-- Lines that are pieces of a text, one behind the other, and cover it up to their breaks. -/
structure SplitsLines (text : List Char) (lines : List Line) : Prop where
  covers : Covers 0 lines text
  increasing : lines.Pairwise (·.start < ·.start)
  slice : ∀ line ∈ lines, line.span.slice text = line.text

theorem Covers.splitsLines (h : Covers 0 lines text) : SplitsLines text lines :=
  ⟨h, h.pairwise, h.slice [] rfl⟩

/-! ## Blocks that lie apart -/

/-- A line starts in the span of a block. -/
def Block.HasLine (block : Block) (line : Line) : Prop :=
  block.span.start ≤ line.start ∧ line.start < block.span.stop

/-- A block starts with a line, which is a fence and names the language. -/
def Block.IsOpenedBy (block : Block) (line : Line) : Prop :=
  block.span.start = line.start
    ∧ ∃ fence, Fence.opening? line.text = some fence ∧ fence.language = block.language

/-- The span of the body of a block. -/
def Block.bodySpan (block : Block) : Span := .ofLength block.bodyStart block.body.length

/-- Blocks of a text with given lines: their bodies are pieces of the text, their spans lie apart and
hold the bodies, and the lines in them are the lines of code. Every fence outside of a block opens one. -/
structure SplitsBlocks (text : List Char) (lines : List Line) (blocks : List Block) : Prop where
  slice : ∀ block ∈ blocks, block.bodySpan.slice text = block.body
  apart : blocks.Pairwise (·.span.IsBefore ·.span)
  within : ∀ block ∈ blocks, block.span.Within text.length
  holdsBody : ∀ block ∈ blocks,
    block.span.start ≤ block.bodySpan.start ∧ block.bodySpan.stop ≤ block.span.stop
  inCode_iff : ∀ line ∈ lines, line.inCode = true ↔ ∃ block ∈ blocks, block.HasLine line
  opened : ∀ block ∈ blocks, ∃ line ∈ lines, block.IsOpenedBy line
  plain : ∀ line ∈ lines, line.inCode = false → Fence.opening? line.text = none

theorem slice_append {block : Block} (h : block.span.Within done.length)
    (hbody : block.bodySpan.stop ≤ block.span.stop) :
    block.bodySpan.slice (done ++ raw) = block.bodySpan.slice done := by
  have hle : block.bodyStart + block.body.length ≤ done.length :=
    Int.ofNat_le.mp (Int.le_trans hbody h.le)
  rw [Block.bodySpan, Span.slice_ofLength, Span.slice_ofLength,
    List.drop_append_of_le_length (by omega), List.take_append_of_le_length (by simp; omega)]

variable {blocks : List Block} {b : Block}

theorem not_hasLine (h : b.span.Within done.length) (hstart : line.start = done.length) :
    ¬ b.HasLine line := by
  rintro ⟨-, hlt⟩
  have hle := h.le
  omega

/-- A line outside of the blocks. -/
theorem SplitsBlocks.skip (h : SplitsBlocks done lines blocks) (line : Line)
    (hstart : line.start = done.length) (hcode : line.inCode = false)
    (hfence : Fence.opening? line.text = none) :
    SplitsBlocks (done ++ raw) (lines ++ [line]) blocks where
  slice := by
    intro block hblock
    rw [slice_append (h.within block hblock) (h.holdsBody block hblock).2]
    exact h.slice block hblock
  apart := h.apart
  within := by
    intro block hblock
    exact (h.within block hblock).mono (by simp)
  holdsBody := h.holdsBody
  inCode_iff := by
    refine List.forall_mem_append.mpr ⟨h.inCode_iff, ?_⟩
    have hnone : ¬ ∃ block ∈ blocks, block.HasLine line := by
      rintro ⟨block, hblock, hline⟩
      exact not_hasLine (h.within block hblock) hstart hline
    simpa [hcode] using hnone
  opened := by
    intro block hblock
    obtain ⟨opening, hopening, hopened⟩ := h.opened block hblock
    exact ⟨opening, List.mem_append_left _ hopening, hopened⟩
  plain := List.forall_mem_append.mpr ⟨h.plain, List.forall_mem_singleton.mpr fun _ => hfence⟩

/-- The last block gets the line behind the text. It is new, or it had ended where the text ends. -/
theorem SplitsBlocks.extend {last : List Block} (h : SplitsBlocks done lines (blocks ++ last))
    (hlines : ∀ line ∈ lines, line.start < done.length) (hstart : line.start = done.length)
    (hcode : line.inCode = true)
    (hlast : (last = [] ∧ b.IsOpenedBy line) ∨ ∃ o, last = [o] ∧ o.span.start = b.span.start
      ∧ o.language = b.language ∧ o.span.stop = done.length)
    (hslice : b.bodySpan.slice (done ++ raw) = b.body) (hstop : done.length < b.span.stop)
    (hwithin : b.span.Within (done ++ raw).length)
    (hbody : b.span.start ≤ b.bodySpan.start ∧ b.bodySpan.stop ≤ b.span.stop) :
    SplitsBlocks (done ++ raw) (lines ++ [line]) (blocks ++ [b]) where
  slice := by
    refine List.forall_mem_append.mpr ⟨fun block hblock => ?_, List.forall_mem_singleton.mpr hslice⟩
    have hmem := List.mem_append_left last hblock
    rw [slice_append (h.within block hmem) (h.holdsBody block hmem).2]
    exact h.slice block hmem
  apart := by
    obtain ⟨hblocks, -, hbefore⟩ := List.pairwise_append.mp h.apart
    refine List.pairwise_append.mpr ⟨hblocks, List.pairwise_singleton _ _, fun block hblock => ?_⟩
    refine List.forall_mem_singleton.mpr ?_
    have hblock' := h.within block (List.mem_append_left last hblock)
    rcases hlast with ⟨-, hnew, -⟩ | ⟨o, rfl, hsame, -, -⟩
    · exact hblock'.isBefore (by rw [hnew, hstart]; exact hblock'.le)
    · have ho := hbefore block hblock o List.mem_cons_self
      rwa [Span.IsBefore, hsame] at ho
  within := by
    refine List.forall_mem_append.mpr ⟨fun block hblock => ?_, List.forall_mem_singleton.mpr hwithin⟩
    exact (h.within block (List.mem_append_left last hblock)).mono (by simp)
  holdsBody := by
    refine List.forall_mem_append.mpr ⟨fun block hblock => ?_, List.forall_mem_singleton.mpr hbody⟩
    exact h.holdsBody block (List.mem_append_left last hblock)
  inCode_iff := by
    refine List.forall_mem_append.mpr ⟨fun line hline => ?_, List.forall_mem_singleton.mpr ?_⟩
    · -- a line before is in the last block if it was in it before
      have hb : b.HasLine line ↔ ∃ o ∈ last, o.HasLine line := by
        have hlt := hlines line hline
        rcases hlast with ⟨rfl, hnew, -⟩ | ⟨o, rfl, hsame, -, hend⟩
        · simp only [Block.HasLine, hnew, hstart, List.not_mem_nil, false_and, exists_false, iff_false]
          omega
        · simp only [Block.HasLine, hsame, hend, List.mem_singleton, exists_eq_left]
          omega
      rw [h.inCode_iff line hline]
      simp only [List.mem_append, or_and_right, exists_or, List.mem_singleton, exists_eq_left, hb]
    · refine iff_of_true hcode ⟨b, by simp, ?_, hstart ▸ hstop⟩
      rcases hlast with ⟨-, hnew, -⟩ | ⟨o, rfl, hsame, -, hend⟩
      · exact Int.le_of_eq hnew
      · have ho := (h.within o (by simp)).lt
        omega
  opened := by
    refine List.forall_mem_append.mpr ⟨fun block hblock => ?_, List.forall_mem_singleton.mpr ?_⟩
    · obtain ⟨opening, hopening, hopened⟩ := h.opened block (List.mem_append_left last hblock)
      exact ⟨opening, List.mem_append_left _ hopening, hopened⟩
    · rcases hlast with ⟨-, hnew⟩ | ⟨o, rfl, hsame, hlanguage, -⟩
      · exact ⟨line, by simp, hnew⟩
      · obtain ⟨opening, hopening, hopened⟩ := h.opened o (by simp)
        rw [Block.IsOpenedBy, hsame, hlanguage] at hopened
        exact ⟨opening, List.mem_append_left _ hopening, hopened⟩
  plain := by
    refine List.forall_mem_append.mpr ⟨h.plain, List.forall_mem_singleton.mpr fun hplain => ?_⟩
    rw [hcode] at hplain
    cases hplain

/-! ## Reading a line -/

/-- What a text holds up to where it was read. -/
def Scan.outline (s : Scan) : Outline :=
  ⟨s.lines.reverse, s.blocks.reverse ++ s.open?.toList.map (·.close s.offset)⟩

/-- The text before an offset was read and split. The open block has a fence, and its
body ends there. -/
structure Scan.Splits (done : List Char) (s : Scan) : Prop where
  offset : s.offset = done.length
  covers : Covers 0 s.outline.lines done
  blocks : SplitsBlocks done s.outline.lines s.outline.blocks
  openBlock : ∀ b ∈ s.open?, 0 < b.fence.length ∧ b.bodyStart + b.lines.flatten.length = done.length

theorem Fence.length_pos_of_opening? {fence : Fence} (h : Fence.opening? text = some fence) :
    text ≠ [] ∧ 0 < fence.length := by
  unfold Fence.opening? at h
  split at h
  · cases h
  · next n hindent =>
    dsimp only at h
    split at h
    · cases h
    · next mark rest hdrop =>
      split at h
      · next hmark =>
        obtain rfl := Option.some.inj h
        refine ⟨fun hnil => by simp [hnil] at hdrop, Nat.lt_of_lt_of_le Nat.zero_lt_one ?_⟩
        exact Nat.le_add_right 1 _
      · cases h

theorem Fence.ne_nil_of_closes {fence : Fence} (hfence : 0 < fence.length)
    (h : fence.closes text = true) : text ≠ [] := by
  rintro rfl
  simp only [Fence.closes, Bool.and_eq_true, decide_eq_true_eq] at h
  have hnil : (Text.trim []).length = 0 := rfl
  omega

theorem OpenBlock.length_body_close (b : OpenBlock) (stop : Nat) :
    (b.close stop).body.length = b.lines.flatten.length := by
  simp [close, List.length_flatten, List.sum_reverse]

theorem OpenBlock.bodySpan_close (b : OpenBlock) (stop : Nat) :
    (b.close stop).bodySpan = .ofLength b.bodyStart b.lines.flatten.length := by
  rw [Block.bodySpan, length_body_close, close]

theorem OpenBlock.body_close_cons (b : OpenBlock) (raw : List Char) (stop stop' : Nat) :
    ({ b with lines := raw :: b.lines }.close stop').body = (b.close stop).body ++ raw := by
  simp [close]

theorem slice_grow {block : Block} (h : block.bodySpan.slice done = block.body)
    (hend : block.bodyStart + block.body.length = done.length) :
    (Span.ofLength block.bodyStart (block.body ++ raw).length).slice (done ++ raw)
      = block.body ++ raw := by
  have hdrop : (done.drop block.bodyStart).length = block.body.length := by
    rw [List.length_drop]
    omega
  rw [Block.bodySpan, Span.slice_ofLength, ← hdrop, List.take_length] at h
  rw [Span.slice_ofLength, List.drop_append_of_le_length (by omega), h, List.take_length]

variable {s : Scan}

/-- The open block gets the line behind the text that was read. -/
theorem Scan.Splits.extend (h : s.Splits done) {b : OpenBlock} (hb : s.open? = some b) {block : Block}
    (hstart : line.start = done.length) (hcode : line.inCode = true) (hspan : block.span.start = b.start)
    (hlanguage : block.language = b.fence.language) (hbodyStart : block.bodyStart = b.bodyStart)
    (hslice : block.bodySpan.slice (done ++ raw) = block.body)
    (hstop : done.length < block.span.stop) (hle : block.span.stop ≤ (done ++ raw).length)
    (hbody : block.bodySpan.stop ≤ block.span.stop) :
    SplitsBlocks (done ++ raw) (s.lines.reverse ++ [line]) (s.blocks.reverse ++ [block]) := by
  have hblocks := h.blocks
  simp only [outline, hb, Option.toList_some, List.map_cons, List.map_nil, h.offset] at hblocks
  have hopen := hblocks.within (b.close done.length) (by simp)
  have hholds := (hblocks.holdsBody (b.close done.length) (by simp)).1
  refine hblocks.extend (fun line hline => ?_) hstart hcode (.inr ⟨_, rfl, hspan.symm, hlanguage.symm, rfl⟩)
    hslice hstop ⟨?_, ?_, hle⟩ ⟨?_, hbody⟩
  · simpa using (h.covers.bounds line hline).2.1
  · exact hspan ▸ hopen.nonneg
  · have hlt : block.span.start < done.length := hspan ▸ hopen.lt
    omega
  · show block.span.start ≤ (block.bodyStart : Int)
    rw [hspan, hbodyStart]
    exact hholds

/-- The open block ends in the line behind the text that was read. -/
theorem Scan.Splits.close (h : s.Splits done) {b : OpenBlock} (hb : s.open? = some b) (line : Line)
    (hstart : line.start = done.length) (hcode : line.inCode = true) (hpos : 0 < n)
    (hn : n ≤ raw.length) :
    SplitsBlocks (done ++ raw) (s.lines.reverse ++ [line])
      (s.blocks.reverse ++ [b.close (done.length + n)]) := by
  have hblocks := h.blocks
  simp only [outline, hb, Option.toList_some, List.map_cons, List.map_nil, h.offset] at hblocks
  have hmem : b.close done.length ∈ s.blocks.reverse ++ [b.close done.length] := by simp
  have hbody := (hblocks.holdsBody _ hmem).2
  have hstop : (b.close (done.length + n)).span.stop = done.length + n := rfl
  refine h.extend hb hstart hcode rfl rfl rfl ?_ (by omega) ?_ ?_
  · exact (slice_append (hblocks.within _ hmem) hbody).trans (hblocks.slice _ hmem)
  · rw [hstop, List.length_append]
    omega
  · have hsame : (b.close (done.length + n)).bodySpan = (b.close done.length).bodySpan := rfl
    have hend : (b.close done.length).span.stop = done.length := rfl
    rw [hsame]
    omega

/-- The open block goes on with the line behind the text that was read. -/
theorem Scan.Splits.grow (h : s.Splits done) {b : OpenBlock} (hb : s.open? = some b) (line : Line)
    (hstart : line.start = done.length) (hcode : line.inCode = true) (hne : raw ≠ []) :
    SplitsBlocks (done ++ raw) (s.lines.reverse ++ [line])
      (s.blocks.reverse ++ [{ b with lines := raw :: b.lines }.close (done ++ raw).length]) := by
  have hblocks := h.blocks
  simp only [outline, hb, Option.toList_some, List.map_cons, List.map_nil, h.offset] at hblocks
  have hpos := List.length_pos_iff.mpr hne
  have hslice := hblocks.slice (b.close done.length) (by simp)
  have hend := (h.openBlock b hb).2
  have hbody := b.body_close_cons raw done.length (done ++ raw).length
  have hstop : ({ b with lines := raw :: b.lines }.close (done ++ raw).length).span.stop
      = ((done ++ raw).length : Int) := rfl
  refine h.extend hb hstart hcode rfl rfl rfl ?_ ?_ (Int.le_of_eq hstop) ?_
  · rw [Block.bodySpan, hbody]
    refine slice_grow hslice ?_
    rw [OpenBlock.length_body_close]
    exact hend
  · rw [hstop, List.length_append]
    omega
  · rw [OpenBlock.bodySpan_close, hstop]
    simp only [Span.ofLength, List.flatten_cons, List.length_append]
    omega

/-- A block is opened by the line behind the text that was read. -/
theorem Scan.Splits.begin (h : s.Splits done) (hopen : s.open? = none) {fence : Fence} (line : Line)
    (hfence : Fence.opening? line.text = some fence) (hstart : line.start = done.length)
    (hcode : line.inCode = true) (hne : raw ≠ []) :
    SplitsBlocks (done ++ raw) (s.lines.reverse ++ [line]) (s.blocks.reverse
      ++ [(OpenBlock.mk fence done.length (done ++ raw).length []).close (done ++ raw).length]) := by
  have hblocks := h.blocks
  have hpos := List.length_pos_iff.mpr hne
  simp only [outline, hopen, Option.toList_none, List.map_nil] at hblocks
  refine hblocks.extend (fun line hline => ?_) hstart hcode
    (.inl ⟨rfl, congrArg Nat.cast hstart.symm, fence, hfence, rfl⟩) ?_ ?_
    (Span.within_between ?_ (Nat.le_refl _)) ⟨?_, ?_⟩
  · simpa using (h.covers.bounds line hline).2.1
  · rw [OpenBlock.bodySpan_close, Span.slice_ofLength]
    simp [OpenBlock.close]
  · show (done.length : Int) < (done ++ raw).length
    simp only [List.length_append]
    omega
  · simp only [List.length_append]
    omega
  · show (done.length : Int) ≤ (done ++ raw).length
    simp only [List.length_append]
    omega
  · rw [OpenBlock.bodySpan_close]
    simp [Span.ofLength, OpenBlock.close, Span.between]

theorem Scan.Splits.read (h : s.Splits done) (hraw : Text.IsRawLine raw) :
    (s.read raw).Splits (done ++ raw) := by
  obtain ⟨br, hbr, heq⟩ := hraw.exists_break
  have hle := Text.length_dropEndWhile_le (fun c => c == '\r' || c == '\n') raw
  have hoffset := h.offset
  have hblocks := h.blocks
  unfold Scan.read
  generalize Text.dropEndWhile (fun c => c == '\r' || c == '\n') raw = text at heq hle
  have hcovers : ∀ inCode, Covers 0 (s.lines.reverse ++ [⟨text, s.offset, inCode⟩]) (done ++ raw) := by
    intro inCode
    have hconcat := h.covers.concat ⟨text, s.offset, inCode⟩ (by simpa using hoffset) hbr
      (by rw [heq]; exact hraw.ne_nil)
    rwa [heq] at hconcat
  simp only
  split
  · next hopen =>
    cases hfence : Fence.opening? text with
    | none =>
      simp only [outline, hopen, Option.toList_none, List.map_nil, List.append_nil] at hblocks
      refine ⟨by simp [hoffset], ?_, ?_, by simp⟩
      · simpa [outline] using hcovers false
      · simpa [outline] using hblocks.skip ⟨text, s.offset, false⟩ hoffset rfl hfence
    | some fence =>
      have hlength := (Fence.length_pos_of_opening? hfence).2
      refine ⟨by simp [hoffset], ?_, ?_, by simpa [hoffset] using hlength⟩
      · simpa [outline] using hcovers true
      · simpa [outline, hoffset] using
          h.begin hopen ⟨text, s.offset, true⟩ hfence hoffset rfl hraw.ne_nil
  · next b hopen =>
    split
    · next hcloses =>
      have hpos := List.length_pos_iff.mpr (Fence.ne_nil_of_closes (h.openBlock b hopen).1 hcloses)
      refine ⟨by simp [hoffset], ?_, ?_, by simp⟩
      · simpa [outline] using hcovers true
      · simpa [outline, hoffset] using
          h.close hopen ⟨text, s.offset, true⟩ hoffset rfl hpos hle
    · refine ⟨by simp [hoffset], ?_, ?_, ?_⟩
      · simpa [outline] using hcovers true
      · simpa [outline, hoffset] using
          h.grow hopen ⟨text, s.offset, true⟩ hoffset rfl hraw.ne_nil
      · obtain ⟨hfence, hend⟩ := h.openBlock b hopen
        simp only [Option.mem_some_iff, forall_eq', List.flatten_cons, List.length_append]
        exact ⟨hfence, by omega⟩

theorem Scan.Splits.foldl_read {raws : List (List Char)} (h : s.Splits done)
    (hraws : ∀ raw ∈ raws, Text.IsRawLine raw) :
    (raws.foldl Scan.read s).Splits (done ++ raws.flatten) := by
  induction raws generalizing s done with
  | nil => simpa using h
  | cons raw raws ih =>
    obtain ⟨hraw, hraws⟩ := List.forall_mem_cons.mp hraws
    rw [List.flatten_cons, ← List.append_assoc]
    exact ih (h.read hraw) hraws

/-- A scan splits the whole text. -/
theorem scan_splits (text : List Char) :
    Covers 0 (scan text).lines text ∧ SplitsBlocks text (scan text).lines (scan text).blocks := by
  have hstart : Scan.Splits [] {} :=
    ⟨rfl, .nil, by constructor <;> simp [Scan.outline], by simp⟩
  have hread := hstart.foldl_read (Text.isRawLine_of_mem_lines text)
  rw [Text.flatten_lines, List.nil_append] at hread
  exact ⟨hread.covers, hread.blocks⟩

/-- The lines and the bodies of the code blocks lie in the text. -/
theorem scan_upTo (text : List Char) :
    (∀ line ∈ (scan text).lines, line.start + line.text.length ≤ text.length)
      ∧ ∀ block ∈ (scan text).blocks, block.bodyStart + block.body.length ≤ text.length := by
  obtain ⟨hcovers, hblocks⟩ := scan_splits text
  refine ⟨fun line hline => by simpa using (hcovers.bounds line hline).2.2, fun block hblock => ?_⟩
  exact Int.ofNat_le.mp (Int.le_trans (hblocks.holdsBody block hblock).2 (hblocks.within block hblock).le)

/-! ## Extensions -/

/-- Extensions are used in lines that are not empty. -/
theorem exists_line_of_mem_extensions {inList : Bool} {lines : List Line} {found : Extension × Span}
    (h : found ∈ extensions inList lines) :
    ∃ line ∈ lines, line.text ≠ [] ∧ found.2 = line.span := by
  have halert : isAlert [] = false := rfl
  have htask : isTask [] = false := rfl
  induction lines generalizing inList with
  | nil => cases h
  | cons line rest ih =>
    have hrest : (∃ line ∈ rest, line.text ≠ [] ∧ found.2 = line.span) →
        ∃ line' ∈ line :: rest, line'.text ≠ [] ∧ found.2 = line'.span := by
      rintro ⟨line', hline', hspan⟩
      exact ⟨line', List.mem_cons_of_mem line hline', hspan⟩
    unfold extensions at h
    split at h
    · exact hrest (ih h)
    · rcases List.mem_append.mp h with h | h
      · refine ⟨line, List.mem_cons_self, ?_⟩
        rcases List.mem_append.mp h with h | h
        · split at h
          · next hline =>
            obtain rfl := List.mem_singleton.mp h
            exact ⟨fun hnil => by simp [hnil, halert] at hline, rfl⟩
          · cases h
        · split at h
          · next hline =>
            obtain rfl := List.mem_singleton.mp h
            exact ⟨fun hnil => by simp [hnil, htask] at hline, rfl⟩
          · cases h
      · exact hrest (ih h)

/-- The place of an extension is one of the text. -/
theorem extensions_within {text : List Char} {inList : Bool} {found : Extension × Span}
    (h : found ∈ extensions inList (scan text).lines) : found.2.Within text.length := by
  obtain ⟨line, hline, hne, hspan⟩ := exists_line_of_mem_extensions h
  rw [hspan]
  exact Span.within_ofLength (List.length_pos_iff.mpr hne) ((scan_upTo text).1 line hline)

/-! ## What is found in the examples -/

/-- An issue of the code in a block. -/
def Block.HasIssue (block : Block) (issue : Markup.Issue) : Prop :=
  ∃ outline, Markup.scan block.body = .ok outline ∧ issue ∈ outline.issues

/-- Blocks of a text that are said to be Typst. -/
def typstBlocks (text : List Char) : List Block :=
  (scan text).blocks.filter (Rules.typstLanguages.contains ·.language)

/-- A diagnostic shows an issue of a block: its span is one of the text, over the same characters. -/
def ShowsIssue (text : List Char) (block : Block) (issue : Markup.Issue) (d : Diagnostic) : Prop :=
  d.file = some readmePath ∧ ∃ span, d.span = some span ∧ span.Within text.length
    ∧ span.slice text = issue.span.slice block.body

/-- A span of a piece of a text, moved on to where the piece starts. -/
theorem slice_moved {piece : List Char} {span : Span} (hspan : span.Within piece.length)
    (hpiece : (Span.ofLength n piece.length).slice text = piece) :
    Span.slice text ⟨n + span.start, n + span.stop⟩ = span.slice piece := by
  obtain ⟨hnonneg, hlt, hle⟩ := hspan
  have hstart : (n + span.start).toNat = n + span.start.toNat := by omega
  have hlength : (n + span.stop).toNat - (n + span.start).toNat = span.stop.toNat - span.start.toNat := by
    omega
  rw [Span.slice_ofLength] at hpiece
  rw [Span.slice, hlength, hstart, ← List.drop_drop, Span.slice]
  rw [← hpiece, List.drop_take, List.take_take, Nat.min_eq_left (by omega)]

theorem showsIssue_of_mem_typstBlocks {block : Block} (hblock : block ∈ typstBlocks text)
    {outline : Markup.Outline} (hscan : Markup.scan block.body = .ok outline) {issue : Markup.Issue}
    (hissue : issue ∈ outline.issues) {d : Diagnostic} (hfile : d.file = some readmePath)
    (hspan : d.span = some ⟨block.bodyStart + issue.span.start, block.bodyStart + issue.span.stop⟩) :
    ShowsIssue text block issue d := by
  have hmem := (List.mem_filter.mp hblock).1
  have hwithin := (Markup.scan_within hscan).issues issue hissue
  have hbody := (scan_upTo text).2 block hmem
  refine ⟨hfile, _, hspan, ?_, slice_moved hwithin ((scan_splits text).2.slice block hmem)⟩
  obtain ⟨hnonneg, hlt, hle⟩ := hwithin
  constructor
  · show (0 : Int) ≤ block.bodyStart + issue.span.start
    omega
  · show block.bodyStart + issue.span.start < block.bodyStart + issue.span.stop
    omega
  · show block.bodyStart + issue.span.stop ≤ text.length
    omega

/-- An introduction is split exactly, and the rule about its examples shows each of their issues where it
stands in the introduction. -/
theorem readme_splits (text : List Char) :
    SplitsLines text (scan text).lines
      ∧ SplitsBlocks text (scan text).lines (scan text).blocks
      ∧ ∀ ctx ds, Rules.readmeText ctx = some text → Rules.readmeExamples.evaluate ctx = .ok ds →
        (∀ d ∈ ds, ∃ block ∈ typstBlocks text, ∃ issue,
            block.HasIssue issue ∧ ShowsIssue text block issue d)
          ∧ ∀ block ∈ typstBlocks text, ∀ issue, block.HasIssue issue →
            ∃ d ∈ ds, ShowsIssue text block issue d := by
  obtain ⟨hcovers, hblocks⟩ := scan_splits text
  refine ⟨hcovers.splitsLines, hblocks, fun ctx ds htext hds => ?_⟩
  simp only [Rules.readmeExamples, htext] at hds
  obtain ⟨dss, hdss, rfl⟩ := map_eq_ok.mp hds
  constructor
  · intro d hd
    obtain ⟨found, hfound, hd⟩ := List.mem_flatten.mp hd
    obtain ⟨block, hblock, hissues⟩ := exists_of_mem_mapM hdss hfound
    obtain ⟨outline, hscan, rfl⟩ := map_eq_ok.mp hissues
    obtain ⟨issue, hissue, rfl⟩ := List.mem_map.mp hd
    exact ⟨block, hblock, issue, ⟨outline, hscan, hissue⟩,
      showsIssue_of_mem_typstBlocks hblock hscan hissue rfl rfl⟩
  · rintro block hblock issue ⟨outline, hscan, hissue⟩
    obtain ⟨found, hfound, hissues⟩ := mem_of_mapM hdss hblock
    obtain ⟨outline', hscan', rfl⟩ := map_eq_ok.mp hissues
    obtain rfl := Except.ok.inj (hscan.symm.trans hscan')
    exact ⟨_, List.mem_flatten_of_mem hfound (List.mem_map_of_mem hissue),
      showsIssue_of_mem_typstBlocks hblock hscan hissue rfl rfl⟩

/-- An introduction with two examples, the second one never closed. -/
def sampleText : String :=
  "# Demo\r\n~~~~ Typst\r\n#let a = \"\r\n~~~\r\n~~~~~\x0b\n\n> text\n```typ\n/* [\n"

/-- A package with this introduction only. -/
def sampleContext : Context where
  package := ⟨⟨[⟨"README.md", sampleText.toUTF8⟩], [], by decide⟩, none, none⟩
  graph := {}
  outlines := []
  manifestProblems := []
  registry := none
  publication := false
  manifestText := none

/-- A string and a comment that are never closed are found, at offsets of the introduction. -/
theorem readme_splits_sample : Rules.readmeText sampleContext = some sampleText.toList
    ∧ (scan sampleText.toList).blocks.map (·.span) = [.between 8 43, .between 52 64]
    ∧ ∃ ds, Rules.readmeExamples.evaluate sampleContext = .ok ds
      ∧ ds.map (·.span) = [some (.between 29 37), some (.between 59 64)]
      ∧ ∀ d ∈ ds, ∃ block ∈ typstBlocks sampleText.toList, ∃ issue,
        block.HasIssue issue ∧ ShowsIssue sampleText.toList block issue d := by
  have htext : Rules.readmeText sampleContext = some sampleText.toList := by decide +kernel
  have hspans : (Rules.readmeExamples.evaluate sampleContext).toOption.map (·.map (·.span))
      = some [some (.between 29 37), some (.between 59 64)] := by decide +kernel
  obtain ⟨ds, hds, hspans⟩ := Option.map_eq_some_iff.mp hspans
  have hds := toOption_eq_some_iff.mp hds
  obtain ⟨-, -, hshown⟩ := readme_splits sampleText.toList
  exact ⟨htext, by decide +kernel, ds, hds, hspans, (hshown sampleContext ds htext hds).1⟩

end TypstLint.Readme
