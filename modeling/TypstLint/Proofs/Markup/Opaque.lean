import Mathlib.Data.List.Infix
import TypstLint.Proofs.Markup.Comment

set_option autoImplicit false

/-! # What regions hide

A comment and raw text hide whatever they are made of: with a line feed behind it, such a region in front of
a text adds nothing and only moves on what the text holds (`scan_opaque`). -/

namespace TypstLint.Markup

variable {cs body rest past text region : List Char} {c : Char} {ticks : Nat}

/-! ## Comments -/

/-- The text of a block comment: no slashes and stars but those of the block comments in it. -/
inductive IsCommentBody : List Char → Prop
  | nil : IsCommentBody []
  | char {c : Char} {cs : List Char} : c ≠ '/' → c ≠ '*' → IsCommentBody cs → IsCommentBody (c :: cs)
  | nested {inner cs : List Char} : IsCommentBody inner → IsCommentBody cs →
      IsCommentBody ('/' :: '*' :: (inner ++ '*' :: '/' :: cs))

theorem readComment_char (hslash : c ≠ '/') (hstar : c ≠ '*') (depth n : Nat) (rest : List Char) :
    readComment depth n (c :: rest) = readComment depth (n + 1) rest := by
  rw [readComment.eq_def]
  split
  · next heq => cases heq
  · next heq => exact absurd (List.cons.inj heq).1 hstar
  · next heq => exact absurd (List.cons.inj heq).1 hslash
  · next heq =>
    obtain ⟨-, rfl⟩ := List.cons.inj heq
    rfl

/-- The text of a comment leaves as many comments open as there were before. -/
theorem IsCommentBody.readComment_eq (h : IsCommentBody cs) (depth n : Nat) (rest : List Char) :
    readComment depth n (cs ++ rest) = readComment depth (n + cs.length) rest := by
  induction h generalizing depth n rest with
  | nil => rfl
  | char hslash hstar _ ih =>
    rw [List.cons_append, readComment_char hslash hstar, ih, List.length_cons, Nat.add_right_comm, Nat.add_assoc]
  | @nested inner cs _ _ ihinner ihcs =>
    have hopen (more : List Char) : readComment depth n ('/' :: '*' :: more) = readComment (depth + 1) (n + 2) more :=
      rfl
    have hclose (n : Nat) (more : List Char) :
        readComment (depth + 1) n ('*' :: '/' :: more) = readComment depth (n + 2) more := rfl
    rw [List.cons_append, List.cons_append, hopen, List.append_assoc, ihinner, List.cons_append, List.cons_append,
      hclose, ihcs]
    congr 1
    simp only [List.length_cons, List.length_append]
    omega

/-! ## Raw text -/

theorem readRaw_replicate {run m : Nat} (hticks : run + m = ticks) (hm : 0 < m) (n : Nat) (rest : List Char) :
    readRaw ticks run n (List.replicate m '\x60' ++ rest) = ⟨n + m, none⟩ := by
  induction m generalizing run n with
  | zero => exact absurd hm (Nat.lt_irrefl 0)
  | succ m ih =>
    rw [List.replicate_succ, List.cons_append, readRaw, if_pos (beq_self_eq_true _)]
    cases m with
    | zero => rw [if_pos (beq_iff_eq.mpr hticks)]
    | succ m =>
      have hmore : ¬ (run + 1 == ticks) = true := by
        rw [beq_iff_eq]
        omega
      rw [if_neg hmore, ih (by omega) (Nat.succ_pos m), Nat.add_assoc, Nat.add_comm 1]

/-- Raw text ends at the first row of as many backticks as it started with; `run` of them stand before
`body`. -/
theorem readRaw_body {run : Nat} (hfence : ¬ List.replicate ticks '\x60' <:+: List.replicate run '\x60' ++ body)
    (hlast : (List.replicate run '\x60' ++ body).getLast? ≠ some '\x60') (hticks : 0 < ticks) (n : Nat)
    (rest : List Char) :
    readRaw ticks run n (body ++ (List.replicate ticks '\x60' ++ rest)) = ⟨n + body.length + ticks, none⟩ := by
  induction body generalizing run n with
  | nil =>
    cases run with
    | zero => exact readRaw_replicate (Nat.zero_add _) hticks n rest
    | succ run =>
      rw [List.append_nil, List.replicate_succ', List.getLast?_concat] at hlast
      exact absurd rfl hlast
  | cons c body ih =>
    have hlength : n + (c :: body).length + ticks = n + 1 + body.length + ticks := by
      rw [List.length_cons]
      omega
    rw [List.cons_append, readRaw, hlength]
    by_cases htick : c = '\x60'
    · subst htick
      have hrun : List.replicate run '\x60' ++ '\x60' :: body = List.replicate (run + 1) '\x60' ++ body := by
        rw [List.replicate_succ', List.append_assoc, List.singleton_append]
      rw [hrun] at hfence hlast
      have hmore : ¬ (run + 1 == ticks) = true := by
        rw [beq_iff_eq]
        rintro rfl
        exact hfence (List.prefix_append _ _).isInfix
      rw [if_pos (beq_self_eq_true _), if_neg hmore]
      exact ih hfence hlast (n + 1)
    · rw [if_neg (mt beq_iff_eq.mp htick)]
      have hsuffix : body <:+ List.replicate run '\x60' ++ c :: body :=
        (List.suffix_cons c body).trans (List.suffix_append _ _)
      refine @ih 0 (fun h => hfence (h.trans hsuffix.isInfix)) (fun h => hlast ?_) (n + 1)
      rw [List.replicate_zero, List.nil_append] at h
      rw [List.getLast?_append, List.getLast?_cons, h]
      rfl

/-! ## Regions -/

/-- A comment up to the end of its line, a block comment, or raw text between one backtick and another one or
between rows of three or more. -/
inductive IsOpaque : List Char → Prop
  | lineComment {body : List Char} : '\n' ∉ body → IsOpaque ('/' :: '/' :: body)
  | blockComment {body : List Char} : IsCommentBody body → IsOpaque ('/' :: '*' :: (body ++ ['*', '/']))
  | raw {ticks : Nat} {body : List Char} : ticks = 1 ∨ 3 ≤ ticks → body ≠ [] → body.head? ≠ some '\x60' →
      body.getLast? ≠ some '\x60' → ¬ List.replicate ticks '\x60' <:+: body →
      IsOpaque (List.replicate ticks '\x60' ++ (body ++ List.replicate ticks '\x60'))

theorem read_raw (hticks : ticks = 1 ∨ 3 ≤ ticks) (hne : body ≠ []) (hfirst : body.head? ≠ some '\x60')
    (hlast : body.getLast? ≠ some '\x60') (hfence : ¬ List.replicate ticks '\x60' <:+: body) (rest : List Char) :
    Region.read .raw (List.replicate ticks '\x60' ++ (body ++ (List.replicate ticks '\x60' ++ rest)))
      = .ok ⟨ticks + body.length + ticks, none⟩ := by
  have hpos : 0 < ticks := by omega
  obtain ⟨c, body, rfl⟩ := List.exists_cons_of_ne_nil hne
  have hc : (c == '\x60') = false := beq_false_of_ne fun heq => hfirst (congrArg some heq)
  have htake : (List.replicate ticks '\x60' ++ (c :: body ++ (List.replicate ticks '\x60' ++ rest))).takeWhile
      (· == '\x60') = List.replicate ticks '\x60' := by
    rw [List.takeWhile_append_of_pos (fun d hd => beq_iff_eq.mpr (List.eq_of_mem_replicate hd)),
      List.cons_append, List.takeWhile_cons, hc]
    exact List.append_nil _
  have htwo : ¬ (ticks == 2) = true := by
    rw [beq_iff_eq]
    omega
  simp only [Region.read, htake, List.length_replicate]
  rw [if_neg htwo, List.drop_left' List.length_replicate]
  exact congrArg Except.ok (readRaw_body hfence hlast hpos ticks rest)

/-- A region is read to its end and no further. -/
theorem IsOpaque.exists_read (h : IsOpaque region) (rest : List Char) :
    ∃ kind, RegionKind.at? (region ++ '\n' :: rest) = some kind ∧ kind ≠ .string
      ∧ Region.read kind (region ++ '\n' :: rest) = .ok ⟨region.length, none⟩ := by
  cases h with
  | lineComment hbody => exact ⟨.lineComment, rfl, by decide, read_lineComment hbody rest⟩
  | @blockComment body hbody =>
    have hread : readComment 0 2 (body ++ ['*', '/']) = ⟨(body ++ ['*', '/']).length + 2, none⟩ := by
      rw [hbody.readComment_eq, List.length_append, Nat.add_comm 2]
      rfl
    exact ⟨.blockComment, rfl, by decide, read_blockComment hread ('\n' :: rest)⟩
  | @raw ticks body hticks hne hfirst hlast hfence =>
    have hread := read_raw hticks hne hfirst hlast hfence ('\n' :: rest)
    obtain ⟨m, rfl⟩ : ∃ m, ticks = m + 1 := ⟨ticks - 1, by omega⟩
    refine ⟨.raw, rfl, by decide, ?_⟩
    rw [List.append_assoc, List.append_assoc, hread]
    simp only [List.length_append, List.length_replicate, Nat.add_assoc]

/-- A region at the start of a text is passed over, with the line feed behind it. -/
theorem IsOpaque.runs (h : IsOpaque region) (b : List Char) :
    Runs ⟨.between [] (region ++ '\n' :: b), []⟩ [] ⟨.between (region ++ ['\n']).reverse b, []⟩ := by
  obtain ⟨kind, hkind, hstring, hread⟩ := h.exists_read b
  obtain ⟨c, more, hcons⟩ : ∃ c more, region ++ '\n' :: b = c :: more :=
    List.exists_cons_of_ne_nil (List.append_ne_nil_of_right_ne_nil _ (List.cons_ne_nil _ _))
  have hadmits : admitsRegion false (.between [] (region ++ '\n' :: b)) kind = true := by
    cases kind with
    | lineComment | blockComment | raw => rfl
    | string => exact absurd rfl hstring
  have hstep : State.step c ⟨.between [] (region ++ '\n' :: b), []⟩
      = plain ⟨.between region.reverse ('\n' :: b), []⟩ := by
    show textStep false false c _ = _
    have hfilter : (some kind).filter (admitsRegion false (.between [] (region ++ '\n' :: b))) = some kind := by
      rw [Option.filter_some, if_pos hadmits]
    simp only [textStep, Cursor.rest_between, hkind, hfilter, readRegion, hread, Except.map, State.advance_over,
      List.append_nil]
    rfl
  have hline : Runs ⟨.between region.reverse ('\n' :: b), []⟩ [] ⟨.between ('\n' :: region.reverse) b, []⟩ :=
    .one rfl rfl
  rw [List.reverse_concat]
  exact (Runs.one (s := ⟨.between [] (region ++ '\n' :: b), []⟩) hcons hstep).thenFind hline

/-- Behind a text that ends with a line feed, a text holds what it holds alone, moved on. -/
theorem outlineFrom_behind_line (hends : text.getLast? = some '\n') (b : List Char) :
    outlineFrom ⟨.between text.reverse b, []⟩ = (scan b).map (·.shift text.length) := by
  have halike := State.alike_after (s := ⟨.between [] b, []⟩) hends
    fun _ _ hmem => absurd hmem List.not_mem_nil
  have hstate : State.after text ⟨.between [] b, []⟩ = ⟨.between text.reverse b, []⟩ := by
    simp [State.after, Cursor.after, Cursor.between]
  rw [← hstate, outlineFrom_alike halike, scan_eq_outlineFrom]

/-- Whatever a region is made of, a text behind it and a line feed holds what it holds alone, moved on; and it
can be scanned if it can be scanned alone. -/
theorem scan_opaque (h : IsOpaque region) (b : List Char) :
    scan (region ++ '\n' :: b) = (scan b).map (·.shift (region.length + 1)) := by
  rw [scan_eq_outlineFrom, (h.runs b).outlineFrom_eq_of_nil, outlineFrom_behind_line List.getLast?_concat,
    List.length_append]
  rfl

/-- A comment in a comment behind a quote, the comment of a line, and a row of backticks that is too short to end
raw text, each with an import in it. -/
theorem scan_opaque_import :
    IsOpaque "/* \x22 /*#import \x22a\x22*/(*/".toList ∧ IsOpaque "//#import \x22a".toList
    ∧ IsOpaque "\x60\x60\x60[ \x60\x60#import \x22a\x22\x60\x60\n\x60\x60\x60".toList
    ∧ scan "/* \x22 /*#import \x22a\x22*/(*/\n#import \x22b\x22".toList
      = (scan "#import \x22b\x22".toList).map (·.shift 24)
    ∧ scan "//#import \x22a\n#import \x22b\x22".toList = (scan "#import \x22b\x22".toList).map (·.shift 13)
    ∧ scan "\x60\x60\x60[ \x60\x60#import \x22a\x22\x60\x60\n\x60\x60\x60\n#import \x22b\x22".toList
      = (scan "#import \x22b\x22".toList).map (·.shift 25) := by
  have hchars : ∀ front : List Char, front.all (fun c => c != '/' && c != '*') = true → ∀ cs, IsCommentBody cs →
      IsCommentBody (front ++ cs) := fun front hfront cs hcs => by
    induction front with
    | nil => exact hcs
    | cons c front ih =>
      simp only [List.all_cons, Bool.and_eq_true, bne_iff_ne] at hfront
      exact .char hfront.1.1 hfront.1.2 (ih hfront.2)
  have hinner : IsCommentBody "#import \x22a\x22".toList :=
    hchars "#import \x22a\x22".toList (by decide) [] .nil
  have hblock : IsOpaque "/* \x22 /*#import \x22a\x22*/(*/".toList :=
    .blockComment (hchars " \x22 ".toList (by decide) _ (.nested hinner (.char (by decide) (by decide) .nil)))
  have hline : IsOpaque "//#import \x22a".toList := .lineComment (by decide)
  have hraw : IsOpaque (List.replicate 3 '\x60' ++ ("[ \x60\x60#import \x22a\x22\x60\x60\n".toList
      ++ List.replicate 3 '\x60')) :=
    .raw (by decide) (by decide) (by decide) (by decide) (by decide)
  exact ⟨hblock, hline, hraw, scan_opaque hblock _, scan_opaque hline _, scan_opaque hraw _⟩

end TypstLint.Markup
