import Mathlib.Data.List.TakeWhile
import TypstLint.Markup.Closure
import TypstLint.Markup.Import
import TypstLint.Proofs.Markup.Region
import TypstLint.Proofs.Text.Blank

set_option autoImplicit false

/-! # Reading in front of a line end

In a text that ends with a line feed (`EndsLine`), whatever is closed is closed before the line feed: no
name, no literal, no region and no group ends with one. So it is read in the same way if the text goes
on, as a lemma for each reader says (`readLiteral_append`, `Region.read_append`, `findClose_append`). -/

namespace TypstLint

open Text (asciiNumeral dropHexMark length_takeWhile_lt_of_mem readDigits readInt readSign
  takeWhile_append_of_mem trimWhile)

/-! ## Numerals -/

theorem Text.readDigits_of_quote {base value count : Nat} {afterDigit : Bool} {cs : List Char}
    (hquote : '\x22' ∈ cs) : readDigits base afterDigit value count cs = none := by
  induction cs generalizing afterDigit value count with
  | nil => cases hquote
  | cons c cs ih =>
    rcases List.mem_cons.mp hquote with rfl | hquote
    · rfl
    · unfold readDigits
      split
      · split
        · exact ih hquote
        · rfl
      · split
        · exact ih hquote
        · rfl

/-- A text with a quote in it is no numeral. -/
theorem Text.readInt_of_quote {base : Nat} {cs : List Char} (hquote : '\x22' ∈ cs) :
    readInt base cs = .error .malformed := by
  have hsign : ∀ {cs : List Char}, '\x22' ∈ cs → '\x22' ∈ (readSign cs).2 := by
    intro cs h
    unfold readSign
    split
    · simpa using h
    · simpa using h
    · exact h
  have hmark : ∀ {cs : List Char}, '\x22' ∈ cs → '\x22' ∈ dropHexMark cs := by
    intro cs h
    unfold dropHexMark
    split <;> simpa using h
  have hascii : '\x22' ∈ asciiNumeral cs := List.mem_map.mpr ⟨'\x22', hquote, rfl⟩
  have hbody := hsign (mem_trimWhile (p := isAsciiBlank) (by decide) hascii)
  unfold readInt
  generalize readSign (trimWhile isAsciiBlank (asciiNumeral cs)) = signed at hbody
  obtain ⟨negative, body⟩ := signed
  have hdigits : readDigits base false 0 0 (if base == 16 then dropHexMark body else body) = none := by
    split
    · exact readDigits_of_quote (hmark hbody)
    · exact readDigits_of_quote hbody
  simp only [hdigits]

namespace Markup

variable {c : Char} {cs rest b : List Char}

/-- A text whose last character is a line feed. -/
def EndsLine (cs : List Char) : Prop := cs.getLast? = some '\n'

namespace EndsLine

theorem ne_nil (h : EndsLine cs) : cs ≠ [] := by
  rintro rfl
  cases h

theorem drop {n : Nat} (h : EndsLine cs) (hn : n < cs.length) : EndsLine (cs.drop n) := by
  rw [EndsLine, List.getLast?_drop, if_neg (Nat.not_le.mpr hn)]
  exact h

/-- A text that ends with another character goes on behind it. -/
theorem tail_ne_nil (h : EndsLine (c :: rest)) (hc : c ≠ '\n') : rest ≠ [] := by
  rintro rfl
  exact hc (Option.some.inj h)

theorem tail (h : EndsLine (c :: rest)) (hrest : rest ≠ []) : EndsLine rest :=
  h.drop (n := 1) (by simpa [List.length_pos_iff] using hrest)

theorem lineFeed_mem (h : EndsLine cs) : '\n' ∈ cs := List.mem_of_getLast? h

end EndsLine

/-! ## Names -/

theorem isIdentContinue_lineFeed : isIdentContinue '\n' = false := by decide

theorem isIdentStart_lineFeed : isIdentStart '\n' = false := by decide

theorem EndsLine.tail_of_isIdentStart (h : EndsLine (c :: rest)) (hc : isIdentStart c = true) :
    EndsLine rest := by
  refine h.tail (h.tail_ne_nil ?_)
  rintro rfl
  simp [isIdentStart_lineFeed] at hc

theorem identOf_append (h : EndsLine cs) : identOf (cs ++ b) = identOf cs := by
  cases cs with
  | nil => cases h
  | cons c rest =>
    simp only [identOf, List.cons_append]
    split
    · next hc =>
      rw [takeWhile_append_of_mem (h.tail_of_isIdentStart hc).lineFeed_mem isIdentContinue_lineFeed]
    · rfl

theorem length_identOf_lt (h : EndsLine cs) : (identOf cs).length < cs.length := by
  cases cs with
  | nil => cases h
  | cons c rest =>
    simp only [identOf]
    split
    · next hc =>
      have hmem := (h.tail_of_isIdentStart hc).lineFeed_mem
      exact Nat.succ_lt_succ (length_takeWhile_lt_of_mem hmem isIdentContinue_lineFeed)
    · exact Nat.zero_lt_succ _

/-! ## Literals -/

theorem bracedNumber?_of_ne {d : Char} (hne : ¬(c = 'u' ∧ d = '\x7b')) :
    bracedNumber? (c :: d :: rest) = none := by
  unfold bracedNumber?
  split
  · next heq =>
    obtain ⟨hc, htail⟩ := List.cons.inj heq
    exact absurd ⟨hc, (List.cons.inj htail).1⟩ hne
  · rfl

/-- The closing brace of a number either stands in the text or is looked for behind it; then the number
goes on over all of the text. -/
theorem bracedNumber?_append (h : EndsLine cs) (hquote : '\x22' ∈ cs) :
    bracedNumber? (cs ++ b) = bracedNumber? cs
      ∨ bracedNumber? cs = none ∧ ∃ body, bracedNumber? (cs ++ b) = some body ∧ '\x22' ∈ body := by
  rcases cs with _ | ⟨c, _ | ⟨d, rest⟩⟩
  · cases h
  · obtain rfl := Option.some.inj h
    cases b <;> exact .inl rfl
  by_cases hopens : c = 'u' ∧ d = '\x7b'
  · obtain ⟨rfl, rfl⟩ := hopens
    have hquote : '\x22' ∈ rest := by simpa using hquote
    simp only [List.cons_append, bracedNumber?]
    by_cases hclose : '\x7d' ∈ rest
    · have hlt := length_takeWhile_lt_of_mem (p := (· != '\x7d')) hclose rfl
      rw [takeWhile_append_of_mem hclose rfl, List.drop_append_of_le_length hlt.le]
      have hdrop : rest.drop (rest.takeWhile (· != '\x7d')).length ≠ [] := by simpa using hlt
      simp [hdrop]
    · -- the brace is looked for behind the text, and the quote is passed over on the way
      have hall : rest.takeWhile (· != '\x7d') = rest :=
        List.takeWhile_eq_self_iff.mpr fun x hx => bne_iff_ne.mpr fun heq => hclose (heq ▸ hx)
      have hwhole : (rest ++ b).takeWhile (· != '\x7d') = rest ++ b.takeWhile (· != '\x7d') :=
        List.takeWhile_append_of_pos fun x hx => bne_iff_ne.mpr fun heq => hclose (heq ▸ hx)
      rw [hall, hwhole]
      split
      · simp
      · exact .inr ⟨by simp, _, rfl, List.mem_append_left _ hquote⟩
  · rw [List.cons_append, List.cons_append, bracedNumber?_of_ne hopens, bracedNumber?_of_ne hopens]
    exact .inl rfl

/-- A number that is closed only behind the end of a literal is none. -/
theorem decodeEscape_append (h : EndsLine cs) (hquote : '\x22' ∈ cs) :
    decodeEscape (cs ++ b) = decodeEscape cs := by
  have hhead : (cs ++ b).headD '\\' = cs.headD '\\' := by
    cases cs with
    | nil => cases h
    | cons c rest => rfl
  unfold decodeEscape
  simp only [hhead]
  split
  · rfl
  · rcases bracedNumber?_append (b := b) h hquote with heq | ⟨hnone, body, hbody, hmem⟩
    · rw [heq]
    · rw [hnone, hbody]
      simp only [Text.readInt_of_quote hmem]

variable {n m : Nat} {text : List Char}

theorem quote_mem_of_readLiteralFrom {skip : Nat} {done : List Char}
    (h : readLiteralFrom skip n done cs = .ok (some text, m)) : '\x22' ∈ cs := by
  induction cs generalizing skip n done with
  | nil => cases h
  | cons c rest ih =>
    unfold readLiteralFrom at h
    split at h
    · exact List.mem_cons_of_mem _ (ih h)
    · split at h
      · split at h
        · cases h
        · exact List.mem_cons_of_mem _ (ih h)
      · split at h
        · next hc => exact beq_iff_eq.mp hc ▸ List.mem_cons_self
        · exact List.mem_cons_of_mem _ (ih h)

theorem readLiteralFrom_append {skip : Nat} {done : List Char} (hends : EndsLine cs)
    (h : readLiteralFrom skip n done cs = .ok (some text, m)) :
    readLiteralFrom skip n done (cs ++ b) = .ok (some text, m) ∧ m < n + cs.length := by
  induction cs generalizing skip n done with
  | nil => cases hends
  | cons c rest ih =>
    -- the quote is still to come, so the line feed is not the character that is read here
    have hnext : ∀ {skip done}, readLiteralFrom skip (n + 1) done rest = .ok (some text, m) →
        readLiteralFrom skip (n + 1) done (rest ++ b) = .ok (some text, m)
          ∧ m < n + (rest.length + 1) := by
      intro skip done h
      have hne := List.ne_nil_of_mem (quote_mem_of_readLiteralFrom h)
      have := ih (hends.tail hne) h
      exact ⟨this.1, by omega⟩
    have hescape : (c == '\\' && !(rest ++ b).isEmpty) = (c == '\\' && !rest.isEmpty) := by
      cases rest with
      | nil =>
        obtain rfl := Option.some.inj hends
        rfl
      | cons d rest => rfl
    rw [List.length_cons, List.cons_append]
    unfold readLiteralFrom at h ⊢
    cases skip with
    | succ skip => exact hnext h
    | zero =>
      simp only [hescape] at h ⊢
      split at h
      · next hbackslash =>
        rw [if_pos hbackslash]
        have hne : rest ≠ [] := by simp_all
        cases hdecode : decodeEscape rest with
        | error fault => simp [hdecode] at h
        | ok escape =>
          simp only [hdecode] at h
          rw [decodeEscape_append (hends.tail hne) (quote_mem_of_readLiteralFrom h), hdecode]
          exact hnext h
      · next hbackslash =>
        rw [if_neg hbackslash]
        split at h
        · next hquote =>
          rw [if_pos hquote]
          have hne := hends.tail_ne_nil (by rintro rfl; cases hquote)
          have hlength := List.length_pos_iff.mpr hne
          obtain ⟨-, rfl⟩ := Prod.mk.inj (Except.ok.inj h)
          exact ⟨h, by omega⟩
        · next hquote =>
          rw [if_neg hquote]
          exact hnext h

theorem readLiteral_append (hends : EndsLine cs) (hopen : cs.head? = some '\x22')
    (h : readLiteral cs = .ok (some text, m)) :
    readLiteral (cs ++ b) = .ok (some text, m) ∧ m < cs.length := by
  cases cs with
  | nil => cases hends
  | cons c rest =>
    obtain rfl := Option.some.inj hopen
    have hne := hends.tail_ne_nil (by decide)
    have hread := readLiteralFrom_append (b := b) (hends.tail hne) h
    rw [List.length_cons, Nat.add_comm]
    exact hread

/-! ## Regions -/

/-- Two characters tell the kind of a region. -/
theorem RegionKind.at?_congr (c d : Char) (rest rest' : List Char) :
    RegionKind.at? (c :: d :: rest) = RegionKind.at? (c :: d :: rest') := by
  unfold RegionKind.at?
  split
  · next heq =>
    cases heq
    rfl
  · next heq =>
    cases heq
    rfl
  · next heq =>
    cases heq
    rfl
  · next heq =>
    cases heq
    rfl
  · next hline hblock hraw hstring =>
    split
    · next heq =>
      cases heq
      exact absurd rfl (hline _)
    · next heq =>
      cases heq
      exact absurd rfl (hblock _)
    · next heq =>
      cases heq
      exact absurd rfl (hraw _)
    · next heq =>
      cases heq
      exact absurd rfl (hstring _)
    · rfl

theorem RegionKind.at?_append (h : EndsLine cs) :
    RegionKind.at? (cs ++ b) = RegionKind.at? cs := by
  rcases cs with _ | ⟨c, _ | ⟨d, rest⟩⟩
  · cases h
  · obtain rfl := Option.some.inj h
    rfl
  · exact RegionKind.at?_congr c d _ _

/-- A comment that is closed ends at the same place whatever stands behind it. -/
theorem readComment_of_closed {depth : Nat} (h : readComment depth n cs = ⟨m, none⟩)
    (b : List Char) : readComment depth n (cs ++ b) = ⟨m, none⟩ := by
  fun_induction readComment depth n cs with
  | case1 => cases h
  | case2 => exact h
  | case3 n rest depth ih => exact ih h
  | case4 depth n rest ih => exact ih h
  | case5 depth n c more hend hstart ih =>
    cases more with
    | nil => cases h
    | cons d more =>
      rw [← ih h, List.cons_append, List.cons_append, readComment.eq_def]
      split
      · next heq => cases heq
      · next heq =>
        cases heq
        exact (hend _ rfl rfl).elim
      · next heq =>
        cases heq
        exact (hstart _ rfl rfl).elim
      · next heq =>
        cases heq
        rfl

/-- A comment that is closed at the end of a text ends with a slash. -/
theorem getLast?_of_readComment {depth : Nat} (h : readComment depth n cs = ⟨cs.length + n, none⟩) :
    cs.getLast? = some '/' := by
  have hlast : ∀ {rest : List Char}, rest.getLast? = some '/' → ∀ c, (c :: rest).getLast? = some '/' :=
    fun h c => by rw [List.getLast?_cons, h]; rfl
  fun_induction readComment depth n cs with
  | case1 => cases (Region.mk.inj h).2
  | case2 n rest =>
    obtain ⟨hlength, -⟩ := Region.mk.inj h
    cases rest with
    | nil => rfl
    | cons => simp at hlength; omega
  | case3 n rest depth ih => exact hlast (hlast (ih (by rw [h]; simp; omega)) _) _
  | case4 depth n rest ih => exact hlast (hlast (ih (by rw [h]; simp; omega)) _) _
  | case5 depth n c rest _ _ ih => exact hlast (ih (by rw [h]; simp; omega)) _

/-- So a comment that is closed is closed in front of the line feed. -/
theorem readComment_append {depth : Nat} (hends : EndsLine cs)
    (h : readComment depth n cs = ⟨m, none⟩) :
    readComment depth n (cs ++ b) = ⟨m, none⟩ ∧ m < n + cs.length := by
  refine ⟨readComment_of_closed h b, Nat.lt_of_le_of_ne ?_ ?_⟩
  · have hlength := (readComment_length depth n cs).2
    rwa [h] at hlength
  · rintro rfl
    rw [Nat.add_comm] at h
    have hslash := (getLast?_of_readComment h).symm.trans hends
    revert hslash
    decide

theorem readRaw_append {ticks run : Nat} (hends : EndsLine cs)
    (h : readRaw ticks run n cs = ⟨m, none⟩) :
    readRaw ticks run n (cs ++ b) = ⟨m, none⟩ ∧ m < n + cs.length := by
  induction cs generalizing run n with
  | nil => cases hends
  | cons c rest ih =>
    have hnext : ∀ {run}, readRaw ticks run (n + 1) rest = ⟨m, none⟩ →
        readRaw ticks run (n + 1) (rest ++ b) = ⟨m, none⟩ ∧ m < n + (rest.length + 1) := by
      intro run h
      cases rest with
      | nil => cases h
      | cons d rest =>
        have := ih (hends.tail (List.cons_ne_nil _ _)) h
        exact ⟨this.1, by omega⟩
    rw [List.length_cons, List.cons_append]
    unfold readRaw at h ⊢
    split at h
    · next htick =>
      rw [if_pos htick]
      split at h
      · next hlast =>
        rw [if_pos hlast]
        have hrest := hends.tail_ne_nil (by rintro rfl; cases htick)
        have hlength := List.length_pos_iff.mpr hrest
        obtain ⟨rfl, -⟩ := Region.mk.inj h
        exact ⟨rfl, by omega⟩
      · next hlast =>
        rw [if_neg hlast]
        exact hnext h
    · next htick =>
      rw [if_neg htick]
      exact hnext h

/-- A region that is closed is closed in front of the line feed. -/
theorem Region.read_append {kind : RegionKind} {region : Region} (hends : EndsLine cs)
    (hkind : RegionKind.at? cs = some kind) (hread : Region.read kind cs = .ok region)
    (hclosed : region.fault = none) :
    Region.read kind (cs ++ b) = .ok region ∧ region.length < cs.length := by
  obtain ⟨rest, hcs⟩ := RegionKind.exists_of_at? hkind
  obtain ⟨length, fault⟩ := region
  obtain rfl : fault = none := hclosed
  cases kind with
  | lineComment =>
    obtain ⟨rfl, -⟩ := Region.mk.inj (Except.ok.inj hread)
    have htake := takeWhile_append_of_mem (b := b) (p := (· != '\n')) hends.lineFeed_mem rfl
    exact ⟨by rw [Region.read, htake], length_takeWhile_lt_of_mem hends.lineFeed_mem rfl⟩
  | blockComment =>
    have htwo : 2 < cs.length := by
      subst hcs
      have hrest := (EndsLine.tail hends (List.cons_ne_nil _ _)).tail_ne_nil (by decide)
      simpa [RegionKind.opening, List.length_pos_iff] using hrest
    have hcomment := readComment_append (b := b) (hends.drop htwo) (Except.ok.inj hread)
    rw [List.length_drop] at hcomment
    rw [Region.read, List.drop_append_of_le_length htwo.le, hcomment.1]
    refine ⟨rfl, ?_⟩
    show length < cs.length
    omega
  | raw =>
    have hmem := hends.lineFeed_mem
    have hlt := length_takeWhile_lt_of_mem (p := (· == '\x60')) hmem rfl
    have hread := Except.ok.inj hread
    simp only [Region.read, takeWhile_append_of_mem (p := (· == '\x60')) hmem rfl,
      List.drop_append_of_le_length hlt.le]
    generalize (cs.takeWhile (· == '\x60')).length = ticks at hlt hread
    split at hread
    · next htwo =>
      obtain ⟨rfl, -⟩ := Region.mk.inj hread
      rw [if_pos htwo]
      exact ⟨rfl, beq_iff_eq.mp htwo ▸ hlt⟩
    · next htwo =>
      have hraw := readRaw_append (b := b) (hends.drop hlt) hread
      rw [List.length_drop] at hraw
      rw [if_neg htwo, hraw.1]
      refine ⟨rfl, ?_⟩
      show length < cs.length
      omega
  | string =>
    obtain ⟨⟨text?, m⟩, hliteral, heq⟩ := map_eq_ok.mp hread
    obtain ⟨rfl, hfault⟩ := Region.mk.inj heq
    cases text? with
    | none => cases hfault
    | some text =>
      have hliteral := readLiteral_append (b := b) hends (hcs ▸ rfl) hliteral
      rw [Region.read, hliteral.1]
      exact ⟨rfl, hliteral.2⟩

/-! ## Groups -/

theorem findClose_append {pos skip depth close : Nat} {issues : List Issue} (hends : EndsLine cs)
    (h : findClose pos skip depth cs = .ok (some close, issues)) :
    findClose pos skip depth (cs ++ b) = .ok (some close, issues)
      ∧ pos ≤ close ∧ close + 1 < pos + cs.length := by
  induction cs generalizing pos skip depth with
  | nil => cases hends
  | cons c rest ih =>
    have hnext : ∀ {skip depth}, findClose (pos + 1) skip depth rest = .ok (some close, issues) →
        findClose (pos + 1) skip depth (rest ++ b) = .ok (some close, issues)
          ∧ pos ≤ close ∧ close + 1 < pos + (rest.length + 1) := by
      intro skip depth h
      cases rest with
      | nil => cases h
      | cons d rest =>
        have := ih (hends.tail (List.cons_ne_nil _ _)) h
        exact ⟨this.1, by omega, by omega⟩
    rw [List.length_cons]
    cases skip with
    | succ skip => exact hnext h
    | zero =>
      have hkind := RegionKind.at?_append (b := b) hends
      rw [List.cons_append] at hkind ⊢
      unfold findClose at h ⊢
      simp only [hkind] at h ⊢
      split at h
      · next kind hfilter =>
        cases hread : Region.read kind (c :: rest) with
        | error fault => simp [hread] at h
        | ok region =>
          simp only [hread] at h
          split at h
          · cases h
          · next hfault =>
            -- the search goes on behind the region only if it is closed
            have hclosed : region.fault = none := by simpa using hfault
            have happend := Region.read_append (b := b) hends
              (Option.filter_eq_some_iff.mp hfilter).1 hread hclosed
            rw [List.cons_append] at happend
            simp only [happend.1]
            rw [if_neg hfault]
            exact hnext h
      · split at h
        · next hopen =>
          rw [if_pos hopen]
          exact hnext h
        · next hopen =>
          rw [if_neg hopen]
          split at h
          · next hclose =>
            rw [if_pos hclose]
            split at h
            · next hlast =>
              rw [if_pos hlast]
              have hrest := hends.tail_ne_nil (by rintro rfl; cases hclose)
              have hlength := List.length_pos_iff.mpr hrest
              obtain ⟨hpos, rfl⟩ := Prod.mk.inj (Except.ok.inj h)
              obtain rfl := Option.some.inj hpos
              exact ⟨rfl, Nat.le_refl _, by omega⟩
            · next hlast =>
              rw [if_neg hlast]
              exact hnext h
          · next hclose =>
            rw [if_neg hclose]
            exact hnext h

/-! ## Parts of groups -/

theorem splitSegments_zero (pos skip : Nat) (depth : Int) (segments : Segments) (cs : List Char) :
    splitSegments 0 pos skip depth segments cs = .ok (segments.toList, []) := by
  cases cs with
  | nil => rfl
  | cons c rest => rfl

/-- Parts without an issue do not depend on what stands behind the line feed. -/
theorem splitSegments_append {left pos skip : Nat} {depth : Int} {segments : Segments}
    {parts : List Segment} (hends : EndsLine cs) (hleft : left ≤ cs.length)
    (h : splitSegments left pos skip depth segments cs = .ok (parts, [])) :
    splitSegments left pos skip depth segments (cs ++ b) = .ok (parts, []) := by
  induction cs generalizing left pos skip depth segments with
  | nil => cases hends
  | cons c rest ih =>
    have hnext : ∀ {left skip depth segments}, left ≤ rest.length →
        splitSegments left (pos + 1) skip depth segments rest = .ok (parts, []) →
        splitSegments left (pos + 1) skip depth segments (rest ++ b) = .ok (parts, []) := by
      intro left skip depth segments hleft h
      cases rest with
      | nil =>
        -- the parts end with the line at the latest
        obtain rfl := Nat.le_zero.mp hleft
        rw [splitSegments_zero] at h ⊢
        exact h
      | cons d rest => exact ih (hends.tail (List.cons_ne_nil _ _)) hleft h
    cases left with
    | zero => rwa [splitSegments_zero] at h ⊢
    | succ left =>
      have hfits : left ≤ rest.length := Nat.le_of_succ_le_succ hleft
      cases skip with
      | succ skip => exact hnext hfits h
      | zero =>
        rw [List.cons_append]
        unfold splitSegments at h ⊢
        simp only at h ⊢
        split at h
        · next hquote =>
          rw [if_pos hquote]
          cases hread : Region.read .string (c :: rest) with
          | error fault => simp [hread] at h
          | ok region =>
            simp only [hread] at h
            split at h
            · next hfault =>
              obtain ⟨kind, hkind⟩ := Option.isSome_iff_exists.mp hfault
              simp [Region.issues, hkind] at h
            · next hfault =>
              obtain rfl := beq_iff_eq.mp hquote
              have happend := Region.read_append (b := b) hends rfl hread (by simpa using hfault)
              rw [List.cons_append] at happend
              simp only [happend.1]
              rw [if_neg hfault]
              exact hnext hfits h
        · next hquote =>
          rw [if_neg hquote]
          split at h
          · next hcomma =>
            rw [if_pos hcomma]
            exact hnext hfits h
          · next hcomma =>
            rw [if_neg hcomma]
            exact hnext hfits h

/-! ## Items without parentheses -/

theorem bareLength_append (hends : EndsLine cs) :
    bareLength n (cs ++ b) = bareLength n cs ∧ bareLength n cs < n + cs.length := by
  fun_induction bareLength n cs with
  | case1 => cases hends
  | case2 n rest => exact ⟨rfl, by simp⟩
  | case3 n rest => exact ⟨rfl, by simp⟩
  | case4 n c rest hline hblock hend =>
    refine ⟨?_, by simp⟩
    rw [List.cons_append, bareLength.eq_def]
    split
    · rfl
    · rfl
    · rfl
    · next heq =>
      obtain ⟨rfl, -⟩ := List.cons.inj heq
      rw [if_pos hend]
  | case5 n c rest hline hblock hend ih =>
    have hrest := hends.tail_ne_nil (by rintro rfl; simp at hend)
    have hread := ih (hends.tail hrest)
    refine ⟨?_, by rw [List.length_cons]; omega⟩
    obtain ⟨d, rest, rfl⟩ := List.exists_cons_of_ne_nil hrest
    rw [← hread.1, List.cons_append, List.cons_append, bareLength.eq_def]
    split
    · next heq => cases heq
    · next heq =>
      cases heq
      exact (hline _ rfl rfl).elim
    · next heq =>
      cases heq
      exact (hblock _ rfl rfl).elim
    · next heq =>
      cases heq
      rw [if_neg hend]

end Markup

end TypstLint
