import Mathlib.Data.List.TakeWhile
import TypstLint.Proofs.Distinct
import TypstLint.Text.Blank

set_option autoImplicit false

/-! # Trimming and splitting

A text is its pieces with separators between them, and texts without separators are the pieces of the
text that they make (`intercalate_splitOn`, `splitOn_intercalate`). -/

namespace TypstLint.Text

variable {p : Char → Bool} {c : Char} {cs w : List Char} {ws : List (List Char)}

/-- Characters with a property are taken up to the first one without it. -/
theorem takeWhile_append_of_forall {rest : List Char} (hw : ∀ c ∈ w, p c = true)
    (hrest : ∀ c ∈ rest.head?, p c = false) : (w ++ rest).takeWhile p = w := by
  rw [List.takeWhile_append_of_pos hw]
  cases rest with
  | nil => simp
  | cons c rest => simp [hrest c rfl]

/-- Characters with a property are dropped up to the first one without it. -/
theorem dropWhile_append_of_forall {rest : List Char} (hw : ∀ c ∈ w, p c = true)
    (hrest : ∀ c ∈ rest.head?, p c = false) : (w ++ rest).dropWhile p = rest := by
  rw [List.dropWhile_append_of_pos hw]
  cases rest with
  | nil => rfl
  | cons c rest => simp [hrest c rfl]

theorem takeWhile_append_of_mem {b : List Char} (hmem : c ∈ cs) (hp : p c = false) :
    (cs ++ b).takeWhile p = cs.takeWhile p := by
  rw [List.takeWhile_append, if_neg]
  intro hlength
  have hall := List.takeWhile_eq_self_iff.mp ((List.takeWhile_prefix p).eq_of_length hlength)
  exact absurd (hall c hmem) (by simp [hp])

theorem length_takeWhile_lt_of_mem (hmem : c ∈ cs) (hp : p c = false) :
    (cs.takeWhile p).length < cs.length := by
  refine Nat.lt_of_le_of_ne (List.takeWhile_prefix p).length_le fun hlength => ?_
  have hall := List.takeWhile_eq_self_iff.mp ((List.takeWhile_prefix p).eq_of_length hlength)
  exact absurd (hall c hmem) (by simp [hp])

theorem length_dropEndWhile_le (p : Char → Bool) (cs : List Char) :
    (dropEndWhile p cs).length ≤ cs.length := by
  rw [dropEndWhile, List.length_reverse, ← cs.length_reverse]
  exact (List.dropWhile_suffix p).length_le

theorem mem_dropWhile (hc : p c = false) (h : c ∈ cs) : c ∈ cs.dropWhile p := by
  induction cs with
  | nil => cases h
  | cons d cs ih =>
    rw [List.dropWhile_cons]
    split
    · next hd =>
      rcases List.mem_cons.mp h with rfl | h
      · rw [hc] at hd
        cases hd
      · exact ih h
    · exact h

/-- Trimming the end takes off a part that is to be trimmed. -/
theorem exists_append_dropEndWhile (p : Char → Bool) (cs : List Char) :
    ∃ behind, cs = dropEndWhile p cs ++ behind ∧ ∀ c ∈ behind, p c = true := by
  refine ⟨(cs.reverse.takeWhile p).reverse, ?_, fun c hc => List.mem_takeWhile_imp (List.mem_reverse.mp hc)⟩
  rw [dropEndWhile, ← List.reverse_append, List.takeWhile_append_dropWhile, List.reverse_reverse]

theorem dropEndWhile_append_of_forall {tail : List Char} (h : ∀ c ∈ tail, p c = true) :
    dropEndWhile p (cs ++ tail) = dropEndWhile p cs := by
  have hreverse : ∀ c ∈ tail.reverse, p c = true := fun c hc => h c (List.mem_reverse.mp hc)
  rw [dropEndWhile, List.reverse_append, List.dropWhile_append_of_pos hreverse, dropEndWhile]

theorem mem_dropEndWhile (hc : p c = false) (h : c ∈ cs) : c ∈ dropEndWhile p cs := by
  rw [dropEndWhile, List.mem_reverse]
  exact mem_dropWhile hc (List.mem_reverse.mpr h)

/-- Trimming leaves what it does not trim. -/
theorem mem_trimWhile (hc : p c = false) (h : c ∈ cs) : c ∈ trimWhile p cs :=
  mem_dropEndWhile hc (mem_dropWhile hc h)

theorem length_trimWhile_le (p : Char → Bool) (cs : List Char) :
    (cs.takeWhile p).length + (trimWhile p cs).length ≤ cs.length := by
  have hlength := congrArg List.length (List.takeWhile_append_dropWhile (p := p) (l := cs))
  have htrim : (trimWhile p cs).length ≤ (cs.dropWhile p).length := length_dropEndWhile_le p _
  rw [List.length_append] at hlength
  omega

theorem dropWhile_eq_self (h : ∀ c ∈ cs, p c = false) : cs.dropWhile p = cs := by
  cases cs with
  | nil => rfl
  | cons c cs => exact List.dropWhile_cons_of_neg (by simp [h c])

/-- Where nothing is to be trimmed, nothing is. -/
theorem trimWhile_eq_self (h : ∀ c ∈ cs, p c = false) : trimWhile p cs = cs := by
  have hreverse : ∀ c ∈ cs.reverse, p c = false := fun c hc => h c (List.mem_reverse.mp hc)
  rw [trimWhile, dropWhile_eq_self h, dropEndWhile, dropWhile_eq_self hreverse, List.reverse_reverse]

theorem dropEndWhile_eq_self (h : ∀ c ∈ cs.getLast?, p c = false) : dropEndWhile p cs = cs := by
  rw [← List.head?_reverse] at h
  rw [dropEndWhile]
  cases hreverse : cs.reverse with
  | nil => rw [List.reverse_eq_nil_iff.mp hreverse, List.dropWhile_nil, List.reverse_nil]
  | cons c rest =>
    have hc : ¬ p c = true := by simp [h c (by rw [hreverse]; rfl)]
    rw [List.dropWhile_cons_of_neg hc, ← hreverse, List.reverse_reverse]

/-- Where nothing is to be trimmed at the end, only the front is trimmed. -/
theorem takeWhile_append_trimWhile (h : ∀ c ∈ cs.getLast?, p c = false) :
    cs.takeWhile p ++ trimWhile p cs = cs := by
  have hrest : ∀ c ∈ (cs.dropWhile p).getLast?, p c = false := by
    intro c hc
    refine h c ?_
    rw [← List.takeWhile_append_dropWhile (p := p) (l := cs), List.getLast?_append, hc]
    rfl
  rw [trimWhile, dropEndWhile_eq_self hrest, List.takeWhile_append_dropWhile]

/-- A text that neither starts nor ends with what is trimmed off is not trimmed. -/
theorem trimWhile_eq_self_of_ends (hfirst : ∀ c ∈ cs.head?, p c = false)
    (hlast : ∀ c ∈ cs.getLast?, p c = false) : trimWhile p cs = cs := by
  have hfront : cs.takeWhile p = [] := by
    cases cs with
    | nil => rfl
    | cons c rest => exact List.takeWhile_cons_of_neg (by simp [hfirst c rfl])
  have hcs := takeWhile_append_trimWhile hlast
  rwa [hfront, List.nil_append] at hcs

/-- What is trimmed off in front does not matter. -/
theorem trimWhile_append_of_forall {front : List Char} (h : ∀ c ∈ front, p c = true) :
    trimWhile p (front ++ cs) = trimWhile p cs := by
  rw [trimWhile, List.dropWhile_append_of_pos h, ← trimWhile]

/-- What is trimmed off behind does not matter either. -/
theorem trimWhile_append_of_forall_right {behind : List Char} (h : ∀ c ∈ behind, p c = true) :
    trimWhile p (cs ++ behind) = trimWhile p cs := by
  rw [trimWhile, List.dropWhile_append]
  split
  · next hnil =>
    rw [trimWhile, List.isEmpty_iff.mp hnil, List.dropWhile_eq_nil_iff.mpr h]
  · rw [dropEndWhile_append_of_forall h, ← trimWhile]

/-- Trimming takes off parts at both ends that are to be trimmed. -/
theorem exists_append_trimWhile (p : Char → Bool) (cs : List Char) :
    ∃ front behind, cs = front ++ (trimWhile p cs ++ behind) ∧ (∀ c ∈ front, p c = true)
      ∧ ∀ c ∈ behind, p c = true := by
  obtain ⟨behind, hrest, hbehind⟩ := exists_append_dropEndWhile p (cs.dropWhile p)
  refine ⟨cs.takeWhile p, behind, ?_, fun c hc => List.mem_takeWhile_imp hc, hbehind⟩
  rw [trimWhile, ← hrest, List.takeWhile_append_dropWhile]

/-- What was trimmed does not end in what is trimmed off. -/
theorem eq_false_of_getLast?_trimWhile (h : (trimWhile p cs).getLast? = some c) : p c = false := by
  rw [trimWhile, dropEndWhile, List.getLast?_reverse] at h
  have hhead := List.head?_dropWhile_not p (cs.dropWhile p).reverse
  rw [h] at hhead
  exact hhead

/-! ## Splitting -/

theorem splitWhere_cons (p : Char → Bool) (c : Char) (cs : List Char) :
    splitWhere p (c :: cs) =
      match splitWhere p cs with
      | [] => [[c]]
      | w :: ws => if p c then [] :: w :: ws else (c :: w) :: ws := rfl

theorem splitWhere_ne_nil (p : Char → Bool) (cs : List Char) : splitWhere p cs ≠ [] := by
  cases cs with
  | nil => exact List.cons_ne_nil _ _
  | cons c cs =>
    rw [splitWhere_cons]
    split
    · exact List.cons_ne_nil _ _
    · split <;> exact List.cons_ne_nil _ _

theorem splitWhere_cons_of_pos (hc : p c = true) (cs : List Char) : splitWhere p (c :: cs) = [] :: splitWhere p cs := by
  rw [splitWhere_cons]
  split
  · next hnil => exact absurd hnil (splitWhere_ne_nil p cs)
  · next hsplit => rw [if_pos hc, hsplit]

theorem splitWhere_cons_of_neg (hc : p c = false) (hsplit : splitWhere p cs = w :: ws) :
    splitWhere p (c :: cs) = (c :: w) :: ws := by
  rw [splitWhere_cons, hsplit]
  exact if_neg (Bool.eq_false_iff.mp hc)

theorem splitWhere_of_forall (h : ∀ c ∈ w, p c = false) : splitWhere p w = [w] := by
  induction w with
  | nil => rfl
  | cons c cs ih =>
    obtain ⟨hc, hcs⟩ := List.forall_mem_cons.mp h
    exact splitWhere_cons_of_neg hc (ih hcs)

theorem splitWhere_append (hc : p c = true) (xs ys : List Char) :
    splitWhere p (xs ++ c :: ys) = splitWhere p xs ++ splitWhere p ys := by
  induction xs with
  | nil => exact splitWhere_cons_of_pos hc ys
  | cons d cs ih =>
    cases hd : p d with
    | true => rw [List.cons_append, splitWhere_cons_of_pos hd, splitWhere_cons_of_pos hd, ih, List.cons_append]
    | false =>
      cases hsplit : splitWhere p cs with
      | nil => exact absurd hsplit (splitWhere_ne_nil p cs)
      | cons first rest =>
        rw [hsplit, List.cons_append] at ih
        rw [List.cons_append, splitWhere_cons_of_neg hd ih, splitWhere_cons_of_neg hd hsplit, List.cons_append]

/-- No character at which a text is split is in a piece. -/
theorem eq_false_of_mem_splitWhere (hw : w ∈ splitWhere p cs) (hc : c ∈ w) :
    p c = false := by
  induction cs generalizing w with
  | nil =>
    obtain rfl := List.mem_singleton.mp hw
    cases hc
  | cons d cs ih =>
    rw [splitWhere_cons] at hw
    split at hw
    · next hnil => exact absurd hnil (splitWhere_ne_nil p cs)
    · next first rest hsplit =>
      rw [hsplit] at ih
      split at hw
      · rcases List.mem_cons.mp hw with rfl | hw
        · cases hc
        · exact ih hw hc
      · next hd =>
        rcases List.mem_cons.mp hw with rfl | hw
        · rcases List.mem_cons.mp hc with rfl | hc
          · exact Bool.eq_false_iff.mpr hd
          · exact ih List.mem_cons_self hc
        · exact ih (List.mem_cons_of_mem first hw) hc

theorem notMem_of_mem_splitOn {sep : Char} (hw : w ∈ splitOn sep cs) : sep ∉ w := by
  intro hsep
  have hne := eq_false_of_mem_splitWhere hw hsep
  rw [beq_self_eq_true] at hne
  cases hne

/-- A text is cut at the first separator. -/
theorem cut_eq_some_iff {sep : Char} {w after : List Char} :
    cut sep cs = (w, some after) ↔ sep ∉ w ∧ cs = w ++ sep :: after := by
  constructor
  · intro h
    unfold cut at h
    split at h
    · cases h
    · next d rest hdrop =>
      obtain ⟨rfl, rfl⟩ : cs.takeWhile (· != sep) = w ∧ rest = after := by simpa using h
      have hd := List.head?_dropWhile_not (· != sep) cs
      rw [hdrop] at hd
      obtain rfl : d = sep := by simpa using hd
      constructor
      · intro hmem
        simpa using List.all_eq_true.mp List.all_takeWhile d hmem
      · rw [← hdrop, List.takeWhile_append_dropWhile]
  · rintro ⟨hsep, rfl⟩
    rw [cut, dropWhile_ne_append after hsep, takeWhile_ne_append after hsep]

/-! ## Pieces -/

variable {sep : Char}

theorem splitOn_cons_sep (cs : List Char) : splitOn sep (sep :: cs) = [] :: splitOn sep cs :=
  splitWhere_cons_of_pos (p := (· == sep)) (beq_self_eq_true sep) cs

theorem splitOn_cons_of_ne (hc : c ≠ sep) (hsplit : splitOn sep cs = w :: ws) :
    splitOn sep (c :: cs) = (c :: w) :: ws :=
  splitWhere_cons_of_neg (beq_false_of_ne hc) hsplit

theorem splitOn_of_notMem (h : sep ∉ w) : splitOn sep w = [w] :=
  splitWhere_of_forall fun _ hc => beq_false_of_ne (ne_of_mem_of_not_mem hc h)

theorem splitOn_append (xs ys : List Char) :
    splitOn sep (xs ++ sep :: ys) = splitOn sep xs ++ splitOn sep ys :=
  splitWhere_append (p := (· == sep)) (beq_self_eq_true sep) xs ys

/-- The pieces of a text give the text again. -/
theorem intercalate_splitOn (cs : List Char) : [sep].intercalate (splitOn sep cs) = cs := by
  induction cs with
  | nil => rfl
  | cons c cs ih =>
    cases hsplit : splitOn sep cs with
    | nil => exact absurd hsplit (splitWhere_ne_nil _ cs)
    | cons first rest =>
      rw [hsplit] at ih
      by_cases hc : c = sep
      · subst hc
        rw [splitOn_cons_sep, hsplit, List.intercalate_cons_cons, ih]
        rfl
      · rw [splitOn_cons_of_ne hc hsplit, ← ih]
        cases rest with
        | nil => rfl
        | cons second rest => rw [List.intercalate_cons_cons, List.intercalate_cons_cons]; rfl

/-- A text of pieces consists of them and of separators. -/
theorem mem_of_mem_intercalate (h : c ∈ [sep].intercalate ws) :
    c = sep ∨ ∃ w ∈ ws, c ∈ w := by
  induction ws with
  | nil => cases h
  | cons w rest ih =>
    cases rest with
    | nil =>
      rw [List.intercalate_singleton] at h
      exact .inr ⟨w, List.mem_cons_self, h⟩
    | cons v rest =>
      rw [List.intercalate_cons_cons, List.mem_append, List.mem_append, List.mem_singleton] at h
      rcases h with (h | h) | h
      · exact .inr ⟨w, List.mem_cons_self, h⟩
      · exact .inl h
      · exact (ih h).imp_right fun ⟨u, hu, hc⟩ => ⟨u, List.mem_cons_of_mem w hu, hc⟩

theorem splitOn_intercalate (hne : ws ≠ []) (h : ∀ w ∈ ws, sep ∉ w) :
    splitOn sep ([sep].intercalate ws) = ws := by
  induction ws with
  | nil => exact absurd rfl hne
  | cons w rest ih =>
    cases rest with
    | nil =>
      rw [List.intercalate_singleton]
      exact splitOn_of_notMem (h w List.mem_cons_self)
    | cons v rest =>
      have hrest := ih (List.cons_ne_nil _ _) fun w hw => h w (List.mem_cons_of_mem _ hw)
      rw [List.intercalate_cons_cons, List.append_assoc, List.singleton_append, splitOn_append,
        splitOn_of_notMem (h w List.mem_cons_self), hrest, List.singleton_append]

theorem afterLast_of_notMem (h : sep ∉ w) : afterLast sep w = w := by
  have htake : w.reverse.takeWhile (· != sep) = w.reverse :=
    List.takeWhile_eq_self_iff.mpr fun c hc => bne_iff_ne.mpr (ne_of_mem_of_not_mem (List.mem_reverse.mp hc) h)
  rw [afterLast, htake, List.reverse_reverse]

theorem afterLast_append (xs ys : List Char) : afterLast sep (xs ++ sep :: ys) = afterLast sep ys := by
  have hreverse : (xs ++ sep :: ys).reverse = ys.reverse ++ sep :: xs.reverse := by simp
  have htake : (ys.reverse ++ sep :: xs.reverse).takeWhile (· != sep) = ys.reverse.takeWhile (· != sep) := by
    rw [List.takeWhile_append]
    split
    · next hall => simpa using (List.takeWhile_prefix _).eq_of_length hall |>.symm
    · rfl
  rw [afterLast, hreverse, htake, afterLast]

/-- What stands behind the last separator is the last piece. -/
theorem afterLast_intercalate (hne : ws ≠ []) (h : ∀ w ∈ ws, sep ∉ w) :
    afterLast sep ([sep].intercalate ws) = ws.getLast hne := by
  induction ws with
  | nil => exact absurd rfl hne
  | cons w rest ih =>
    cases rest with
    | nil =>
      rw [List.intercalate_singleton]
      exact afterLast_of_notMem (h w List.mem_cons_self)
    | cons v rest =>
      have hrest := ih (List.cons_ne_nil _ _) fun w hw => h w (List.mem_cons_of_mem _ hw)
      rw [List.intercalate_cons_cons, List.append_assoc, List.singleton_append, afterLast_append, hrest,
        List.getLast_cons (List.cons_ne_nil v rest)]

/-! ## Words -/

theorem words_cons_of_blank (hc : isBlank c = true) (cs : List Char) : words (c :: cs) = words cs := by
  rw [words, splitWhere_cons_of_pos hc]
  rfl

theorem words_append_of_blank {blanks : List Char} (h : ∀ c ∈ blanks, isBlank c = true) (cs : List Char) :
    words (blanks ++ cs) = words cs := by
  induction blanks with
  | nil => rfl
  | cons c blanks ih =>
    obtain ⟨hc, hblanks⟩ := List.forall_mem_cons.mp h
    rw [List.cons_append, words_cons_of_blank hc, ih hblanks]

/-- A word ends at a blank, or with the text. -/
theorem words_append_of_word (hne : w ≠ []) (hw : ∀ c ∈ w, isBlank c = false)
    (hcs : ∀ c ∈ cs.head?, isBlank c = true) : words (w ++ cs) = w :: words cs := by
  have hkeep : ∀ pieces : List (List Char), (w :: pieces).filter (!·.isEmpty) = w :: pieces.filter (!·.isEmpty) :=
    fun pieces => List.filter_cons_of_pos (by simpa using hne)
  cases cs with
  | nil => rw [List.append_nil, words, splitWhere_of_forall hw, hkeep]; rfl
  | cons c cs =>
    have hc : isBlank c = true := hcs c rfl
    rw [words_cons_of_blank hc, words, splitWhere_append hc, splitWhere_of_forall hw, List.singleton_append, hkeep]
    rfl

end TypstLint.Text
