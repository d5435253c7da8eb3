import TypstLint.Proofs.Text.Blank
import TypstLint.Text.Path

set_option autoImplicit false

/-! # Normal forms of paths

The normal form of a relative path is a number of `..` and behind them names, or `.` if there are neither.
One that does not lead out is made of names alone, and so is what stands behind another such path: their
names follow each other (`normalizeChars_joinChars`). -/

namespace TypstLint.Text.Path

variable {c : List Char} {cs names names' stack : List (List Char)} {path : List Char} {rooted : Bool}

/-- Whether a component names something: it is neither empty nor made of one or two points, and no slash
is in it. -/
def IsName (c : List Char) : Prop := c ≠ [] ∧ c ≠ ['.'] ∧ c ≠ ['.', '.'] ∧ '/' ∉ c

/-- The component that takes back the one before it. -/
def up : List Char := ['.', '.']

/-! ## Components -/

theorem ofComponents_eq (cs : List (List Char)) : ofComponents cs = ['/'].intercalate cs := by
  cases cs with
  | nil => rfl
  | cons c rest =>
    induction rest generalizing c with
    | nil => simp [ofComponents, joinWith, List.intercalate]
    | cons d rest ih =>
      rw [List.intercalate_cons_cons, ← ih d]
      simp [ofComponents, joinWith]

theorem ofComponents_cons_cons (c d : List Char) (cs : List (List Char)) :
    ofComponents (c :: d :: cs) = c ++ '/' :: ofComponents (d :: cs) := by
  simp [ofComponents, joinWith]

theorem ofComponents_append (hcs : cs ≠ []) (hnames : names ≠ []) :
    ofComponents (cs ++ names) = ofComponents cs ++ '/' :: ofComponents names := by
  induction cs with
  | nil => exact absurd rfl hcs
  | cons c rest ih =>
    cases rest with
    | nil =>
      obtain ⟨d, names, rfl⟩ := List.exists_cons_of_ne_nil hnames
      rw [List.singleton_append, ofComponents_cons_cons]
      simp [ofComponents, joinWith]
    | cons d rest =>
      have hrest := ih (List.cons_ne_nil d rest)
      rw [List.cons_append, List.cons_append, ofComponents_cons_cons, ← List.cons_append, hrest,
        ofComponents_cons_cons, List.append_assoc, List.cons_append]

theorem components_ofComponents (hcs : cs ≠ []) (h : ∀ c ∈ cs, '/' ∉ c) :
    components (ofComponents cs) = cs := by
  rw [ofComponents_eq]
  exact splitOn_intercalate hcs h

/-! ## The stack of components -/

theorem pushComponent_of_isName (hc : IsName c) : pushComponent rooted stack c = c :: stack := by
  have hstay : ¬ (c == [] || c == ['.']) = true := by simp [hc.1, hc.2.1]
  have hup : ¬ (c == ['.', '.']) = true := by simp [hc.2.2.1]
  unfold pushComponent
  rw [if_neg hstay, if_neg hup]

/-- Names are put on the stack one after the other. -/
theorem foldl_pushComponent (h : ∀ c ∈ names, IsName c) :
    names.foldl (pushComponent rooted) stack = names.reverse ++ stack := by
  induction names generalizing stack with
  | nil => rfl
  | cons c names ih =>
    rw [List.foldl_cons, pushComponent_of_isName (h c List.mem_cons_self),
      ih fun d hd => h d (List.mem_cons_of_mem c hd), List.reverse_cons, List.append_assoc,
      List.singleton_append]

/-- Whether a stack of components, last first, has names above and a number of `..` below; from the root
there are none. -/
def IsSettled (rooted : Bool) (stack : List (List Char)) : Prop :=
  ∃ names k, stack = names ++ List.replicate k up ∧ (∀ c ∈ names, IsName c) ∧ (rooted = true → k = 0)

/-- A `..` takes back the name before it. Where there is none it stays, but not at the root. -/
theorem IsSettled.pushComponent_up (h : IsSettled rooted stack) :
    IsSettled rooted (pushComponent rooted stack up) := by
  obtain ⟨names, k, rfl, hnames, hroot⟩ := h
  cases names with
  | nil =>
    cases k with
    | zero =>
      cases rooted with
      | true => exact ⟨[], 0, rfl, nofun, fun _ => rfl⟩
      | false => exact ⟨[], 1, rfl, nofun, nofun⟩
    | succ k => exact ⟨[], k + 2, rfl, nofun, fun hrooted => absurd (hroot hrooted) k.succ_ne_zero⟩
  | cons name names =>
    have hname := hnames name List.mem_cons_self
    have htop : ¬ (name == ['.', '.']) = true := by simp [hname.2.2.1]
    have hpush : pushComponent rooted (name :: names ++ List.replicate k up) up
        = names ++ List.replicate k up := if_neg htop
    rw [hpush]
    exact ⟨names, k, rfl, fun c hc => hnames c (List.mem_cons_of_mem name hc), hroot⟩

theorem IsSettled.pushComponent (h : IsSettled rooted stack) (hc : '/' ∉ c) :
    IsSettled rooted (pushComponent rooted stack c) := by
  by_cases hstay : (c == [] || c == ['.']) = true
  · unfold Path.pushComponent
    rwa [if_pos hstay]
  · by_cases hup : c = up
    · rw [hup]
      exact h.pushComponent_up
    · simp only [Bool.or_eq_true, beq_iff_eq, not_or] at hstay
      have hname : IsName c := ⟨hstay.1, hstay.2, hup, hc⟩
      obtain ⟨names, k, rfl, hnames, hroot⟩ := h
      rw [pushComponent_of_isName hname]
      exact ⟨c :: names, k, rfl, List.forall_mem_cons.mpr ⟨hname, hnames⟩, hroot⟩

/-- Normal components are a number of `..`, which is zero behind the root, and names behind them. -/
theorem normalComponents_spec (rooted : Bool) (h : ∀ c ∈ cs, '/' ∉ c) : ∃ k names,
    normalComponents rooted cs = List.replicate k up ++ names ∧ (∀ c ∈ names, IsName c)
      ∧ (rooted = true → k = 0) := by
  have hsettled : IsSettled rooted (cs.foldl (pushComponent rooted) []) := by
    refine List.foldlRecOn cs _ ⟨[], 0, rfl, nofun, fun _ => rfl⟩ fun stack hstack c hc => ?_
    exact hstack.pushComponent (h c hc)
  obtain ⟨names, k, heq, hnames, hroot⟩ := hsettled
  refine ⟨k, names.reverse, ?_, fun c hc => hnames c (List.mem_reverse.mp hc), hroot⟩
  rw [normalComponents, heq, List.reverse_append, List.reverse_replicate]

/-! ## Paths of names -/

/-- The path of names behind each other, or `.` without names. -/
def ofNames (names : List (List Char)) : List Char := if names = [] then ['.'] else ofComponents names

theorem ofNames_of_ne_nil (h : names ≠ []) : ofNames names = ofComponents names := if_neg h

theorem components_ofNames (h : ∀ c ∈ names, IsName c) :
    components (ofNames names) = if names = [] then [['.']] else names := by
  unfold ofNames
  split
  · rfl
  · next hne => exact components_ofComponents hne fun c hc => (h c hc).2.2.2

/-- Paths of names tell which names they are made of. -/
theorem ofNames_inj (h : ∀ c ∈ names, IsName c) (h' : ∀ c ∈ names', IsName c)
    (heq : ofNames names = ofNames names') : names = names' := by
  have hcomponents := congrArg components heq
  rw [components_ofNames h, components_ofNames h'] at hcomponents
  split at hcomponents
  · next hnil =>
    split at hcomponents
    · next hnil' => rw [hnil, hnil']
    · subst hcomponents
      exact absurd rfl (h' ['.'] List.mem_cons_self).2.1
  · split at hcomponents
    · subst hcomponents
      exact absurd rfl (h ['.'] List.mem_cons_self).2.1
    · exact hcomponents

theorem ofNames_eq_dot_iff (h : ∀ c ∈ names, IsName c) : ofNames names = ['.'] ↔ names = [] := by
  constructor
  · exact fun heq => ofNames_inj h nofun heq
  · rintro rfl
    rfl

theorem ofNames_cons (c : List Char) (names : List (List Char)) :
    ∃ behind, ofNames (c :: names) = c ++ behind := ⟨_, rfl⟩

theorem ofNames_concat (names : List (List Char)) (c : List Char) :
    ∃ front, ofNames (names ++ [c]) = front ++ c := by
  have hsingle : ofComponents [c] = c := by simp [ofComponents, joinWith]
  rw [ofNames_of_ne_nil (List.append_ne_nil_of_right_ne_nil names (List.cons_ne_nil c []))]
  by_cases hnames : names = []
  · exact ⟨[], by rw [hnames, List.nil_append, List.nil_append, hsingle]⟩
  · refine ⟨ofComponents names ++ ['/'], ?_⟩
    rw [ofComponents_append hnames (List.cons_ne_nil c []), hsingle, List.append_assoc,
      List.singleton_append]

/-- A path of names does not start with a slash. -/
theorem ne_slash_of_head?_ofNames (h : ∀ c ∈ names, IsName c) : ∀ d ∈ (ofNames names).head?, d ≠ '/' := by
  intro d hd
  cases names with
  | nil =>
    obtain rfl : '.' = d := by simpa [ofNames] using hd
    decide
  | cons c names =>
    obtain ⟨hne, -, -, hslash⟩ := h c List.mem_cons_self
    obtain ⟨behind, hbehind⟩ := ofNames_cons c names
    rw [hbehind, List.head?_append_of_ne_nil _ hne] at hd
    exact fun heq => hslash (heq ▸ List.mem_of_head? hd)

/-- A path of names does not end with a slash. -/
theorem ne_slash_of_getLast?_ofNames (h : ∀ c ∈ names, IsName c) :
    ∀ d ∈ (ofNames names).getLast?, d ≠ '/' := by
  intro d hd
  rcases List.eq_nil_or_concat' names with rfl | ⟨front, c, rfl⟩
  · obtain rfl : '.' = d := by simpa [ofNames] using hd
    decide
  · obtain ⟨hne, -, -, hslash⟩ := h c (by simp)
    obtain ⟨before, hbefore⟩ := ofNames_concat front c
    rw [hbefore, List.getLast?_append_of_ne_nil _ hne] at hd
    exact fun heq => hslash (heq ▸ List.mem_of_getLast? hd)

theorem trimWhile_ofNames (h : ∀ c ∈ names, IsName c) : trimWhile (· == '/') (ofNames names) = ofNames names :=
  trimWhile_eq_self_of_ends (fun c hc => beq_false_of_ne (ne_slash_of_head?_ofNames h c hc))
    fun c hc => beq_false_of_ne (ne_slash_of_getLast?_ofNames h c hc)

/-! ## Normal forms -/

theorem rootOf_of_relative (h : ∀ c ∈ path.head?, c ≠ '/') : rootOf path = [] := by
  cases path with
  | nil => rfl
  | cons c rest =>
    have hnone : (c :: rest).takeWhile (· == '/') = [] :=
      List.takeWhile_cons_of_neg (mt beq_iff_eq.mp (h c rfl))
    rw [rootOf, hnone]
    rfl

/-- Without a slash in front the normal form is made of normal components alone. -/
theorem normalizeChars_of_relative (h : ∀ c ∈ path.head?, c ≠ '/') : normalizeChars path =
    if ofComponents (normalComponents false (components path)) = [] then ['.']
    else ofComponents (normalComponents false (components path)) := by
  rw [normalizeChars, rootOf_of_relative h]
  simp

theorem normalizeChars_of_names (h : ∀ c ∈ path.head?, c ≠ '/') (hnames : ∀ c ∈ names, IsName c)
    (heq : normalComponents false (components path) = names) : normalizeChars path = ofNames names := by
  rw [normalizeChars_of_relative h, heq]
  cases names with
  | nil => rfl
  | cons c names =>
    have hne : ofComponents (c :: names) ≠ [] := by
      obtain ⟨behind, hbehind⟩ := ofNames_cons c names
      rw [← ofNames_of_ne_nil (List.cons_ne_nil c names), hbehind]
      exact List.append_ne_nil_of_left_ne_nil (hnames c List.mem_cons_self).1 behind
    rw [if_neg hne, ofNames_of_ne_nil (List.cons_ne_nil c names)]

/-- The normal form of a relative path is made of names, unless it leads out. -/
theorem normalizeChars_eq_ofNames (h : ∀ c ∈ path.head?, c ≠ '/') (hup : normalizeChars path ≠ up)
    (hout : ¬ up ++ ['/'] <+: normalizeChars path) :
    ∃ names, (∀ c ∈ names, IsName c) ∧ normalizeChars path = ofNames names := by
  have hpieces : ∀ c ∈ components path, '/' ∉ c := fun c => notMem_of_mem_splitOn
  obtain ⟨k, names, heq, hnames, -⟩ := normalComponents_spec false hpieces
  cases k with
  | zero => exact ⟨names, hnames, normalizeChars_of_names h hnames heq⟩
  | succ k =>
    rw [normalizeChars_of_relative h, heq, List.replicate_succ, List.cons_append] at hup hout
    cases hrest : List.replicate k up ++ names with
    | nil =>
      rw [hrest] at hup
      exact absurd rfl hup
    | cons c rest =>
      rw [hrest] at hout
      exact absurd ⟨ofComponents (c :: rest), by rw [ofComponents_cons_cons]; rfl⟩ hout

theorem foldl_components_ofNames (h : ∀ c ∈ names, IsName c) :
    (components (ofNames names)).foldl (pushComponent rooted) stack = names.reverse ++ stack := by
  rw [components_ofNames h]
  split
  · next hnil =>
    subst hnil
    rfl
  · exact foldl_pushComponent h

theorem ofNames_ne_nil (h : ∀ c ∈ names, IsName c) : ofNames names ≠ [] := by
  intro hnil
  have hcomponents := components_ofNames h
  rw [hnil] at hcomponents
  split at hcomponents
  · cases hcomponents
  · exact (h [] (hcomponents ▸ List.mem_cons_self)).1 rfl

theorem joinChars_ofNames (h : ∀ c ∈ names, IsName c) (h' : ∀ c ∈ names', IsName c) :
    joinChars (ofNames names) (ofNames names') = ofNames names ++ '/' :: ofNames names' := by
  have hfirst : ¬ ((ofNames names').head? == some '/') = true := fun hhead =>
    ne_slash_of_head?_ofNames h' '/' (beq_iff_eq.mp hhead) rfl
  have hlast : ¬ ((ofNames names).isEmpty || (ofNames names).getLast? == some '/') = true := by
    rw [Bool.or_eq_true, List.isEmpty_iff, beq_iff_eq]
    exact not_or.mpr ⟨ofNames_ne_nil h, fun hlast => ne_slash_of_getLast?_ofNames h '/' hlast rfl⟩
  rw [joinChars, if_neg hfirst, if_neg hlast]

/-- Of two paths of names, one behind the other, the normal form has the names of both. -/
theorem normalizeChars_joinChars (h : ∀ c ∈ names, IsName c) (h' : ∀ c ∈ names', IsName c) :
    normalizeChars (joinChars (ofNames names) (ofNames names')) = ofNames (names ++ names') := by
  rw [joinChars_ofNames h h']
  refine normalizeChars_of_names (fun c hc => ?_) (fun c hc => ?_) ?_
  · rw [List.head?_append_of_ne_nil _ (ofNames_ne_nil h)] at hc
    exact ne_slash_of_head?_ofNames h c hc
  · rcases List.mem_append.mp hc with hc | hc
    · exact h c hc
    · exact h' c hc
  · have hcomponents : components (ofNames names ++ '/' :: ofNames names') =
        components (ofNames names) ++ components (ofNames names') := splitOn_append _ _
    rw [normalComponents, hcomponents, List.foldl_append, foldl_components_ofNames h,
      foldl_components_ofNames h', List.append_nil, List.reverse_append, List.reverse_reverse,
      List.reverse_reverse]

/-- What lies within a path of names, which is not the whole package. -/
theorem ofNames_append (hnames : names ≠ []) (hnames' : names' ≠ []) :
    ofNames (names ++ names') = ofNames names ++ '/' :: ofNames names' := by
  rw [ofNames_of_ne_nil (List.append_ne_nil_of_left_ne_nil hnames names'), ofNames_of_ne_nil hnames,
    ofNames_of_ne_nil hnames', ofComponents_append hnames hnames']

/-- No path of names lies within `.`, as a text. -/
theorem not_dot_prefix_ofNames (h : ∀ c ∈ names, IsName c) : ¬ ['.', '/'] <+: ofNames names := by
  rintro ⟨rest, hrest⟩
  have hcomponents : components (ofNames names) = ['.'] :: components rest := by
    rw [← hrest]
    exact splitOn_append ['.'] rest
  have hne : components rest ≠ [] := splitWhere_ne_nil _ rest
  rw [components_ofNames h] at hcomponents
  split at hcomponents
  · exact hne (List.cons.inj hcomponents).2.symm
  · exact (h ['.'] (hcomponents ▸ List.mem_cons_self)).2.1 rfl

end TypstLint.Text.Path
