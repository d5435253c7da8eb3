import Mathlib.Data.List.TakeWhile
import TypstLint.ImportGraph.Resolve
import TypstLint.Proofs.Manifest.Template

set_option autoImplicit false

/-! # Targets within a package

A target leads from the directory of the source, or from the root of the package, along its components. It
resolves exactly if this walk never goes up from the root and does not end there, and then to the path of
the place where it ends (`resolveRelative_follows`). Normal forms agree with the walk: above the root they
start with `..`, and no component behind it takes that back. -/

namespace TypstLint.Text.Path

variable {c : List Char} {cs names place stack : List (List Char)} {path : List Char}

/-! ## Walks over components -/

/-- Where components lead from a place inside the root, which is told by its names: empty components and
`.` stay, `..` goes up, and no way goes up from the root. -/
def follow (place : List (List Char)) : List (List Char) → Option (List (List Char))
  | [] => some place
  | c :: cs =>
    if c = [] ∨ c = ['.'] then follow place cs
    else if c = up then if place = [] then none else follow place.dropLast cs
    else follow (place ++ [c]) cs

theorem follow_of_stays (h : c = [] ∨ c = ['.']) : follow place (c :: cs) = follow place cs := by
  rw [follow, if_pos h]

theorem follow_up (h : place ≠ []) : follow place (up :: cs) = follow place.dropLast cs := by
  rw [follow, if_neg (by decide), if_pos rfl, if_neg h]

theorem follow_of_isName (h : IsName c) : follow place (c :: cs) = follow (place ++ [c]) cs := by
  have hup : c ≠ up := h.2.2.1
  rw [follow, if_neg (not_or.mpr ⟨h.1, h.2.1⟩), if_neg hup]

theorem follow_append (place cs cs' : List (List Char)) :
    follow place (cs ++ cs') = (follow place cs).bind (follow · cs') := by
  fun_induction follow place cs with
  | case1 place => rfl
  | case2 place c cs hstay ih => rw [List.cons_append, follow_of_stays hstay, ih]
  | case3 cs => rfl
  | case4 place cs hroot _ ih => rw [List.cons_append, follow_up hroot, ih]
  | case5 place c cs hstay hup ih => rw [List.cons_append, follow, if_neg hstay, if_neg hup, ih]

/-- A component without a slash stays, goes up or is a name. -/
theorem stays_or_up_or_isName (h : '/' ∉ c) : (c = [] ∨ c = ['.']) ∨ c = up ∨ IsName c := by
  by_cases hstay : c = [] ∨ c = ['.']
  · exact .inl hstay
  · by_cases hup : c = up
    · exact .inr (.inl hup)
    · obtain ⟨hempty, hdot⟩ := not_or.mp hstay
      exact .inr (.inr ⟨hempty, hdot, hup, h⟩)

theorem pushComponent_of_stays {rooted : Bool} (h : c = [] ∨ c = ['.']) :
    pushComponent rooted stack c = stack := by
  unfold pushComponent
  rw [if_pos (by simpa using h)]

theorem pushComponent_up_of_isName {rooted : Bool} (h : IsName c) :
    pushComponent rooted (c :: stack) up = stack := by
  have htop : ¬ (c == ['.', '.']) = true := by simp [h.2.2.1]
  exact if_neg htop

/-- Once `..` lies at the bottom of the stack it stays there: no name below it is taken back. -/
theorem getLast?_pushComponent (h : stack.getLast? = some up) (c : List Char) :
    (pushComponent false stack c).getLast? = some up := by
  unfold pushComponent
  split
  · exact h
  · split
    · cases stack with
      | nil => cases h
      | cons top below =>
        dsimp only
        split
        · rw [List.getLast?_cons, h]
          rfl
        · next htop =>
          cases below with
          | nil => exact absurd (beq_iff_eq.mpr (Option.some.inj h)) htop
          | cons => rwa [List.getLast?_cons_cons] at h
    · rw [List.getLast?_cons, h]
      rfl

theorem getLast?_foldl_pushComponent (h : stack.getLast? = some up) (cs : List (List Char)) :
    (cs.foldl (pushComponent false) stack).getLast? = some up := by
  induction cs generalizing stack with
  | nil => exact h
  | cons c cs ih => exact ih (getLast?_pushComponent h c)

/-- The stack of components has the names of the place where they lead, last first. If they lead above the
root, `..` lies at its bottom. -/
theorem foldl_pushComponent_of_follow (hplace : ∀ c ∈ place, IsName c) (hcs : ∀ c ∈ cs, '/' ∉ c) :
    match follow place cs with
    | some names => cs.foldl (pushComponent false) place.reverse = names.reverse ∧ ∀ c ∈ names, IsName c
    | none => (cs.foldl (pushComponent false) place.reverse).getLast? = some up := by
  induction cs generalizing place with
  | nil => exact ⟨rfl, hplace⟩
  | cons c cs ih =>
    have hrest : ∀ c ∈ cs, '/' ∉ c := fun d hd => hcs d (List.mem_cons_of_mem c hd)
    rw [List.foldl_cons]
    rcases stays_or_up_or_isName (hcs c List.mem_cons_self) with hstay | rfl | hname
    · rw [follow_of_stays hstay, pushComponent_of_stays hstay]
      exact ih hplace hrest
    · rcases List.eq_nil_or_concat' place with rfl | ⟨front, name, rfl⟩
      · exact getLast?_foldl_pushComponent rfl cs
      · obtain ⟨hfront, hname⟩ := List.forall_mem_append.mp hplace
        rw [follow_up (by simp), List.dropLast_concat, List.reverse_concat,
          pushComponent_up_of_isName (hname name List.mem_cons_self)]
        exact ih hfront hrest
    · rw [follow_of_isName hname, pushComponent_of_isName hname, ← List.reverse_concat]
      exact ih (List.forall_mem_append.mpr ⟨hplace, by simpa using hname⟩) hrest

theorem isName_of_follow (hcs : ∀ c ∈ cs, '/' ∉ c) (h : follow [] cs = some names) :
    ∀ c ∈ names, IsName c := by
  have hroot : ∀ c ∈ ([] : List (List Char)), IsName c := nofun
  have hstack := foldl_pushComponent_of_follow hroot hcs
  rw [h] at hstack
  exact hstack.2

/-- So a relative path that leads to a place inside the root has the names of this place as normal form. -/
theorem normalizeChars_of_follow (hrelative : ∀ c ∈ path.head?, c ≠ '/')
    (h : follow [] (components path) = some names) : normalizeChars path = ofNames names := by
  have hroot : ∀ c ∈ ([] : List (List Char)), IsName c := nofun
  have hcs : ∀ c ∈ components path, '/' ∉ c := fun c => notMem_of_mem_splitOn
  have hstack := foldl_pushComponent_of_follow hroot hcs
  rw [h] at hstack
  refine normalizeChars_of_names hrelative hstack.2 ?_
  rw [normalComponents]
  exact (congrArg List.reverse hstack.1).trans (List.reverse_reverse names)

/-- Whether a path in normal form leads above the place from which it is seen. -/
def GoesUp (path : List Char) : Prop := path = up ∨ up ++ ['/'] <+: path

/-- The normal form of a relative path that leads above the root starts with `..`. -/
theorem goesUp_normalizeChars (hrelative : ∀ c ∈ path.head?, c ≠ '/')
    (h : follow [] (components path) = none) : GoesUp (normalizeChars path) := by
  have hroot : ∀ c ∈ ([] : List (List Char)), IsName c := nofun
  have hcs : ∀ c ∈ components path, '/' ∉ c := fun c => notMem_of_mem_splitOn
  have hstack := foldl_pushComponent_of_follow hroot hcs
  rw [h] at hstack
  obtain ⟨rest, hrest⟩ : ∃ rest, normalComponents false (components path) = up :: rest := by
    rw [← List.head?_eq_some_iff, normalComponents, List.head?_reverse]
    exact hstack
  rw [normalizeChars_of_relative hrelative, hrest]
  cases rest with
  | nil => exact .inl rfl
  | cons c rest => exact .inr ⟨ofComponents (c :: rest), by rw [ofComponents_cons_cons]; rfl⟩

/-- A path of names does not. -/
theorem not_goesUp_ofNames (h : ∀ c ∈ names, IsName c) : ¬ GoesUp (ofNames names) := by
  have hmem : up ∉ components (ofNames names) := by
    rw [components_ofNames h]
    split
    · decide
    · exact fun hup => (h up hup).2.2.1 rfl
  rintro (hup | ⟨rest, hup⟩)
  · rw [hup] at hmem
    exact hmem (by decide)
  · refine hmem ?_
    have hcomponents : components (up ++ '/' :: rest) = components up ++ components rest := splitOn_append _ _
    rw [← hup, List.append_assoc, List.singleton_append, hcomponents]
    exact List.mem_append_left _ List.mem_cons_self

/-! ## Walks along paths -/

variable {front : List Char}

theorem components_append_slash (p q : List Char) : components (p ++ '/' :: q) = components p ++ components q :=
  splitOn_append p q

/-- Slashes alone lead nowhere. -/
theorem follow_slashes (h : ∀ c ∈ front, c = '/') (place : List (List Char)) (path : List Char) :
    follow place (components (front ++ path)) = follow place (components path) := by
  induction front with
  | nil => rfl
  | cons c front ih =>
    obtain ⟨rfl, hfront⟩ := List.forall_mem_cons.mp h
    rw [← ih hfront]
    exact (congrArg (follow place) (components_append_slash [] _)).trans (follow_of_stays (.inl rfl))

theorem follow_components_nil (place : List (List Char)) : follow place (components []) = some place :=
  follow_of_stays (.inl rfl)

/-- Slashes at the end of a path lead nowhere. -/
theorem follow_append_slashes (h : ∀ c ∈ front, c = '/') (place : List (List Char)) (path : List Char) :
    follow place (components (path ++ front)) = follow place (components path) := by
  cases front with
  | nil => rw [List.append_nil]
  | cons c front =>
    obtain ⟨rfl, hfront⟩ := List.forall_mem_cons.mp h
    have hstay (place) : follow place (components front) = some place := by
      rw [← follow_components_nil, ← follow_slashes hfront place [], List.append_nil]
    rw [components_append_slash, follow_append]
    simp only [hstay, Option.bind_fun_some]

/-- A path that is seen from another one is followed from where that one leads. -/
theorem follow_joinChars {q : List Char} (hq : ∀ c ∈ q.head?, c ≠ '/') (place : List (List Char))
    (p : List Char) :
    follow place (components (joinChars p q))
      = (follow place (components p)).bind (follow · (components q)) := by
  have hrelative : ¬ (q.head? == some '/') = true := fun h => hq '/' (beq_iff_eq.mp h) rfl
  rw [joinChars, if_neg hrelative]
  split
  · next hend =>
    rw [Bool.or_eq_true, List.isEmpty_iff, beq_iff_eq] at hend
    rcases hend with rfl | hend
    · rw [follow_components_nil]
      rfl
    · obtain ⟨front, rfl⟩ := List.getLast?_eq_some_iff.mp hend
      rw [List.append_assoc, List.singleton_append, components_append_slash, follow_append,
        follow_append_slashes (by simp)]
  · rw [components_append_slash, follow_append]

theorem follow_dropEndWhile_slash (place : List (List Char)) (path : List Char) :
    follow place (components (dropEndWhile (· == '/') path)) = follow place (components path) := by
  have hslashes : ∀ c ∈ (path.reverse.takeWhile (· == '/')).reverse, c = '/' :=
    fun c hc => beq_iff_eq.mp (List.mem_takeWhile_imp (p := (· == '/')) (List.mem_reverse.mp hc))
  rw [← follow_append_slashes hslashes, dropEndWhile, ← List.reverse_append, List.takeWhile_append_dropWhile,
    List.reverse_reverse]

/-- The directory of a path is where all of its components but the last one lead. -/
theorem follow_parentChars (place : List (List Char)) (path : List Char) :
    follow place (components (parentChars path)) = follow place (components path).dropLast := by
  have hhead : follow place (components (path.reverse.dropWhile (· != '/')).reverse)
      = follow place (components path).dropLast := by
    by_cases hslash : '/' ∈ path
    · obtain ⟨last, front, hreverse, hlast⟩ := List.eq_append_cons_of_mem (List.mem_reverse.mpr hslash)
      have hpath : path = front.reverse ++ '/' :: last.reverse := by
        rw [← List.reverse_reverse path, hreverse]
        simp
      have hdrop : path.reverse.dropWhile (· != '/') = '/' :: front := by
        have hnone : ∀ c ∈ last, (c != '/') = true := by
          intro c hc
          rw [bne_iff_ne]
          rintro rfl
          exact hlast hc
        rw [hreverse, List.dropWhile_append_of_pos hnone]
        rfl
      have hpiece : components last.reverse = [last.reverse] := splitOn_of_notMem (by simpa using hlast)
      rw [hdrop, List.reverse_cons, follow_append_slashes (by simp), hpath, components_append_slash, hpiece,
        List.dropLast_concat]
    · have hdrop : path.reverse.dropWhile (· != '/') = [] := by
        rw [List.dropWhile_eq_nil_iff]
        intro c hc
        rw [bne_iff_ne]
        rintro rfl
        exact hslash (List.mem_reverse.mp hc)
      have hpiece : components path = [path] := splitOn_of_notMem hslash
      rw [hdrop, hpiece]
      exact follow_components_nil place
  rw [← hhead, parentChars]
  split
  · rfl
  · exact follow_dropEndWhile_slash place _

theorem isRelative_parentChars (h : ∀ c ∈ path.head?, c ≠ '/') :
    ∀ c ∈ (parentChars path).head?, c ≠ '/' := by
  have hfront {p : Char → Bool} (cs : List Char) : (cs.reverse.dropWhile p).reverse <+: cs := by
    rw [← List.reverse_suffix, List.reverse_reverse]
    exact List.dropWhile_suffix p
  have hparent : parentChars path <+: path := by
    unfold parentChars
    dsimp only
    split
    · exact hfront path
    · exact (hfront _).trans (hfront path)
  obtain ⟨rest, hrest⟩ := hparent
  intro c hc
  refine h c ?_
  rw [← hrest, List.head?_append, hc]
  rfl

theorem isRelative_joinChars {p q : List Char} (hp : ∀ c ∈ p.head?, c ≠ '/') (hq : ∀ c ∈ q.head?, c ≠ '/') :
    ∀ c ∈ (joinChars p q).head?, c ≠ '/' := by
  have hrelative : ¬ (q.head? == some '/') = true := fun h => hq '/' (beq_iff_eq.mp h) rfl
  rw [joinChars, if_neg hrelative]
  cases p with
  | nil => exact hq
  | cons d p =>
    split
    · exact hp
    · exact hp

end TypstLint.Text.Path

namespace TypstLint

open Text.Path

variable {source target : String} {names : List (List Char)}

/-- The place from which a target is followed: the root if it starts with a slash, else the directory of the
source, where all components of the source but the last one lead. -/
def startOf (source target : String) : Option (List (List Char)) :=
  if target.toList.head? = some '/' then some [] else follow [] (components source.toList).dropLast

/-- The place where a target leads. -/
def destination (source target : String) : Option (List (List Char)) :=
  (startOf source target).bind (follow · (components target.toList))

/-- The path of a place, if it is not the root. -/
def pathOfPlace? (names : List (List Char)) : Option String :=
  if names = [] then none else some (String.ofList (ofComponents names))

theorem pathOfPlace?_normalizeChars {path : List Char} (hrelative : ∀ c ∈ path.head?, c ≠ '/') :
    (if normalizeChars path == ".".toList || normalizeChars path == "..".toList
        || "../".toList.isPrefixOf (normalizeChars path) then none
      else some (String.ofList (normalizeChars path)))
      = (follow [] (components path)).bind pathOfPlace? := by
  cases hfollow : follow [] (components path) with
  | none =>
    have hup := goesUp_normalizeChars hrelative hfollow
    rw [if_pos]
    · rfl
    · rw [Bool.or_eq_true, Bool.or_eq_true, beq_iff_eq, beq_iff_eq, List.isPrefixOf_iff_prefix, or_assoc]
      exact .inr hup
  | some names =>
    have hnames := isName_of_follow (fun c => Text.notMem_of_mem_splitOn) hfollow
    have hinside := not_goesUp_ofNames hnames
    rw [normalizeChars_of_follow hrelative hfollow, Option.bind_some, pathOfPlace?]
    by_cases hroot : names = []
    · rw [if_pos hroot, hroot]
      rfl
    · rw [if_neg hroot, if_neg, ofNames_of_ne_nil hroot]
      rw [Bool.or_eq_true, Bool.or_eq_true, beq_iff_eq, beq_iff_eq, List.isPrefixOf_iff_prefix, or_assoc]
      exact not_or.mpr ⟨fun hdot => hroot ((ofNames_eq_dot_iff hnames).mp hdot), hinside⟩

/-- A target resolves to the path of the place where it leads. -/
theorem resolveRelative_eq (h : target.toList.head? = some '/' ∨ source.toList.head? ≠ some '/') :
    resolveRelative source target = (destination source target).bind pathOfPlace? := by
  unfold resolveRelative destination startOf
  dsimp only
  by_cases htarget : target.toList.head? = some '/'
  · have hrelative : ∀ c ∈ (target.toList.dropWhile (· == '/')).head?, c ≠ '/' := by
      rintro c hc rfl
      have hhead := List.head?_dropWhile_not (· == '/') target.toList
      rw [hc] at hhead
      cases hhead
    have hslashes : ∀ c ∈ target.toList.takeWhile (· == '/'), c = '/' :=
      fun c hc => beq_iff_eq.mp (List.mem_takeWhile_imp (p := (· == '/')) hc)
    have hfollow : follow [] (components (target.toList.dropWhile (· == '/')))
        = follow [] (components target.toList) := by
      rw [← follow_slashes hslashes, List.takeWhile_append_dropWhile]
    rw [if_pos (beq_iff_eq.mpr htarget), if_pos htarget, pathOfPlace?_normalizeChars hrelative, hfollow]
    rfl
  · have hsource : ∀ c ∈ source.toList.head?, c ≠ '/' := by
      rintro c hc rfl
      exact h.elim htarget (absurd hc)
    have htarget' : ∀ c ∈ target.toList.head?, c ≠ '/' := by
      rintro c hc rfl
      exact htarget hc
    have hrelative := isRelative_joinChars (isRelative_parentChars hsource) htarget'
    rw [if_neg (mt beq_iff_eq.mp htarget), if_neg htarget, pathOfPlace?_normalizeChars hrelative,
      follow_joinChars htarget', follow_parentChars]

theorem isName_of_destination (h : destination source target = some names) : ∀ c ∈ names, IsName c := by
  have hslash : ∀ cs : List Char, ∀ c ∈ components cs, '/' ∉ c := fun cs c => Text.notMem_of_mem_splitOn
  have hwalk : ∃ cs, (∀ c ∈ cs, '/' ∉ c) ∧ follow [] cs = some names := by
    unfold destination startOf at h
    split at h
    · exact ⟨_, hslash _, h⟩
    · rw [← follow_append] at h
      refine ⟨_, fun c hc => ?_, h⟩
      rcases List.mem_append.mp hc with hc | hc
      · exact hslash _ c (List.dropLast_subset _ hc)
      · exact hslash _ c hc
  obtain ⟨cs, hcs, hfollow⟩ := hwalk
  exact isName_of_follow hcs hfollow

theorem pathOfPlace?_eq_none_iff : pathOfPlace? names = none ↔ names = [] := by
  unfold pathOfPlace?
  split
  · next hroot => exact iff_of_true rfl hroot
  · next hroot => exact iff_of_false nofun hroot

theorem follow_of_names (h : ∀ c ∈ names, IsName c) (place : List (List Char)) :
    follow place names = some (place ++ names) := by
  induction names generalizing place with
  | nil => rw [follow, List.append_nil]
  | cons c names ih =>
    rw [follow_of_isName (h c List.mem_cons_self), ih fun d hd => h d (List.mem_cons_of_mem c hd),
      List.append_assoc, List.singleton_append]

/-- A path of names is its own normal form. -/
theorem normalizeChars_ofNames (h : ∀ c ∈ names, IsName c) (hne : names ≠ []) :
    normalizeChars (ofNames names) = ofNames names := by
  refine normalizeChars_of_follow (ne_slash_of_head?_ofNames h) ?_
  rw [components_ofNames h, if_neg hne, follow_of_names h, List.nil_append]

/-- Behind a slash the path of names leads to their place from any source. -/
theorem destination_slash_ofNames (h : ∀ c ∈ names, IsName c) (hne : names ≠ [])
    (htarget : target.toList = '/' :: ofNames names) : destination source target = some names := by
  have hcomponents : components target.toList = [] :: names := by
    rw [htarget, ← List.nil_append ('/' :: _), components_append_slash, components_ofNames h, if_neg hne]
    rfl
  rw [destination, startOf, if_pos (by rw [htarget]; rfl), Option.bind_some, hcomponents,
    follow_of_stays (.inl rfl), follow_of_names h, List.nil_append]

/-- From a source, whose path starts at the root of the package, a target does not resolve exactly if it leads
above the root on the way, or to the root. Else it resolves to the names of the place where it leads, with
slashes between them, which is a normal form. And a path of the manifest is the target with a slash in
front of it, from every source, unless it is `.`. -/
theorem resolveRelative_follows (hsource : source.toList.head? ≠ some '/') (target : String) :
    (resolveRelative source target = none ↔
      destination source target = none ∨ destination source target = some [])
    ∧ (∀ path, resolveRelative source target = some path →
      ∃ names, destination source target = some names ∧ path.toList = ofComponents names
        ∧ (∀ c ∈ names, IsName c) ∧ path.toList.head? ≠ some '/'
        ∧ normalizeChars path.toList = path.toList)
    ∧ ∀ (table : Manifest.Table) (key what value path : String),
        table.asPath key what value = .valid path → path ≠ "." →
        ∀ source', resolveRelative source' ("/" ++ path) = some path := by
  have hresolve : resolveRelative source target = (destination source target).bind pathOfPlace? :=
    resolveRelative_eq (.inr hsource)
  refine ⟨?_, fun path hpath => ?_, fun table key what value path hvalid hdot source' => ?_⟩
  · rw [hresolve]
    cases destination source target with
    | none => exact iff_of_true rfl (.inl rfl)
    | some names => simp [pathOfPlace?_eq_none_iff]
  · obtain ⟨names, hdestination, hplace⟩ := Option.bind_eq_some_iff.mp (hresolve.symm.trans hpath)
    have hnames := isName_of_destination hdestination
    have hne : names ≠ [] := fun hroot => by rw [pathOfPlace?_eq_none_iff.mpr hroot] at hplace; cases hplace
    rw [pathOfPlace?, if_neg hne] at hplace
    obtain rfl := Option.some.inj hplace
    rw [String.toList_ofList, ← ofNames_of_ne_nil hne]
    exact ⟨names, hdestination, ofNames_of_ne_nil hne, hnames,
      fun hhead => ne_slash_of_head?_ofNames hnames '/' hhead rfl, normalizeChars_ofNames hnames hne⟩
  · obtain ⟨names, hnames, hpath⟩ := Manifest.Table.asPath_spec hvalid
    have hne : names ≠ [] := by
      rintro rfl
      exact hdot (String.toList_inj.mp hpath)
    have htarget : ("/" ++ path).toList = '/' :: ofNames names := by
      rw [String.toList_append, hpath]
      rfl
    rw [resolveRelative_eq (.inl (by rw [htarget]; rfl)), destination_slash_ofNames hnames hne htarget,
      Option.bind_some, pathOfPlace?, if_neg hne, ← ofNames_of_ne_nil hne, ← hpath, String.ofList_toList]

/-- A target that leads above the root and back does not resolve, one that stays below it does. -/
theorem resolveRelative_follows_sample : "src/a.typ".toList.head? ≠ some '/'
    ∧ destination "src/a.typ" "../../src/b.typ" = none
    ∧ resolveRelative "src/a.typ" "../../src/b.typ" = none
    ∧ resolveRelative "src/a.typ" "..//./..lib/x/../b.typ/" = some "..lib/b.typ"
    ∧ normalizeChars "..lib/b.typ".toList = "..lib/b.typ".toList := by
  have hsource : "src/a.typ".toList.head? ≠ some '/' := by decide
  have habove : destination "src/a.typ" "../../src/b.typ" = none := by decide +kernel
  have hbelow : resolveRelative "src/a.typ" "..//./..lib/x/../b.typ/" = some "..lib/b.typ" := by
    decide +kernel
  obtain ⟨_, -, -, -, -, hnormal⟩ := (resolveRelative_follows hsource _).2.1 _ hbelow
  exact ⟨hsource, habove, (resolveRelative_follows hsource _).1.mpr (.inl habove), hbelow, hnormal⟩

end TypstLint
