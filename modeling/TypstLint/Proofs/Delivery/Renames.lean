import Mathlib.Data.List.Perm.Basic
import TypstLint.Proofs.Delivery.Overlay

set_option autoImplicit false

/-! # Overlays and renamed files

A changed file speaks about its path, and about the path that it had before. Of several files that speak
about one path the last one has the word, also where a file before it is at that path at the head of the
pull request. So the overlay describes the head exactly if no file at the head has the old path of a file
behind it, and the order of the files makes no difference if no file at the head has the old path of
another one (`lookup_overlayOf_renames`). -/

namespace TypstLint.Delivery

open GitHub (ChangedFile)

variable {files files' : List ChangedFile} {spec : Spec} {path inner : String}
  {value : Option String}

/-! ## What files say -/

/-- What a changed file says about a path: where its content is found, or that it is gone. -/
def wordOn (path : String) (f : ChangedFile) : Option (Option String) :=
  if f.filename = path then some (if f.isRemoved then none else some path)
  else if f.previousFilename = some path then some none
  else none

theorem wordOn_eq_none_iff {f : ChangedFile} :
    wordOn path f = none ↔ f.filename ≠ path ∧ f.previousFilename ≠ some path := by
  unfold wordOn
  split
  · next hname => simp [hname]
  · next hname => simp [hname]

theorem lookup_setWithin (overlay : List (String × Option String)) :
    (setWithin spec overlay path value).lookup inner =
      if path = spec.registryPath ++ "/" ++ inner then some value else overlay.lookup inner := by
  unfold setWithin
  split
  · next name hname =>
    rw [Assoc.lookup_set, relative?_eq_some_iff.mp hname]
    by_cases hinner : inner = name
    · rw [hinner, if_pos (beq_self_eq_true name), if_pos rfl]
    · have hpath : spec.registryPath ++ "/" ++ name ≠ spec.registryPath ++ "/" ++ inner := fun heq =>
        hinner (String.append_right_inj _ |>.mp heq).symm
      rw [if_neg (mt beq_iff_eq.mp hinner), if_neg hpath]
  · next hnone =>
    have hpath : path ≠ spec.registryPath ++ "/" ++ inner := fun hpath =>
      absurd ((relative?_eq_some_iff.mpr hpath).symm.trans hnone) (Option.some_ne_none inner)
    rw [if_neg hpath]

/-- A change has the last word on what it speaks about. -/
theorem lookup_addChange_or (overlay : List (String × Option String)) (f : ChangedFile) :
    (addChange spec overlay f).lookup inner =
      (wordOn (spec.registryPath ++ "/" ++ inner) f).or (overlay.lookup inner) := by
  rw [addChange_eq, lookup_setWithin, wordOn]
  split
  · next hname => rw [hname, Option.some_or]
  · cases f.previousFilename with
    | none => rfl
    | some old =>
      rw [Option.map_some, Option.getD_some, lookup_setWithin]
      by_cases hold : old = spec.registryPath ++ "/" ++ inner
      · rw [if_pos hold, if_pos (congrArg some hold), Option.some_or]
      · rw [if_neg hold, if_neg (mt Option.some.inj hold), Option.none_or]

/-- An overlay tells what the last file says that speaks about a path. -/
theorem lookup_overlayOf_eq (spec : Spec) (files : List ChangedFile) (inner : String) :
    (overlayOf spec files).lookup inner =
      files.reverse.findSome? (wordOn (spec.registryPath ++ "/" ++ inner)) := by
  induction files using List.reverseRecOn with
  | nil => rfl
  | append_singleton files f ih =>
    rw [overlayOf_append_singleton, lookup_addChange_or, ih, List.reverse_append, List.reverse_singleton,
      List.singleton_append, List.findSome?_cons]
    cases wordOn (spec.registryPath ++ "/" ++ inner) f with
    | none => rfl
    | some value => rfl

theorem findSome?_reverse_eq_some_iff {α β : Type} {f : α → Option β} {xs : List α} {b : β} :
    xs.reverse.findSome? f = some b ↔
      ∃ before x after, xs = before ++ x :: after ∧ f x = some b ∧ ∀ y ∈ after, f y = none := by
  rw [List.findSome?_eq_some_iff]
  constructor
  · rintro ⟨after, x, before, heq, hx, hafter⟩
    refine ⟨before.reverse, x, after.reverse, ?_, hx, fun y hy => hafter y (List.mem_reverse.mp hy)⟩
    rw [← List.reverse_reverse xs, heq]
    simp
  · rintro ⟨before, x, after, rfl, hx, hafter⟩
    exact ⟨after.reverse, x, before.reverse, by simp, hx, fun y hy => hafter y (List.mem_reverse.mp hy)⟩

/-! ## The head of a pull request -/

/-- A changed file is at a path at the head of the pull request. -/
def IsAtHead (files : List ChangedFile) (path : String) : Prop :=
  ∃ f ∈ files, f.filename = path ∧ f.isRemoved = false

/-- The file at a path is gone at the head of the pull request: it was removed, or renamed, and no changed
file is there. -/
def IsGone (files : List ChangedFile) (path : String) : Prop :=
  ¬ IsAtHead files path ∧ ∃ f ∈ files, f.filename = path ∧ f.isRemoved = true
    ∨ f.status = "renamed" ∧ f.previousFilename = some path

/-- The path in the repository of a path in a version. -/
def pathIn (spec : Spec) (inner : String) : String := spec.registryPath ++ "/" ++ inner

/-- An overlay tells of each path in a version where its content is found at the head of the pull request
if a changed file is there, that it is gone if it is, and nothing else. -/
def DescribesHead (spec : Spec) (files : List ChangedFile) (overlay : List (String × Option String)) :
    Prop :=
  ∀ inner, (∀ remote, overlay.lookup inner = some (some remote) ↔
      remote = pathIn spec inner ∧ IsAtHead files (pathIn spec inner))
    ∧ (overlay.lookup inner = some none ↔ IsGone files (pathIn spec inner))

/-- A changed file speaks about a path. -/
def IsNamed (files : List ChangedFile) (path : String) : Prop :=
  ∃ f ∈ files, f.filename = path ∨ f.previousFilename = some path

/-- A file is at a path at the head of the pull request, and a file behind it had that path before. -/
def IsOverridden (files : List ChangedFile) (path : String) : Prop :=
  ∃ f g, [f, g].Sublist files ∧ f.filename = path ∧ f.isRemoved = false ∧ g.previousFilename = some path

theorem findSome?_wordOn_eq_none_iff : files.reverse.findSome? (wordOn path) = none ↔ ¬ IsNamed files path := by
  rw [List.findSome?_eq_none_iff]
  constructor
  · rintro h ⟨f, hf, hnamed⟩
    have hnone := wordOn_eq_none_iff.mp (h f (List.mem_reverse.mpr hf))
    exact hnamed.elim hnone.1 hnone.2
  · intro h f hf
    refine wordOn_eq_none_iff.mpr ⟨fun hname => h ?_, fun hprevious => h ?_⟩
    · exact ⟨f, List.mem_reverse.mp hf, .inl hname⟩
    · exact ⟨f, List.mem_reverse.mp hf, .inr hprevious⟩

/-- What is said about a path, as every file has a path of its own: where its content is found, if a file
is there and no file behind that one had the path before. -/
theorem findSome?_wordOn_eq_some_iff (hnames : (files.map (·.filename)).Nodup) {remote : String} :
    files.reverse.findSome? (wordOn path) = some (some remote) ↔
      remote = path ∧ IsAtHead files path ∧ ¬ IsOverridden files path := by
  rw [findSome?_reverse_eq_some_iff]
  constructor
  · rintro ⟨before, f, after, rfl, hf, hafter⟩
    have hword : f.filename = path ∧ f.isRemoved = false ∧ remote = path := by
      unfold wordOn at hf
      split at hf
      · next hname =>
        split at hf
        · cases hf
        · next hremoved =>
          exact ⟨hname, Bool.not_eq_true _ ▸ hremoved, (Option.some.inj (Option.some.inj hf)).symm⟩
      · split at hf
        · cases hf
        · cases hf
    obtain ⟨hname, hremoved, hremote⟩ := hword
    refine ⟨hremote, ⟨f, by simp, hname, hremoved⟩, ?_⟩
    -- only this file has the path, so the one that overrides it stands behind it
    rintro ⟨f', g, hsublist, hname', -, hprevious⟩
    have hfiles := hnames
    rw [List.map_append, List.map_cons, List.nodup_append, List.nodup_cons] at hfiles
    have hbefore : f' ∉ before := fun hmem =>
      hfiles.2.2 _ (List.mem_map_of_mem hmem) _ List.mem_cons_self (hname'.trans hname.symm)
    have hbehind : f' ∉ after := fun hmem =>
      hfiles.2.1.1 (List.mem_map.mpr ⟨f', hmem, hname'.trans hname.symm⟩)
    have hg : g ∈ after := by
      obtain ⟨first, second, heq, hfirst, hsecond⟩ := List.sublist_append_iff.mp hsublist
      cases first with
      | cons x first =>
        obtain ⟨rfl, -⟩ := List.cons.inj heq
        exact absurd (hfirst.subset List.mem_cons_self) hbefore
      | nil =>
        rw [List.nil_append] at heq
        subst heq
        rcases List.cons_sublist_cons'.mp hsecond with hsecond | ⟨-, hsecond⟩
        · exact absurd (hsecond.subset List.mem_cons_self) hbehind
        · exact hsecond.subset List.mem_cons_self
    exact (wordOn_eq_none_iff.mp (hafter g hg)).2 hprevious
  · rintro ⟨rfl, ⟨f, hf, hname, hremoved⟩, hlast⟩
    obtain ⟨before, after, rfl⟩ := List.append_of_mem hf
    refine ⟨before, f, after, rfl, ?_, fun g hg => wordOn_eq_none_iff.mpr ⟨fun hgname => ?_, fun hold => ?_⟩⟩
    · rw [wordOn, if_pos hname, hremoved, if_neg Bool.false_ne_true]
    · rw [List.map_append, List.map_cons] at hnames
      have := (List.nodup_cons.mp (List.nodup_append.mp hnames).2.1).1
      exact this (List.mem_map.mpr ⟨g, hg, hgname.trans hname.symm⟩)
    · have hsublist : [f, g].Sublist (before ++ f :: after) :=
        ((List.singleton_sublist.mpr hg).cons_cons f).trans (List.sublist_append_right before _)
      exact hlast ⟨f, g, hsublist, hname, hremoved, hold⟩

/-! ## Overlays and the head -/

/-- What an overlay tells of a path, as every file has a path of its own. -/
theorem lookup_overlayOf_iff (hnames : (files.map (·.filename)).Nodup) (spec : Spec) (inner : String) :
    (∀ remote, (overlayOf spec files).lookup inner = some (some remote) ↔ remote = pathIn spec inner
        ∧ IsAtHead files (pathIn spec inner) ∧ ¬ IsOverridden files (pathIn spec inner))
      ∧ ((overlayOf spec files).lookup inner = some none ↔ IsNamed files (pathIn spec inner)
        ∧ ¬ (IsAtHead files (pathIn spec inner) ∧ ¬ IsOverridden files (pathIn spec inner))) := by
  rw [lookup_overlayOf_eq, ← pathIn]
  generalize pathIn spec inner = path
  refine ⟨fun remote => findSome?_wordOn_eq_some_iff hnames, ?_⟩
  have hnone : files.reverse.findSome? (wordOn path) = none ↔ ¬ IsNamed files path :=
    findSome?_wordOn_eq_none_iff
  have hsome (remote : String) : files.reverse.findSome? (wordOn path) = some (some remote) ↔
      remote = path ∧ IsAtHead files path ∧ ¬ IsOverridden files path :=
    findSome?_wordOn_eq_some_iff hnames
  match hword : files.reverse.findSome? (wordOn path) with
  | none => simp [hnone.mp hword]
  | some (some remote) => simp [((hsome remote).mp hword).2]
  | some none =>
    have hnamed : IsNamed files path := not_not.mp fun h => by simp [hnone.mpr h] at hword
    have hhead : ¬ (IsAtHead files path ∧ ¬ IsOverridden files path) := fun h => by
      simp [(hsome path).mpr ⟨rfl, h⟩] at hword
    simp [hnamed, hhead]

theorem isGone_iff_of_not_isAtHead (h : ¬ IsAtHead files path) :
    IsGone files path ↔ ∃ f ∈ files, f.filename = path
      ∨ f.status = "renamed" ∧ f.previousFilename = some path := by
  constructor
  · rintro ⟨-, f, hf, hgone⟩
    exact ⟨f, hf, hgone.imp_left And.left⟩
  · rintro ⟨f, hf, hgone⟩
    refine ⟨h, f, hf, hgone.imp_left fun hname => ⟨hname, ?_⟩⟩
    exact Bool.not_eq_false _ ▸ fun hremoved => h ⟨f, hf, hname, hremoved⟩

theorem isNamed_of_isGone (h : IsGone files path) : IsNamed files path := by
  obtain ⟨-, f, hf, hgone⟩ := h
  exact ⟨f, hf, hgone.imp And.left And.right⟩

/-- No file overrides itself. -/
theorem IsOverridden.exists_ne (hnames : (files.map (·.filename)).Nodup) (h : IsOverridden files path) :
    ∃ f ∈ files, ∃ g ∈ files, f.filename = path ∧ f.isRemoved = false
      ∧ g.previousFilename = some path ∧ g ≠ f := by
  obtain ⟨f, g, hsublist, hname, hremoved, hprevious⟩ := h
  refine ⟨f, hsublist.subset (by simp), g, hsublist.subset (by simp), hname, hremoved, hprevious, ?_⟩
  rintro rfl
  have hpair := hnames.of_map.sublist hsublist
  simp at hpair

/-- The old paths of files are those of renamed ones, or files are there. -/
def AreRenamed (files : List ChangedFile) (path : String) : Prop :=
  (∃ f ∈ files, f.previousFilename = some path) →
    ∃ f ∈ files, f.filename = path ∨ f.status = "renamed" ∧ f.previousFilename = some path

theorem describesHead_iff (hnames : (files.map (·.filename)).Nodup) (spec : Spec) :
    DescribesHead spec files (overlayOf spec files) ↔
      ∀ inner, ¬ IsOverridden files (pathIn spec inner) ∧ AreRenamed files (pathIn spec inner) := by
  refine forall_congr' fun inner => ?_
  obtain ⟨hsome, hnone⟩ := lookup_overlayOf_iff hnames spec inner
  rw [hnone, forall_congr' fun remote => iff_congr (hsome remote) Iff.rfl]
  generalize pathIn spec inner = path
  constructor
  · rintro ⟨hhead, hgone⟩
    have hlast : ¬ IsOverridden files path := fun hover => by
      obtain ⟨f, hf, g, -, hname, hremoved, -⟩ := hover.exists_ne hnames
      exact ((hhead path).mpr ⟨rfl, f, hf, hname, hremoved⟩).2.2 hover
    refine ⟨hlast, fun ⟨f, hf, hprevious⟩ => ?_⟩
    by_cases hat : IsAtHead files path
    · obtain ⟨g, hg, hname, -⟩ := hat
      exact ⟨g, hg, .inl hname⟩
    · have hnamed : IsNamed files path := ⟨f, hf, .inr hprevious⟩
      exact (isGone_iff_of_not_isAtHead hat).mp (hgone.mp ⟨hnamed, fun h => hat h.1⟩)
  · rintro ⟨hlast, hold⟩
    refine ⟨fun remote => by simp [hlast], ?_, fun hgone => ?_⟩
    · rintro ⟨⟨f, hf, hnamed⟩, hhead⟩
      have hat : ¬ IsAtHead files path := fun hat => hhead ⟨hat, hlast⟩
      refine (isGone_iff_of_not_isAtHead hat).mpr ?_
      rcases hnamed with hname | hprevious
      · exact ⟨f, hf, .inl hname⟩
      · exact hold ⟨f, hf, hprevious⟩
    · exact ⟨isNamed_of_isGone hgone, fun h => hgone.1 h.1⟩

/-- No file at the head has a path that another one had before. -/
def IsPlain (files : List ChangedFile) (path : String) : Prop :=
  ∀ f ∈ files, ∀ g ∈ files, f.filename = path → f.isRemoved = false →
    g.previousFilename = some path → g = f

theorem IsPlain.not_isOverridden (hnames : (files.map (·.filename)).Nodup) (h : IsPlain files path) :
    ¬ IsOverridden files path := fun hover => by
  obtain ⟨f, hf, g, hg, hname, hremoved, hprevious, hne⟩ := hover.exists_ne hnames
  exact hne (h f hf g hg hname hremoved hprevious)

theorem lookup_overlayOf_of_perm (hnames : (files.map (·.filename)).Nodup) (spec : Spec)
    (hperm : files'.Perm files) (hplain : IsPlain files (pathIn spec inner)) :
    (overlayOf spec files').lookup inner = (overlayOf spec files).lookup inner := by
  have hnames' : (files'.map (·.filename)).Nodup := (hperm.map _).nodup_iff.mpr hnames
  have hmem (f : ChangedFile) : f ∈ files' ↔ f ∈ files := hperm.mem_iff
  have hplain' : IsPlain files' (pathIn spec inner) := fun f hf g hg =>
    hplain f ((hmem f).mp hf) g ((hmem g).mp hg)
  have hlast := iff_true_intro (hplain.not_isOverridden hnames)
  have hlast' := iff_true_intro (hplain'.not_isOverridden hnames')
  obtain ⟨hsome, hnone⟩ := lookup_overlayOf_iff hnames spec inner
  obtain ⟨hsome', hnone'⟩ := lookup_overlayOf_iff hnames' spec inner
  have hhead : IsAtHead files' (pathIn spec inner) ↔ IsAtHead files (pathIn spec inner) := by
    simp only [IsAtHead, hmem]
  have hnamed : IsNamed files' (pathIn spec inner) ↔ IsNamed files (pathIn spec inner) := by
    simp only [IsNamed, hmem]
  refine Option.ext fun value => ?_
  cases value with
  | none => rw [hnone, hnone', hhead, hnamed, hlast, hlast']
  | some remote => rw [hsome, hsome', hhead, hlast, hlast']

/-- If every file has a path of its own, the overlay of a version tells of a path where its content is
found exactly if a file is there that is not removed, and no file behind that one had the path before; of
any other path that files name it tells that it is gone, and of the rest nothing. So it describes the head
of the pull request exactly if no file at the head has the old path of a file behind it, and the old paths
are those of renamed files. For a path that no file at the head has taken over from another one, the order
of the files makes no difference. -/
theorem lookup_overlayOf_renames (hnames : (files.map (·.filename)).Nodup) (spec : Spec) :
    (∀ inner, (∀ remote, (overlayOf spec files).lookup inner = some (some remote) ↔
          remote = pathIn spec inner ∧ IsAtHead files (pathIn spec inner)
            ∧ ¬ IsOverridden files (pathIn spec inner))
        ∧ ((overlayOf spec files).lookup inner = some none ↔ IsNamed files (pathIn spec inner)
          ∧ ¬ (IsAtHead files (pathIn spec inner) ∧ ¬ IsOverridden files (pathIn spec inner))))
      ∧ (DescribesHead spec files (overlayOf spec files) ↔
        ∀ inner, ¬ IsOverridden files (pathIn spec inner) ∧ AreRenamed files (pathIn spec inner))
      ∧ ∀ files', files'.Perm files → ∀ inner, IsPlain files (pathIn spec inner) →
        (overlayOf spec files').lookup inner = (overlayOf spec files).lookup inner :=
  ⟨lookup_overlayOf_iff hnames spec, describesHead_iff hnames spec,
    fun _ hperm _ => lookup_overlayOf_of_perm hnames spec hperm⟩

/-! ## A file in the place of a renamed one -/

/-- The file `b.typ` is renamed, and another file takes its path. -/
def chainedFiles : List ChangedFile :=
  [{ filename := "packages/preview/a/1.0.0/b.typ", status := "renamed"
     previousFilename := "packages/preview/a/1.0.0/c.typ" },
   { filename := "packages/preview/a/1.0.0/d.typ", status := "renamed"
     previousFilename := "packages/preview/a/1.0.0/b.typ" }]

theorem nodup_chainedFiles : (chainedFiles.map (·.filename)).Nodup := by decide

/-- The overlay tells where the file is that nothing overrides, and that the first old path is gone, in
whatever order the files are listed. -/
theorem lookup_overlayOf_chained :
    (chainedFiles.map (·.filename)).Nodup
      ∧ (overlayOf newSpec chainedFiles).lookup "d.typ" = some (some (pathIn newSpec "d.typ"))
      ∧ (overlayOf newSpec chainedFiles).lookup "c.typ" = some none
      ∧ (overlayOf newSpec chainedFiles.reverse).lookup "d.typ" =
        (overlayOf newSpec chainedFiles).lookup "d.typ" := by
  obtain ⟨hlookup, -, hperm⟩ := lookup_overlayOf_renames nodup_chainedFiles newSpec
  have hlast : ¬ IsOverridden chainedFiles (pathIn newSpec "d.typ") := fun h => by
    obtain ⟨f, hf, g, hg, -, -, hprevious, -⟩ := h.exists_ne nodup_chainedFiles
    revert g hg hprevious
    decide
  have hhead : IsAtHead chainedFiles (pathIn newSpec "d.typ") := by
    unfold IsAtHead
    decide
  have hgone : IsNamed chainedFiles (pathIn newSpec "c.typ")
      ∧ ¬ IsAtHead chainedFiles (pathIn newSpec "c.typ") := by
    unfold IsNamed IsAtHead
    decide
  have hplain : IsPlain chainedFiles (pathIn newSpec "d.typ") := by
    unfold IsPlain
    decide
  exact ⟨nodup_chainedFiles, ((hlookup _).1 _).mpr ⟨rfl, hhead, hlast⟩,
    (hlookup _).2.mpr ⟨hgone.1, fun h => hgone.2 h.1⟩,
    hperm _ (List.reverse_perm chainedFiles) _ hplain⟩

/-- The overlay tells that the path is gone which the other file has taken, and tells where that file is
if the files are listed the other way round. -/
theorem not_describesHead_chained :
    (chainedFiles.map (·.filename)).Nodup ∧ IsAtHead chainedFiles (pathIn newSpec "b.typ")
      ∧ (overlayOf newSpec chainedFiles).lookup "b.typ" = some none
      ∧ (overlayOf newSpec chainedFiles.reverse).lookup "b.typ" = some (some (pathIn newSpec "b.typ"))
      ∧ ¬ DescribesHead newSpec chainedFiles (overlayOf newSpec chainedFiles) := by
  have hhead : IsAtHead chainedFiles (pathIn newSpec "b.typ") := by
    unfold IsAtHead
    decide
  have hlookup : (overlayOf newSpec chainedFiles).lookup "b.typ" = some none := by decide
  exact ⟨nodup_chainedFiles, hhead, hlookup, by decide, fun h => ((h "b.typ").2.mp hlookup).1 hhead⟩

end TypstLint.Delivery
