import Mathlib.Data.List.Induction
import TypstLint.ImportGraph.Resolve
import TypstLint.Proofs.Distinct
import TypstLint.Tree.Load

set_option autoImplicit false

/-! # The files of a package

A path names at most one file. The outline of a file is the scan of its text, if the file is a Typst
source with a text (`lookup_outlines`). A file set is known by the contents of the files that are found
in it (`ext_content?`). In an overlaid file set the overlay has the word on the paths that it names, and
the file set on all others (`content?_overlaid`). -/

namespace TypstLint.FileSet

section

variable {fs : FileSet} {path : String}

/-- The text of the Typst source with a path. -/
def typstText? (fs : FileSet) (path : String) : Option (List Char) :=
  if SourceFile.isTypstPath path then (fs.get? path).bind SourceFile.text? else none

theorem pairwise_path_ne (fs : FileSet) : fs.files.Pairwise fun a b => a.path ≠ b.path :=
  fs.sorted.imp String.ne_of_lt

theorem mem_paths : path ∈ fs.paths ↔ ∃ f ∈ fs.files, f.path = path := List.mem_map

theorem contains_iff : fs.contains path = true ↔ path ∈ fs.paths := by
  simp [contains, paths]

theorem mem_typst_paths :
    path ∈ fs.typstFiles.map (·.path) ↔ path ∈ fs.paths ∧ SourceFile.isTypstPath path = true := by
  rw [List.mem_map, mem_paths]
  constructor
  · rintro ⟨f, hf, rfl⟩
    obtain ⟨hfile, htypst⟩ := List.mem_filter.mp hf
    exact ⟨⟨f, hfile, rfl⟩, htypst⟩
  · rintro ⟨⟨f, hfile, rfl⟩, htypst⟩
    exact ⟨f, List.mem_filter.mpr ⟨hfile, htypst⟩, rfl⟩

/-- The outlines are found by the paths of the files. -/
theorem lookup_outlines_of_pairwise {files : List SourceFile}
    (h : files.Pairwise fun a b => a.path ≠ b.path) (path : String) :
    ((files.filter (·.isTypst)).filterMap fun f =>
        f.text?.map fun text => (f.path, Markup.scan text)).lookup path
      = if SourceFile.isTypstPath path then
          ((files.find? (·.path == path)).bind SourceFile.text?).map Markup.scan
        else none := by
  induction files with
  | nil => simp
  | cons f rest ih =>
    obtain ⟨hfirst, hrest⟩ := List.pairwise_cons.mp h
    have ih := ih hrest
    by_cases hpath : f.path = path
    · -- the path occurs no more, so nothing is found in the rest
      have hnone : rest.find? (·.path == path) = none := by
        rw [List.find?_eq_none]
        intro g hg heq
        exact hfirst g hg (hpath.trans (beq_iff_eq.mp heq).symm)
      rw [hnone, Option.bind_none, Option.map_none, ite_self] at ih
      rw [List.find?_cons_of_pos (by simpa using hpath), Option.bind_some]
      by_cases htypst : f.isTypst = true
      · have htypst' : SourceFile.isTypstPath path = true := hpath ▸ htypst
        rw [List.filter_cons_of_pos htypst, if_pos htypst']
        cases htext : f.text? with
        | none => simp [htext, ih]
        | some text => simp [htext, hpath]
      · have htypst' : ¬ SourceFile.isTypstPath path = true := hpath ▸ htypst
        rw [List.filter_cons_of_neg htypst, if_neg htypst', ih]
    · have hne : (path == f.path) = false := beq_eq_false_iff_ne.mpr (Ne.symm hpath)
      rw [List.find?_cons_of_neg (by simpa using hpath), ← ih, List.filter_cons]
      split
      · cases htext : f.text? with
        | none => simp [htext]
        | some text => simp [htext, List.lookup_cons, hne]
      · rfl

theorem lookup_outlines (fs : FileSet) (path : String) :
    fs.outlines.lookup path = (fs.typstText? path).map Markup.scan := by
  rw [outlines, typstFiles, lookup_outlines_of_pairwise fs.pairwise_path_ne, typstText?]
  split <;> rfl

end

/-! ## Contents and overlays -/

variable {fs fs' : FileSet} {f g : SourceFile} {path other : String} {content : ByteArray}

/-- The content of the file with a path. -/
def content? (fs : FileSet) (path : String) : Option ByteArray := (fs.get? path).map (·.content)

theorem eq_of_path_eq (hf : f ∈ fs.files) (hg : g ∈ fs.files) (h : f.path = g.path) : f = g :=
  List.inj_on_of_nodup_map (List.pairwise_map.mpr fs.pairwise_path_ne) hf hg h

theorem content?_eq_some_iff : fs.content? path = some content ↔ ⟨path, content⟩ ∈ fs.files := by
  rw [content?, Option.map_eq_some_iff]
  constructor
  · rintro ⟨f, hget, rfl⟩
    obtain rfl : f.path = path := beq_iff_eq.mp (List.find?_some hget :)
    exact List.mem_of_find?_eq_some hget
  · intro hmem
    refine ⟨_, find?_of_unique hmem (beq_self_eq_true path) fun f hf hpath => ?_, rfl⟩
    exact eq_of_path_eq hf hmem (beq_iff_eq.mp hpath)

/-- Two file sets with the same contents are the same. -/
theorem ext_content? (h : ∀ path, fs.content? path = fs'.content? path)
    (hlinks : fs.escapedLinks = fs'.escapedLinks) : fs = fs' := by
  have hnodup (fs : FileSet) : fs.files.Nodup :=
    fs.pairwise_path_ne.imp fun hne heq => hne (congrArg SourceFile.path heq)
  have hmem (f : SourceFile) : f ∈ fs.files ↔ f ∈ fs'.files := by
    rw [← content?_eq_some_iff, ← content?_eq_some_iff, h]
  have hfiles : fs.files = fs'.files :=
    ((List.perm_ext_iff_of_nodup (hnodup fs) (hnodup fs')).mpr hmem).eq_of_pairwise
      (fun a b _ _ hab hba => absurd (String.lt_trans hab hba) (String.lt_irrefl _)) fs.sorted fs'.sorted
  cases fs
  cases fs'
  cases hfiles
  cases hlinks
  rfl

theorem find?_insertFile (f : SourceFile) (files : List SourceFile) :
    (insertFile f files).find? (·.path == path) =
      if f.path = path then some f else files.find? (·.path == path) := by
  by_cases hf : f.path = path
  · -- the file comes before those with greater paths, and behind those with smaller ones
    rw [if_pos hf]
    induction files with
    | nil => exact List.find?_cons_of_pos (by simpa using hf)
    | cons g rest ih =>
      unfold insertFile
      split
      · exact List.find?_cons_of_pos (by simpa using hf)
      · split
        · exact List.find?_cons_of_pos (by simpa using hf)
        · next hne =>
          have hg : g.path ≠ path := fun hg => hne (hf.trans hg.symm)
          rw [List.find?_cons_of_neg (by simpa using hg), ih]
  · rw [if_neg hf]
    induction files with
    | nil => exact List.find?_cons_of_neg (by simpa using hf)
    | cons g rest ih =>
      unfold insertFile
      split
      · exact List.find?_cons_of_neg (by simpa using hf)
      · split
        · next heq =>
          rw [List.find?_cons_of_neg (by simpa using hf),
            List.find?_cons_of_neg (by simpa [← heq] using hf)]
        · rw [List.find?_cons, List.find?_cons, ih]

theorem content?_insert : (fs.insert path content).content? other =
    if other = path then some content else fs.content? other := by
  have hget : (fs.insert path content).get? other =
      if path = other then some ⟨path, content⟩ else fs.get? other :=
    find?_insertFile ⟨path, content⟩ fs.files
  rw [content?, hget]
  by_cases heq : other = path
  · rw [if_pos heq, if_pos heq.symm]
    rfl
  · rw [if_neg heq, if_neg (Ne.symm heq)]
    rfl

theorem content?_erase :
    (fs.erase path).content? other = if other = path then none else fs.content? other := by
  refine Option.ext fun content => ?_
  rw [content?_eq_some_iff, erase, List.mem_filter, bne_iff_ne, Option.ite_none_left_eq_some,
    content?_eq_some_iff, and_comm]

/-! ## Overlays -/

/-- The overlay has the word on the paths that it names, of which each is named once. -/
theorem content?_overlaid {overlay : Overlay} (h : (overlay.map Prod.fst).Nodup) :
    (fs.overlaid overlay).content? path = (overlay.lookup path).getD (fs.content? path) := by
  induction overlay generalizing fs with
  | nil => rfl
  | cons entry rest ih =>
    obtain ⟨name, content?⟩ := entry
    obtain ⟨hname, hrest⟩ := List.nodup_cons.mp h
    rw [overlaid, List.foldl_cons, ← overlaid, ih hrest, List.lookup_cons]
    by_cases hpath : path = name
    · subst hpath
      have hnone : rest.lookup path = none := by
        refine List.lookup_eq_none_iff.mpr fun entry hentry => bne_iff_ne.mpr fun heq => ?_
        exact hname (List.mem_map.mpr ⟨entry, hentry, heq.symm⟩)
      rw [hnone, beq_self_eq_true]
      cases content? with
      | none => exact content?_erase.trans (if_pos rfl)
      | some content => exact content?_insert.trans (if_pos rfl)
    · rw [beq_false_of_ne hpath]
      congr 1
      cases content? with
      | none => exact content?_erase.trans (if_neg hpath)
      | some content => exact content?_insert.trans (if_neg hpath)

theorem escapedLinks_overlaid (overlay : Overlay) :
    (fs.overlaid overlay).escapedLinks = fs.escapedLinks := by
  induction overlay generalizing fs with
  | nil => rfl
  | cons entry rest ih =>
    rw [overlaid, List.foldl_cons, ← overlaid, ih]
    obtain ⟨name, content?⟩ := entry
    cases content? with
    | none | some => rfl

/-! ## Lists of files -/

/-- In a list that gives every path one content, this is the content that is found. -/
theorem content?_ofList_eq_some_iff {files : List (String × ByteArray)}
    (h : ∀ path a b, (path, a) ∈ files → (path, b) ∈ files → a = b) :
    (ofList files).content? path = some content ↔ (path, content) ∈ files := by
  induction files using List.reverseRecOn with
  | nil => simp [ofList, content?, get?, empty]
  | append_singleton files file ih =>
    obtain ⟨name, last⟩ := file
    have hfiles := ih fun path a b ha hb => h path a b (by simp [ha]) (by simp [hb])
    have hlast : ofList (files ++ [(name, last)]) = (ofList files).insert name last := by
      rw [ofList, List.foldl_append, List.foldl_cons, List.foldl_nil, ← ofList]
    rw [hlast, content?_insert]
    split
    · next heq =>
      subst heq
      constructor
      · intro hcontent
        simp [Option.some.inj hcontent]
      · intro hmem
        rw [h path last content (by simp) hmem]
    · next hne =>
      have hother : (path, content) ≠ (name, last) := fun heq => hne (congrArg Prod.fst heq)
      rw [hfiles, List.mem_append, List.mem_singleton, or_iff_left hother]

/-! ## Escaped links -/

theorem content?_withEscapedLinks (links : List String) :
    (fs.withEscapedLinks links).content? path = fs.content? path := rfl

theorem mem_escapedLinks_withEscapedLinks {links : List String} :
    path ∈ (fs.withEscapedLinks links).escapedLinks ↔ path ∈ links := List.mem_mergeSort

/-- Links that are given once are in ascending order. -/
theorem pairwise_escapedLinks {links : List String} (h : links.Nodup) :
    (fs.withEscapedLinks links).escapedLinks.Pairwise (· < ·) := by
  have hsorted : (fs.withEscapedLinks links).escapedLinks.Pairwise (· ≤ ·) := by
    refine (List.pairwise_mergeSort (fun a b c hab hbc => ?_) (fun a b => ?_) links).imp
      of_decide_eq_true
    · exact decide_eq_true (String.le_trans (of_decide_eq_true hab) (of_decide_eq_true hbc))
    · simpa using String.le_total a b
  have hnodup : (fs.withEscapedLinks links).escapedLinks.Nodup :=
    (List.mergeSort_perm links _).nodup_iff.mpr h
  refine hsorted.imp₂ (fun a b hle hne => ?_) hnodup
  exact String.not_le.mp fun hge => hne (String.le_antisymm hle hge)

end TypstLint.FileSet
