import TypstLint.Proofs.Tree.Confined

set_option autoImplicit false

/-! # When a package can be loaded

A link that leads somewhere can be read, whether anything is there or not. A link that leads back to
itself can be read only if what is behind it leads out of its circle (`Stuck`); if it does not, nothing
is loaded of the package that the link is in (`load_returns_iff`). -/

namespace TypstLint.Tree

/-- The target of the link at a path circles: it leads back to the link, or to one that leads back to
itself. That link is met again at `q`, with the components `behind` it. -/
def LeadsBack (t : Tree) (path : List String) (q : Place) (behind : List String) : Prop :=
  ∃ target, t.linkAt? ⟨0, path⟩ = some target
    ∧ t.Circles [path] (t.targetStart ⟨0, path.dropLast⟩ (componentsOf target)) (componentsOf target)
      q behind

/-- Whether a link leads back to itself, and what is behind it does not lead out of the circle: it leads
to a place that cannot be looked up, because too many links are on the way. -/
def Stuck (t : Tree) (path : List String) : Prop :=
  ∃ q behind, t.LeadsBack path q behind ∧ t.TooManyLinks (t.descend q behind)

variable {t : Tree} {n : Nat} {root q r : Place} {path dir inner behind : List String} {node : Node}
  {e : Fault}

/-! ## Links -/

/-- Every link leads somewhere or back to itself. -/
theorem leadsTo_or_leadsBack (hlink : (t.linkAt? ⟨0, path⟩).isSome) :
    (∃ q, t.LeadsTo path q) ∨ ∃ q behind, t.LeadsBack path q behind := by
  obtain ⟨target, htarget⟩ := Option.isSome_iff_exists.mp hlink
  have hends : t.Ends [path] := ends_of_nodup (List.nodup_singleton path)
    (List.cons_subset.mpr ⟨mem_names_of_isSome hlink, List.nil_subset _⟩)
  exact (hends _ (componentsOf target)).imp (fun ⟨n, q, hn⟩ => ⟨q, n, target, htarget, hn⟩)
    fun ⟨q, behind, hq⟩ => ⟨q, behind, target, htarget, hq⟩

/-- A path that goes on to a link that leads back to itself circles where the link does. -/
theorem IsTree.circles_of_leadsBack (h : t.IsTree) (hpath : t.Resolves n .root path ⟨0, dir⟩)
    (hinner : inner ≠ []) (hback : t.LeadsBack (dir ++ inner) q behind) :
    t.Circles [] .root (path ++ inner) q behind := by
  obtain ⟨target, hlink, hq⟩ := hback
  obtain ⟨front, c, rfl⟩ := (List.eq_nil_or_concat' inner).resolve_left hinner
  obtain ⟨hparent, hc⟩ := h.at?_parent (linkAt?_eq_some_iff.mp hlink)
  have hfront := h.resolves hparent fun _ => Node.noConfusion
  rw [← List.append_assoc] at hlink hq
  rw [List.dropLast_concat] at hq
  have hlast : t.Circles [] ⟨0, dir ++ front⟩ [c] q (behind ++ []) :=
    .inside hc hlink List.not_mem_nil hq
  rw [List.append_nil] at hlast
  exact (hlast.append hfront).append hpath

/-- A link cannot be resolved exactly if it is stuck. -/
theorem IsTree.resolve_eq_error_iff (h : t.IsTree) (hpath : t.Resolves n .root path ⟨0, dir⟩)
    (hinner : inner ≠ []) (hlink : (t.linkAt? ⟨0, dir ++ inner⟩).isSome) :
    t.resolve (path ++ inner) = .error e ↔ e = .linkLoop ∧ t.Stuck (dir ++ inner) := by
  rw [Tree.resolve_eq_error_iff]
  refine and_congr_right fun _ => exists₂_congr fun q behind => and_congr_left fun _ => ?_
  refine ⟨fun hcircles => ?_, h.circles_of_leadsBack hpath hinner⟩
  rcases leadsTo_or_leadsBack hlink with ⟨r, hleads⟩ | ⟨r, rest, hback⟩
  · obtain ⟨m, hr⟩ := h.resolves_of_leadsTo hpath hinner hleads
    exact absurd hr hcircles.not_resolves
  · obtain ⟨rfl, rfl⟩ := hcircles.unique (h.circles_of_leadsBack hpath hinner hback)
    exact hback

/-- Whether a link is stuck is told by resolving it where it is. -/
theorem IsTree.stuck_iff (h : t.IsTree) (hpath : path ≠ []) : t.Stuck path ↔
    (t.linkAt? ⟨0, path⟩).isSome ∧ t.resolve path = .error .linkLoop := by
  have hroot : t.Resolves 0 .root [] ⟨0, []⟩ := .done
  constructor
  · intro hstuck
    obtain ⟨q, behind, ⟨target, hlink, -⟩, -⟩ := id hstuck
    have hsome : (t.linkAt? ⟨0, path⟩).isSome := by rw [hlink]; rfl
    exact ⟨hsome, (h.resolve_eq_error_iff hroot hpath hsome).mpr ⟨rfl, hstuck⟩⟩
  · rintro ⟨hsome, hresolve⟩
    exact ((h.resolve_eq_error_iff hroot hpath hsome).mp hresolve).2

/-- A link cannot be read exactly if it cannot be resolved. -/
theorem readLink_eq_error_iff : t.readLink root path = .error e ↔ t.resolve path = .error e := by
  rw [readLink]
  split
  · next hopened =>
    -- the link is opened, so it leads somewhere
    obtain ⟨q, hq, -⟩ := (Option.any_eq_true _ _).mp (Bool.and_eq_true_iff.mp hopened).1
    cases hwalk : walkFrom t maxLinks .root path with
    | error e =>
      rw [hwalk] at hq
      cases hq
    | ok q' =>
      obtain ⟨k, -, hk⟩ := walkFrom_eq_ok_iff.mp hwalk
      rw [resolve_eq hk.resolves]
      constructor
      · rintro ⟨⟩
      · rintro ⟨⟩
  · exact map_eq_error

/-! ## Packages -/

/-- An entry below a directory cannot be read exactly if it is a stuck link. -/
theorem IsTree.readEntry_eq_error_iff (h : t.IsTree) (hpath : t.Resolves n .root path ⟨0, dir⟩)
    (hentry : (inner, node) ∈ t.entriesBelow ⟨0, dir⟩) :
    t.readEntry ⟨0, dir⟩ (path ++ inner) node = .error e ↔ e = .linkLoop ∧ t.Stuck (dir ++ inner) := by
  obtain ⟨hinner, -, hmem⟩ := mem_entriesBelow.mp hentry
  have hnode : t.at? ⟨0, dir ++ inner⟩ = some node :=
    (h.at?_eq_some_iff (List.append_ne_nil_of_right_ne_nil dir hinner)).mpr hmem
  cases node with
  | file | dir =>
    refine iff_of_false nofun ?_
    rintro ⟨-, q, behind, ⟨target, hlink, -⟩, -⟩
    rw [linkAt?_eq_some_iff, hnode] at hlink
    cases hlink
  | link target =>
    have hlink := linkAt?_eq_some_iff.mpr hnode
    rw [readEntry, readLink_eq_error_iff, h.resolve_eq_error_iff hpath hinner (by rw [hlink]; rfl)]

/-- A package is read exactly if none of its links is stuck. -/
theorem IsTree.readPackage_returns_iff (h : t.IsTree) (hpath : t.Resolves n .root path ⟨0, dir⟩) :
    (∃ fs, t.readPackage path ⟨0, dir⟩ = .ok fs) ↔
      ∀ inner, inner ≠ [] → skippedDirectory ∉ inner.dropLast → ¬ t.Stuck (dir ++ inner) := by
  constructor
  · rintro ⟨fs, hread⟩ inner hinner hkept hstuck
    obtain ⟨q, behind, ⟨target, hlink, -⟩, -⟩ := id hstuck
    have hmem := (mem_entries_of_linkAt? hlink).2.2
    have hentry := mem_entriesBelow.mpr ⟨hinner, hkept, hmem⟩
    obtain ⟨reading, hreading⟩ := exists_of_readPackage_eq_ok hread hentry
    rw [(h.readEntry_eq_error_iff hpath hentry).mpr ⟨rfl, hstuck⟩] at hreading
    cases hreading
  · intro hfree
    cases hread : t.readPackage path ⟨0, dir⟩ with
    | ok fs => exact ⟨fs, rfl⟩
    | error e =>
      obtain ⟨⟨inner, node⟩, hentry, herror⟩ := exists_of_readPackage_eq_error hread
      obtain ⟨hinner, hkept, -⟩ := mem_entriesBelow.mp hentry
      exact absurd ((h.readEntry_eq_error_iff hpath hentry).mp herror).2 (hfree inner hinner hkept)

theorem IsTree.eq_linkLoop_of_readPackage (h : t.IsTree) (hpath : t.Resolves n .root path ⟨0, dir⟩)
    (hread : t.readPackage path ⟨0, dir⟩ = .error e) : e = .linkLoop := by
  obtain ⟨entry, hentry, herror⟩ := exists_of_readPackage_eq_error hread
  exact ((h.readEntry_eq_error_iff hpath hentry).mp herror).1

/-- A package is loaded from a directory as it is read there, with the changes of the overlay. -/
theorem load_eq (overlay : Option Overlay) (hroot : t.findDir path = .ok (some root)) :
    t.load path overlay = (t.readPackage path root).map fun fs => fs.overlaid (overlay.getD []) := by
  rw [load, hroot]
  rfl

/-- Loading a package from a directory returns, whatever the overlay, unless a link below the directory
leads back to itself and what is behind it does not lead out of the circle. Only such a link makes it
fail: one that leads nowhere, or through many other links, does not. -/
theorem load_returns_iff (h : t.IsTree) (hroot : t.findDir path = .ok (some ⟨0, dir⟩))
    (overlay : Option Overlay) :
    ((∃ fs, t.load path overlay = .ok fs) ↔
        ∀ inner, inner ≠ [] → skippedDirectory ∉ inner.dropLast → ¬ t.Stuck (dir ++ inner))
      ∧ ∀ e, t.load path overlay = .error e → e = .linkLoop := by
  obtain ⟨n, hpath⟩ := resolves_of_findDir hroot
  rw [load_eq overlay hroot]
  refine ⟨?_, fun e herror => h.eq_linkLoop_of_readPackage hpath (map_eq_error.mp herror)⟩
  rw [← h.readPackage_returns_iff hpath]
  constructor
  · rintro ⟨fs, hload⟩
    obtain ⟨plain, hread, -⟩ := map_eq_ok.mp hload
    exact ⟨plain, hread⟩
  · rintro ⟨plain, hread⟩
    exact ⟨_, map_eq_ok.mpr ⟨plain, hread, rfl⟩⟩

/-- A package with a link to a link to nothing, a link that leads out of its own circle to a file, and a
link that does not, in a directory that is left out. -/
def turningLinks : Tree where
  entries :=
    [(["pkg"], .dir),
     (["pkg", "lib.typ"], .file "x".toUTF8),
     (["pkg", "gone"], .link "nothing"),
     (["pkg", "chain"], .link "gone"),
     (["pkg", "turn"], .link "turn/../lib.typ"),
     (["pkg", ".git"], .dir),
     (["pkg", ".git", "self"], .link "self")]

theorem turningLinks_spec : turningLinks.IsTree
    ∧ turningLinks.findDir ["pkg"] = .ok (some ⟨0, ["pkg"]⟩)
    ∧ componentsOf "turn/../lib.typ" = ["turn", "..", "lib.typ"]
    ∧ turningLinks.resolve ["pkg", ".git", "self"] = .error .linkLoop
    ∧ ∀ entry ∈ turningLinks.entries, skippedDirectory ∉ entry.1.tail.dropLast →
      turningLinks.resolve entry.1 ≠ .error .linkLoop := by
  decide +kernel

theorem load_returns_turningLinks :
    turningLinks.IsTree ∧ turningLinks.findDir ["pkg"] = .ok (some ⟨0, ["pkg"]⟩)
      ∧ turningLinks.LeadsBack ["pkg", "turn"] ⟨0, ["pkg", "turn"]⟩ ["..", "lib.typ"]
      ∧ turningLinks.Stuck ["pkg", ".git", "self"]
      ∧ ∃ fs, turningLinks.load ["pkg"] (some [("chain", none)]) = .ok fs := by
  obtain ⟨htree, hroot, hcomponents, hself, hfree⟩ := turningLinks_spec
  refine ⟨htree, hroot, ⟨"turn/../lib.typ", rfl, ?_⟩,
    (htree.stuck_iff (List.cons_ne_nil _ _)).mpr ⟨rfl, hself⟩,
    (load_returns_iff htree hroot _).1.mpr fun inner hinner hkept hstuck => ?_⟩
  · rw [hcomponents]
    exact .met ⟨by decide, by decide, by decide⟩ rfl (by decide)
  · obtain ⟨hlink, hresolve⟩ :=
      (htree.stuck_iff (List.append_ne_nil_of_right_ne_nil _ hinner)).mp hstuck
    obtain ⟨entry, hentry, heq⟩ := List.mem_map.mp (mem_names_of_isSome hlink)
    refine hfree entry hentry ?_ ?_
    · rwa [heq]
    · rwa [heq]

/-- A package with a link to itself. -/
def selfLink : Tree where
  entries := [(["pkg"], .dir), (["pkg", "lib.typ"], .file "x".toUTF8), (["pkg", "a"], .link "a")]

/-- A directory can be there, and the package in it cannot be loaded. -/
theorem load_fails_selfLink :
    selfLink.IsTree ∧ selfLink.findDir ["pkg"] = .ok (some ⟨0, ["pkg"]⟩)
      ∧ selfLink.load ["pkg"] none = .error .linkLoop := by
  exact ⟨by decide, rfl, rfl⟩

end TypstLint.Tree

/-! ## Loading a package with an overlay

The overlay has the word on the files that it names, and the directory on all others. It has no word on the
links that lead out: they are those of the directory, and no file of the directory is one of them. -/

namespace TypstLint.Tree

variable {t : Tree} {root : Place} {path : List String} {overlay : Overlay} {fs : FileSet} {name : String}

/-- No file of a package that is read is a link that leads out. -/
theorem IsTree.content?_eq_none_of_mem_escapedLinks (h : t.IsTree)
    (hread : t.readPackage path root = .ok fs) (hlink : name ∈ fs.escapedLinks) :
    fs.content? name = none := by
  obtain ⟨above, dir⟩ := root
  cases above with
  | zero =>
    obtain rfl := readPackage_eq_of_ok hread
    refine Option.eq_none_iff_forall_ne_some.mpr fun content hcontent => ?_
    cases h.reading_unique (mem_escapedLinks_packageRead.mp hlink)
      (h.content?_packageRead_iff.mp hcontent)
  | succ above =>
    obtain rfl := Except.ok.inj hread
    exact absurd (FileSet.mem_escapedLinks_withEscapedLinks.mp hlink) List.not_mem_nil

/-- What is loaded with an overlay is what is loaded without it, if there is a directory, with the changes
of the overlay. -/
theorem IsTree.exists_plain_of_load (h : t.IsTree) (hload : t.load path (some overlay) = .ok fs) :
    ∃ plain : FileSet,
      (t.load path none = .ok plain ∨ t.load path none = .error .missingDirectory ∧ plain = .empty)
        ∧ fs = plain.overlaid overlay
        ∧ ∀ name ∈ plain.escapedLinks, plain.content? name = none := by
  cases hroot : t.findDir path with
  | error e =>
    rw [load, hroot] at hload
    cases hload
  | ok root? =>
    cases root? with
    | none =>
      rw [load, hroot] at hload
      refine ⟨.empty, .inr ⟨?_, rfl⟩, (Except.ok.inj hload).symm, fun name hlink => ?_⟩
      · rw [load, hroot]
        rfl
      · cases hlink
    | some root =>
      rw [load_eq _ hroot] at hload
      obtain ⟨plain, hread, heq⟩ := map_eq_ok.mp hload
      refine ⟨plain, .inl ?_, heq.symm, fun name => h.content?_eq_none_of_mem_escapedLinks hread⟩
      rw [load_eq _ hroot, hread]
      rfl

/-- What an overlay says counts for the files of a package, and all else is as without it. The links that
lead out are those without it, and such a link is a file of the package exactly if the overlay gives it
content. -/
theorem load_overlaid (h : t.IsTree) (hnames : (overlay.map Prod.fst).Nodup)
    (hload : t.load path (some overlay) = .ok fs) : ∃ plain : FileSet,
    (t.load path none = .ok plain ∨ t.load path none = .error .missingDirectory ∧ plain = .empty)
      ∧ (∀ name, fs.content? name = (overlay.lookup name).getD (plain.content? name))
      ∧ fs.escapedLinks = plain.escapedLinks
      ∧ ∀ name ∈ fs.escapedLinks, plain.content? name = none
        ∧ ∀ content, fs.content? name = some content ↔ overlay.lookup name = some (some content) := by
  obtain ⟨plain, hplain, rfl, hdisjoint⟩ := h.exists_plain_of_load hload
  have hlinks : (plain.overlaid overlay).escapedLinks = plain.escapedLinks :=
    FileSet.escapedLinks_overlaid overlay
  refine ⟨plain, hplain, fun name => FileSet.content?_overlaid hnames, hlinks, fun name hlink => ?_⟩
  rw [hlinks] at hlink
  have hnone := hdisjoint name hlink
  refine ⟨hnone, fun content => ?_⟩
  rw [FileSet.content?_overlaid hnames, hnone, Option.getD_eq_iff]
  simp

/-- A link leads out of the package in the clone. -/
theorem exists_readPackage_linkedPackage : ∃ plain,
    linkedPackage.readPackage ["current"] ⟨0, ["pkg"]⟩ = .ok plain ∧ "secret.txt" ∈ plain.escapedLinks := by
  obtain ⟨htree, hloops, hroot⟩ := wellFormed_linkedPackage
  obtain ⟨-, hsecret, -⟩ := leadsTo_linkedPackage
  obtain ⟨n, hpath⟩ := resolves_of_findDir hroot
  obtain ⟨plain, hread, -, -, hlinks⟩ := readPackage_spec htree hloops hpath
  refine ⟨plain, hread, (hlinks _).mpr ?_⟩
  exact (hasEscaped_iff_of_leadsTo hsecret (by decide)).mpr ⟨by decide, by decide⟩

/-- What a pull request changes: it replaces a link that leads out by a file, and removes a file. -/
def replacedLink : Overlay := [("secret.txt", some "open".toUTF8), ("lib.typ", none)]

theorem load_overlaid_replacedLink :
    linkedPackage.IsTree ∧ (replacedLink.map Prod.fst).Nodup
      ∧ ∃ fs, linkedPackage.load ["current"] (some replacedLink) = .ok fs
        ∧ fs.content? "secret.txt" = some "open".toUTF8 ∧ fs.content? "lib.typ" = none
        ∧ "secret.txt" ∈ fs.escapedLinks := by
  obtain ⟨htree, -, hroot⟩ := wellFormed_linkedPackage
  obtain ⟨plain, hread, hlink⟩ := exists_readPackage_linkedPackage
  have hnames : (replacedLink.map Prod.fst).Nodup := by decide
  have hload : linkedPackage.load ["current"] (some replacedLink)
      = .ok (plain.overlaid replacedLink) := by
    rw [load_eq _ hroot, hread]
    rfl
  obtain ⟨plain', -, hcontent, -, -⟩ := load_overlaid htree hnames hload
  refine ⟨htree, hnames, _, hload, hcontent _, hcontent _, ?_⟩
  rwa [FileSet.escapedLinks_overlaid]

/-- A link that leads out is listed, and the overlay removes the file in its place. -/
theorem escapedLinks_of_removed :
    ∃ fs, linkedPackage.load ["current"] (some [("secret.txt", none)]) = .ok fs
      ∧ fs.content? "secret.txt" = none ∧ "secret.txt" ∈ fs.escapedLinks := by
  obtain ⟨-, -, hroot⟩ := wellFormed_linkedPackage
  obtain ⟨plain, hread, hlink⟩ := exists_readPackage_linkedPackage
  refine ⟨plain.overlaid [("secret.txt", none)], ?_, ?_, ?_⟩
  · rw [load_eq _ hroot, hread]
    rfl
  · exact FileSet.content?_overlaid (List.nodup_singleton _)
  · rwa [FileSet.escapedLinks_overlaid]

end TypstLint.Tree
