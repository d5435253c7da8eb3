import TypstLint.Proofs.Tree.Packages

set_option autoImplicit false

/-! # Packages are confined to their directory

A package is loaded from a directory with the files below it and those within it that links below it lead
to, and with nothing that lies outside (`load_confined`). What cannot be opened is left out, such as the
end of a chain of too many links (`load_misses_closedLinks`). -/

namespace TypstLint.Tree

variable {t : Tree} {n : Nat} {root : Place} {path dir inner : List String} {content : ByteArray}

theorem resolves_of_findDir (hroot : t.findDir path = .ok (some root)) :
    ∃ n, t.Resolves n .root path root := by
  obtain ⟨hwalk, -⟩ := findDir_eq_some_iff.mp hroot
  obtain ⟨-, n, -, hn⟩ := walk_eq_ok_iff.mp hwalk
  exact ⟨n, hn.resolves⟩

/-- A file of a package is found within its directory. -/
theorem HasFile.confined (hfile : t.HasFile path dir inner content) (h : t.IsTree)
    (hpath : t.Resolves n .root path ⟨0, dir⟩) (hinner : inner ≠ []) :
    ∃ m q, t.Resolves m .root (path ++ inner) q
      ∧ q.isWithin ⟨0, dir⟩ = true ∧ t.at? q = some (.file content) := by
  obtain ⟨-, hnode | ⟨q, hleads, hwithin, hnode, -⟩⟩ := hfile
  · have hplace := (h.resolves hnode fun _ => Node.noConfusion).mono (Nat.zero_le n)
    exact ⟨n, _, hpath.append hplace, by simp [Place.isWithin], hnode⟩
  · obtain ⟨m, hq⟩ := h.resolves_of_leadsTo hpath hinner hleads
    exact ⟨m, q, hq, hwithin, hnode⟩

theorem load_spec (h : t.IsTree) (hloops : t.NoLoops) (hroot : t.findDir path = .ok (some ⟨0, dir⟩)) :
    ∃ fs, t.load path none = .ok fs
      ∧ (∀ name content, fs.content? name = some content
          ↔ t.HasFile path dir (componentsOf name) content)
      ∧ fs.escapedLinks.Pairwise (· < ·)
      ∧ ∀ name, name ∈ fs.escapedLinks ↔ t.HasEscaped path dir (componentsOf name) := by
  obtain ⟨n, hpath⟩ := resolves_of_findDir hroot
  obtain ⟨fs, hread, hspec⟩ := readPackage_spec h hloops hpath
  refine ⟨fs, ?_, hspec⟩
  rw [load, hroot]
  dsimp only [bind, Except.bind]
  rw [hread]
  rfl

/-- Loads the package in a directory of a tree in which no link leads back to itself. It has the files
below the directory and those within it that links below it lead to, and nothing from outside. -/
theorem load_confined (h : t.IsTree) (hloops : t.NoLoops)
    (hroot : t.findDir path = .ok (some ⟨0, dir⟩)) : ∃ fs, t.load path none = .ok fs
      ∧ (∀ name content, fs.content? name = some content
          ↔ t.HasFile path dir (componentsOf name) content)
      ∧ (∀ name content, fs.content? name = some content →
          ∃ n q, t.Resolves n .root (path ++ componentsOf name) q
            ∧ q.isWithin ⟨0, dir⟩ = true ∧ t.at? q = some (.file content))
      ∧ fs.escapedLinks.Pairwise (· < ·)
      ∧ ∀ name, name ∈ fs.escapedLinks ↔ t.HasEscaped path dir (componentsOf name) := by
  obtain ⟨n, hpath⟩ := resolves_of_findDir hroot
  obtain ⟨fs, hload, hfiles, hsorted, hlinks⟩ := load_spec h hloops hroot
  refine ⟨fs, hload, hfiles, fun name content hcontent => ?_, hsorted, hlinks⟩
  exact ((hfiles name content).mp hcontent).confined h hpath (componentsOf_ne_nil name)

/-- A package in the clone of a repository, and a link to its directory. In it a link leads to another
one, which leads to a file; two links lead to directories, one nowhere, and two out of the package. -/
def linkedPackage : Tree where
  location := ["srv", "clone"]
  entries :=
    [(["git"], .dir),
     (["secret.txt"], .file "secret".toUTF8),
     (["current"], .link "pkg"),
     (["pkg"], .dir),
     (["pkg", "lib.typ"], .file "x".toUTF8),
     (["pkg", "src"], .dir),
     (["pkg", "inner.typ"], .link "/srv/clone/pkg/lib.typ"),
     (["pkg", "src", "main.typ"], .link "../inner.typ"),
     (["pkg", "all"], .link "src"),
     (["pkg", ".git"], .link "../git"),
     (["pkg", "gone.typ"], .link "src/gone.typ"),
     (["pkg", "secret.txt"], .link "../secret.txt"),
     (["pkg", "src", "far.txt"], .link "/etc/passwd")]

theorem wellFormed_linkedPackage : linkedPackage.IsTree ∧ linkedPackage.NoLoops
    ∧ linkedPackage.findDir ["current"] = .ok (some ⟨0, ["pkg"]⟩) := by
  decide +kernel

/-- Where its links lead. -/
theorem leadsTo_linkedPackage :
    linkedPackage.LeadsTo ["pkg", "src", "main.typ"] ⟨0, ["pkg", "lib.typ"]⟩
      ∧ linkedPackage.LeadsTo ["pkg", "secret.txt"] ⟨0, ["secret.txt"]⟩
      ∧ linkedPackage.LeadsTo ["pkg", "src", "far.txt"] ⟨2, ["etc", "passwd"]⟩
      ∧ linkedPackage.LeadsTo ["pkg", "gone.typ"] ⟨0, ["pkg", "src", "gone.typ"]⟩
      ∧ linkedPackage.LeadsTo ["pkg", ".git"] ⟨0, ["git"]⟩
      ∧ linkedPackage.CanOpen ["current", "src", "main.typ"]
      ∧ linkedPackage.CanOpen ["current", ".git"] := by
  decide +kernel

theorem load_confined_linkedPackage :
    linkedPackage.IsTree ∧ linkedPackage.NoLoops
      ∧ linkedPackage.findDir ["current"] = .ok (some ⟨0, ["pkg"]⟩)
      ∧ ∃ fs, linkedPackage.load ["current"] none = .ok fs
        ∧ fs.content? "src/main.typ" = some "x".toUTF8 ∧ fs.content? "secret.txt" = none
        ∧ "secret.txt" ∈ fs.escapedLinks ∧ "src/far.txt" ∈ fs.escapedLinks
        ∧ "gone.typ" ∉ fs.escapedLinks ∧ ".git" ∉ fs.escapedLinks := by
  obtain ⟨htree, hloops, hroot⟩ := wellFormed_linkedPackage
  obtain ⟨hmain, hsecret, hfar, hgone, hgit, hopen, hopenGit⟩ := leadsTo_linkedPackage
  obtain ⟨fs, hload, hfiles, -, -, hlinks⟩ := load_confined htree hloops hroot
  refine ⟨htree, hloops, hroot, fs, hload, ?_, ?_, ?_, ?_, ?_, ?_⟩
  · exact (hfiles _ _).mpr ((hasFile_iff_of_leadsTo hmain (by decide)).mpr
      ⟨by decide, rfl, hopen⟩)
  · refine Option.eq_none_iff_forall_ne_some.mpr fun content hcontent => ?_
    have hwithin := (hasFile_iff_of_leadsTo hsecret (by decide)).mp ((hfiles _ _).mp hcontent)
    exact absurd hwithin.1 (by decide)
  · exact (hlinks _).mpr ((hasEscaped_iff_of_leadsTo hsecret (by decide)).mpr ⟨by decide, by decide⟩)
  · exact (hlinks _).mpr ((hasEscaped_iff_of_leadsTo hfar (by decide)).mpr ⟨by decide, by decide⟩)
  · intro hmem
    have hout := (hasEscaped_iff_of_leadsTo hgone (by decide)).mp ((hlinks _).mp hmem)
    exact absurd hout.1 (by decide)
  · intro hmem
    have hout := (hasEscaped_iff_of_leadsTo hgit (by decide)).mp ((hlinks _).mp hmem)
    exact hout.2 ⟨rfl, rfl, hopenGit⟩

/-! ## Links that cannot be opened -/

/-- The names in a chain of links. -/
def chainName (i : Nat) : String := s!"link{i}"

/-- A file, a chain of links to it with one link more than a walk follows, and a link to it through a
directory that is missing. -/
def closedLinks : Tree where
  entries :=
    ([chainName 0], .file "x".toUTF8) :: (["detour"], .link "gone/../link0") ::
      (List.range (maxLinks + 1)).map fun i => ([chainName (i + 1)], .link (chainName i))

theorem chainName_spec : ∀ i < maxLinks + 2,
    IsName (chainName i) ∧ componentsOf (chainName i) = [chainName i] := by
  decide

/-- It is a tree, the file is no link, and the last link of the chain and the one through the missing
directory cannot be opened. -/
theorem closedLinks_spec : closedLinks.IsTree ∧ closedLinks.linkAt? ⟨0, [chainName 0]⟩ = none
    ∧ closedLinks.LeadsTo ["detour"] ⟨0, [chainName 0]⟩
    ∧ closedLinks.findDir ["."] = .ok (some ⟨0, []⟩)
    ∧ ¬ closedLinks.CanOpen [".", chainName (maxLinks + 1)] ∧ ¬ closedLinks.CanOpen [".", "detour"] := by
  decide

theorem linkAt?_closedLinks {i : Nat} (hi : i ≤ maxLinks) :
    closedLinks.linkAt? ⟨0, [chainName (i + 1)]⟩ = some (chainName i) := by
  rw [linkAt?_eq_some_iff, closedLinks_spec.1.at?_eq_some_iff (List.cons_ne_nil _ _)]
  have hmem := List.mem_map_of_mem
    (f := fun i => ([chainName (i + 1)], Node.link (chainName i)))
    (List.mem_range.mpr (Nat.lt_succ_of_le hi))
  exact List.mem_cons_of_mem _ (List.mem_cons_of_mem _ hmem)

/-- Every link of the chain leads to the file. -/
theorem leadsTo_chainName {i : Nat} (hi : i ≤ maxLinks) :
    closedLinks.LeadsTo [chainName (i + 1)] ⟨0, [chainName 0]⟩ := by
  obtain ⟨hname, hcomponents⟩ := chainName_spec i (by omega)
  induction i with
  | zero =>
    refine ⟨0, _, linkAt?_closedLinks hi, ?_⟩
    rw [hcomponents]
    exact .enter hname.isStep closedLinks_spec.2.1 .done
  | succ i ih =>
    obtain ⟨hname', hcomponents'⟩ := chainName_spec i (by omega)
    obtain ⟨n, hn⟩ := ih (by omega) hname' hcomponents'
    have hlink := linkAt?_closedLinks (i := i) (by omega)
    refine ⟨n + 1, _, linkAt?_closedLinks hi, ?_⟩
    rw [hcomponents]
    exact .follow hname.isStep hlink ((leadsWithin_child_iff hlink).mp hn) .done

theorem noLoops_closedLinks : closedLinks.NoLoops := by
  refine noLoops_iff.mpr fun path hlink => ?_
  obtain ⟨entry, hentry, rfl⟩ := List.mem_map.mp (mem_names_of_isSome hlink)
  rcases List.mem_cons.mp hentry with rfl | hentry
  · rw [closedLinks_spec.2.1] at hlink
    cases hlink
  rcases List.mem_cons.mp hentry with rfl | hentry
  · exact ⟨_, closedLinks_spec.2.2.1⟩
  · obtain ⟨i, hi, rfl⟩ := List.mem_map.mp hentry
    exact ⟨_, leadsTo_chainName (Nat.le_of_lt_succ (List.mem_range.mp hi))⟩

/-- Two links lead to the file, but they cannot be opened, and are not read. -/
theorem load_misses_closedLinks :
    closedLinks.IsTree ∧ closedLinks.NoLoops ∧ closedLinks.findDir ["."] = .ok (some ⟨0, []⟩)
      ∧ closedLinks.at? ⟨0, [chainName 0]⟩ = some (.file "x".toUTF8)
      ∧ Place.isWithin ⟨0, [chainName 0]⟩ ⟨0, []⟩ = true
      ∧ ∃ fs, closedLinks.load ["."] none = .ok fs
        ∧ ∀ name ∈ [chainName (maxLinks + 1), "detour"],
          closedLinks.LeadsTo [name] ⟨0, [chainName 0]⟩ ∧ fs.content? name = none := by
  obtain ⟨htree, -, hdetour, hroot, hlastClosed, hdetourClosed⟩ := closedLinks_spec
  obtain ⟨fs, hload, hfiles, -⟩ := load_spec htree noLoops_closedLinks hroot
  refine ⟨htree, noLoops_closedLinks, hroot, rfl, by decide, fs, hload, ?_⟩
  have hmissing (name : String) (hname : componentsOf name = [name])
      (hleads : closedLinks.LeadsTo ([] ++ [name]) ⟨0, [chainName 0]⟩)
      (hclosed : ¬ closedLinks.CanOpen [".", name]) : fs.content? name = none := by
    refine Option.eq_none_iff_forall_ne_some.mpr fun content hcontent => hclosed ?_
    have hfile := (hfiles _ _).mp hcontent
    rw [hname] at hfile
    exact ((hasFile_iff_of_leadsTo hleads List.not_mem_nil).mp hfile).2.2
  have hlast := leadsTo_chainName (Nat.le_refl maxLinks)
  rw [List.forall_mem_cons, List.forall_mem_singleton]
  exact ⟨⟨hlast, hmissing _ (chainName_spec _ (by decide)).2 hlast hlastClosed⟩,
    ⟨hdetour, hmissing _ (by decide) hdetour hdetourClosed⟩⟩

end TypstLint.Tree
