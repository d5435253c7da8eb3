import TypstLint.Proofs.Package.Spec
import TypstLint.Proofs.Tree.Checkout

set_option autoImplicit false

/-! # What a registry lists and what it has

A registry lists the directories of a package whose names are read as versions. It has a version if there
is a manifest in the directory that is named as the version is printed. So of the versions that are listed
it has those that are listed for a directory with a manifest whose name has no blanks around it
(`Registry.Lists.hasPackage_iff`). -/

namespace TypstLint.Registry

variable {r : Registry} {spec : Spec} {name : String} {v : Version} {vs : List Version}

/-! ## Places in a registry -/

theorem componentsOf_version (v : Version) : Tree.componentsOf v.render = [v.render] := by
  rw [Tree.componentsOf, Text.splitOn_of_notMem (v.notMem_render rfl (by decide)), List.map_singleton, String.ofList_toList]

theorem isStep_version (v : Version) : Tree.IsStep v.render := by
  have hparts := versionParts?_render v
  have hne (text : String) (hnone : versionParts? text.toList = none) : v.render ≠ text := by
    intro heq
    rw [heq, hnone] at hparts
    cases hparts
  exact ⟨hne "" rfl, hne "." rfl, hne ".." rfl⟩

/-- The directory of a version lies in the one of its package. -/
theorem packageDir_withVersion (r : Registry) (spec : Spec) (v : Version) :
    r.packageDir (spec.withVersion v) = r.pathOf spec.packagePath ++ [v.render] := by
  have hpath : (spec.withVersion v).registryPath = spec.packagePath ++ "/" ++ v.render := rfl
  rw [packageDir, pathOf, hpath, Tree.componentsOf_append, componentsOf_version, ← List.append_assoc]
  rfl

/-- Whether there is a manifest in the directory with a name in the one of a package. -/
def HasManifest (r : Registry) (spec : Spec) (name : String) : Prop :=
  ∃ place content,
    r.tree.find (r.pathOf spec.packagePath ++ [name] ++ ["typst.toml"]) = .ok (some (place, .file content))

theorem hasPackage_iff_find : r.hasPackage spec = .ok true ↔
    ∃ place content, r.tree.find (r.manifestFile spec) = .ok (some (place, .file content)) := by
  unfold hasPackage
  split
  · next hfind =>
    rw [hfind]
    exact iff_of_false nofun nofun
  · next place content hfind =>
    rw [hfind]
    exact iff_of_true rfl ⟨place, content, rfl⟩
  · next found hfile hfind =>
    refine iff_of_false nofun ?_
    rintro ⟨place, content, hfound⟩
    exact hfile place content (Except.ok.inj (hfind.symm.trans hfound))

/-- A registry has a version if there is a manifest in the directory that is named so. -/
theorem hasPackage_withVersion_iff :
    r.hasPackage (spec.withVersion v) = .ok true ↔ r.HasManifest spec v.render := by
  rw [hasPackage_iff_find, manifestFile, packageDir_withVersion]
  rfl

/-! ## Listing versions -/

/-- An entry of the directory of a package is listed as a version: it leads to a directory, and its name
is read as the version. -/
structure Lists (r : Registry) (spec : Spec) (name : String) (v : Version) : Prop where
  isEntry : ∃ dir, r.tree.findDir (r.pathOf spec.packagePath) = .ok (some dir)
    ∧ name ∈ entryNames r.tree dir
  isDir : ∃ place, r.tree.findDir (r.pathOf spec.packagePath ++ [name]) = .ok (some place)
  parse_eq : Version.parse name = .ok v

theorem mem_entryNames {t : Tree} {dir : Place} : name ∈ entryNames t dir ↔
    dir.above = 0 ∧ ∃ node, (dir.path ++ [name], node) ∈ t.entries := by
  unfold entryNames
  by_cases habove : dir.above = 0
  · rw [if_neg (by simp [habove]), List.mem_filterMap, and_iff_right habove]
    constructor
    · rintro ⟨⟨path, node⟩, hmem, hname⟩
      obtain ⟨hdir, hlast⟩ := Option.ite_none_right_eq_some.mp hname
      obtain ⟨front, rfl⟩ := List.getLast?_eq_some_iff.mp hlast
      rw [List.dropLast_concat, beq_iff_eq] at hdir
      exact ⟨node, hdir ▸ hmem⟩
    · rintro ⟨node, hmem⟩
      exact ⟨_, hmem, by simp⟩
  · rw [if_pos (by simpa using habove)]
    exact iff_of_false List.not_mem_nil fun h => habove h.1

theorem versionAt_eq_some_iff {t : Tree} {path : List String} : versionAt t path name = .ok (some v) ↔
    (∃ place, t.findDir (path ++ [name]) = .ok (some place)) ∧ Version.parse name = .ok v := by
  rw [versionAt, map_eq_ok]
  constructor
  · rintro ⟨dir?, hdir, hversion⟩
    obtain ⟨hsome, hparse⟩ := Option.ite_none_right_eq_some.mp hversion
    obtain ⟨place, rfl⟩ := Option.isSome_iff_exists.mp hsome
    exact ⟨⟨place, hdir⟩, toOption_eq_some_iff.mp hparse⟩
  · rintro ⟨⟨place, hdir⟩, hparse⟩
    exact ⟨some place, hdir, toOption_eq_some_iff.mpr hparse⟩

/-- The versions of a package are those of the entries of its directory, sorted. -/
theorem versions_cases (hvs : r.versions spec.namespaceName spec.name = .ok vs) :
    r.tree.findDir (r.pathOf spec.packagePath) = .ok none ∧ vs = []
    ∨ ∃ dir found, r.tree.findDir (r.pathOf spec.packagePath) = .ok (some dir)
      ∧ (entryNames r.tree dir).mapM (versionAt r.tree (r.pathOf spec.packagePath)) = .ok found
      ∧ vs = Version.sort (found.filterMap id) := by
  obtain ⟨dir?, hdir, h⟩ := bind_eq_ok.mp hvs
  cases dir? with
  | none => exact .inl ⟨hdir, (Except.ok.inj h).symm⟩
  | some dir =>
    obtain ⟨found, hfound, h⟩ := bind_eq_ok.mp h
    exact .inr ⟨dir, found, hdir, hfound, (Except.ok.inj h).symm⟩

theorem pairwise_versions (hvs : r.versions spec.namespaceName spec.name = .ok vs) :
    vs.Pairwise fun v w => v.le w = true := by
  rcases versions_cases hvs with ⟨-, rfl⟩ | ⟨dir, found, -, -, rfl⟩
  · exact .nil
  · exact Version.pairwise_sort _

/-- A version is among them if an entry is listed as it. -/
theorem mem_versions_iff (hvs : r.versions spec.namespaceName spec.name = .ok vs) :
    v ∈ vs ↔ ∃ name, r.Lists spec name v := by
  rcases versions_cases hvs with ⟨hnone, rfl⟩ | ⟨dir, found, hdir, hfound, rfl⟩
  · refine iff_of_false List.not_mem_nil ?_
    rintro ⟨name, ⟨dir, hsome, -⟩, -, -⟩
    cases hnone.symm.trans hsome
  · rw [Version.mem_sort, List.mem_filterMap]
    constructor
    · rintro ⟨_, hmem, rfl⟩
      obtain ⟨name, hname, hversion⟩ := exists_of_mem_mapM hfound hmem
      obtain ⟨hplace, hparse⟩ := versionAt_eq_some_iff.mp hversion
      exact ⟨name, ⟨dir, hdir, hname⟩, hplace, hparse⟩
    · rintro ⟨name, ⟨dir', hdir', hname⟩, hplace, hparse⟩
      obtain rfl := Option.some.inj (Except.ok.inj (hdir.symm.trans hdir'))
      obtain ⟨version, hmem, hversion⟩ := mem_of_mapM hfound hname
      obtain rfl := Except.ok.inj (hversion.symm.trans (versionAt_eq_some_iff.mpr ⟨hplace, hparse⟩))
      exact ⟨_, hmem, rfl⟩

/-- The latest version is the greatest one that is listed. -/
theorem latestVersion_spec (h : r.latestVersion spec.namespaceName spec.name = .ok (some v)) :
    (∃ name, r.Lists spec name v) ∧ ∀ name w, r.Lists spec name w → w.le v = true := by
  obtain ⟨vs, hvs, hlast⟩ := map_eq_ok.mp h
  obtain ⟨hmem, hgreatest⟩ := Version.greatest_of_getLast? (pairwise_versions hvs) hlast
  exact ⟨(mem_versions_iff hvs).mp hmem,
    fun name w hw => hgreatest w ((mem_versions_iff hvs).mpr ⟨name, hw⟩)⟩

/-- Where the entries stand in ascending order, the last one is the latest version. -/
theorem latestVersion_of_pairwise {dir : Place} {found : List (Option Version)}
    (hdir : r.tree.findDir (r.pathOf spec.packagePath) = .ok (some dir))
    (hfound : (entryNames r.tree dir).mapM (versionAt r.tree (r.pathOf spec.packagePath)) = .ok found)
    (hsorted : (found.filterMap id).Pairwise fun v w => v.le w = true) :
    r.latestVersion spec.namespaceName spec.name = .ok (found.filterMap id).getLast? := by
  have hvs : r.versions spec.namespaceName spec.name = .ok (found.filterMap id) := by
    refine bind_eq_ok.mpr ⟨some dir, hdir, bind_eq_ok.mpr ⟨found, hfound, ?_⟩⟩
    rw [Version.sort, List.mergeSort_of_pairwise hsorted]
    rfl
  rw [latestVersion, hvs]
  rfl

/-! ## Versions that are listed and had -/

/-- The directory of a version is listed as the version if it has a manifest and the version is listed
for some directory. -/
theorem Lists.render (h : r.Lists spec name v) (hmanifest : r.HasManifest spec v.render) :
    r.Lists spec v.render v := by
  obtain ⟨⟨dir, hdir, hname⟩, -, hparse⟩ := h
  obtain ⟨place, content, hfile⟩ := hmanifest
  obtain ⟨hwalk, -⟩ := Tree.find_eq_some_iff.mp hfile
  obtain ⟨below, _, hbelow, hbehind⟩ := Tree.walk_append hwalk
  obtain ⟨above, _, habove, hversion⟩ := Tree.walk_append hbelow
  -- the walk to the manifest passes through the directory of the package, where it meets an entry
  obtain ⟨hdirWalk, -⟩ := Tree.findDir_eq_some_iff.mp hdir
  obtain rfl := Except.ok.inj (hdirWalk.symm.trans habove)
  obtain ⟨hzero, -⟩ := mem_entryNames.mp hname
  obtain ⟨-, node, hnode⟩ := hversion.exists_node (isStep_version v)
  exact
    { isEntry := ⟨dir, hdir, mem_entryNames.mpr ⟨hzero, node, Tree.mem_entries_of_at?_child hzero hnode⟩⟩
      isDir := ⟨below, Tree.findDir_eq_some_iff.mpr ⟨hbelow, hbehind.isDirAt⟩⟩
      parse_eq := Version.parse_render hparse }

/-- Whether a version is listed for a directory that has a manifest, and whose name has no blanks around
it. -/
def ListsManifest (r : Registry) (spec : Spec) (v : Version) : Prop :=
  ∃ name, r.Lists spec name v ∧ Text.trim name.toList = name.toList ∧ r.HasManifest spec name

/-- Of the versions that are listed, a registry has those that are listed for such a directory. -/
theorem Lists.hasPackage_iff (h : r.Lists spec name v) :
    r.hasPackage (spec.withVersion v) = .ok true ↔ r.ListsManifest spec v := by
  rw [hasPackage_withVersion_iff]
  constructor
  · intro hmanifest
    exact ⟨v.render, h.render hmanifest, v.trim_render, hmanifest⟩
  · rintro ⟨name, hlists, htrim, hmanifest⟩
    have hname : v.render = name := by
      rw [← String.toList_inj, Version.toList_render_of_parse hlists.parse_eq, htrim]
    rwa [hname]

end TypstLint.Registry

/-! ## Registries of regular files

A registry that is a tree of regular files has a version if its manifest is there, and lists one if its
directory is. So what it tells about a package depends on these files and directories alone. -/

namespace TypstLint

open TypstLint.Tree (componentsOf IsName TooLong)

/-- The parts of a specification can be the names of directories. -/
structure Spec.IsStorable (spec : Spec) : Prop where
  namespaceName : IsName spec.namespaceName
  name : IsName spec.name
  version : IsName spec.version.render

/-- The directory with a name in the one of the package. -/
def Spec.dirNamed (spec : Spec) (name : String) : List String := componentsOf spec.packagePath ++ [name]

/-- The manifest in the directory with a name in the one of the package. -/
def Spec.manifestNamed (spec : Spec) (name : String) : List String := spec.dirNamed name ++ ["typst.toml"]

variable {t t' : Tree} {spec : Spec} {name : String} {v : Version}

namespace Spec

theorem dirNamed_ne_nil (spec : Spec) (name : String) : spec.dirNamed name ≠ [] := by
  simp [dirNamed]

theorem IsStorable.componentsOf_packagePath (h : spec.IsStorable) :
    componentsOf spec.packagePath = ["packages", spec.namespaceName, spec.name] := by
  have hpath : spec.packagePath = Tree.pathText ["packages", spec.namespaceName, spec.name] := by
    rw [← String.toList_inj, Tree.toList_pathText]
    simp [packagePath, toString, List.intercalate_cons_cons]
  rw [hpath, Tree.componentsOf_pathText (List.cons_ne_nil _ _)]
  intro c hc
  simp only [List.mem_cons, List.not_mem_nil, or_false] at hc
  rcases hc with rfl | rfl | rfl
  · decide
  · exact h.namespaceName.2.2.2.1
  · exact h.name.2.2.2.1

theorem IsStorable.names (h : spec.IsStorable) : ∀ c ∈ componentsOf spec.packagePath, IsName c := by
  rw [h.componentsOf_packagePath]
  intro c hc
  simp only [List.mem_cons, List.not_mem_nil, or_false] at hc
  rcases hc with rfl | rfl | rfl
  · decide
  · exact h.namespaceName
  · exact h.name

theorem IsStorable.names_dirNamed (h : spec.IsStorable) (hname : IsName name) :
    ∀ c ∈ spec.dirNamed name, IsName c := by
  intro c hc
  rcases List.mem_append.mp hc with hc | hc
  · exact h.names c hc
  · rw [List.mem_singleton.mp hc]
    exact hname

theorem IsStorable.not_tooLong_dirNamed (h : spec.IsStorable) (hname : IsName name) :
    ¬ TooLong (spec.dirNamed name) := by
  refine Tree.not_tooLong (h.names_dirNamed hname) ?_
  simp [dirNamed, h.componentsOf_packagePath]

theorem IsStorable.withVersion (h : spec.IsStorable) (hv : IsName v.render) :
    (spec.withVersion v).IsStorable :=
  ⟨h.namespaceName, h.name, hv⟩

end Spec

/-- A version that is read from the name of a directory can be the name of one. -/
theorem isName_render (h : Version.parse name = .ok v) (hname : IsName name) : IsName v.render := by
  obtain ⟨hempty, hdot, hup⟩ := Registry.isStep_version v
  obtain ⟨front, behind, htext, -⟩ := Text.exists_append_trimWhile Text.isBlank name.toList
  have hrender : v.render.toList = Text.trimWhile Text.isBlank name.toList :=
    Version.toList_render_of_parse h
  have happend : name = String.ofList front ++ v.render ++ String.ofList behind := by
    rw [← String.toList_inj, htext, ← hrender]
    simp
  refine ⟨hempty, hdot, hup, v.notMem_render rfl (by decide), ?_⟩
  have hlength := hname.2.2.2.2
  rw [happend, String.utf8ByteSize_append, String.utf8ByteSize_append] at hlength
  omega

namespace Registry

theorem manifestFile_eq (t : Tree) (spec : Spec) :
    manifestFile ⟨t, []⟩ spec = spec.manifestNamed spec.version.render := by
  have hdir := packageDir_withVersion ⟨t, []⟩ spec spec.version
  exact congrArg (· ++ ["typst.toml"]) hdir

theorem find_manifestFile (h : t.IsCheckout) (hspec : spec.IsStorable) :
    t.find (manifestFile ⟨t, []⟩ spec) =
      .ok ((t.at? ⟨0, spec.manifestNamed spec.version.render⟩).map
        (⟨0, spec.manifestNamed spec.version.render⟩, ·)) := by
  have hnames : ∀ c ∈ spec.manifestNamed spec.version.render, IsName c := by
    intro c hc
    rcases List.mem_append.mp hc with hc | hc
    · exact hspec.names_dirNamed hspec.version c hc
    · rw [List.mem_singleton.mp hc]
      decide
  have hlong : ¬ TooLong (spec.manifestNamed spec.version.render) := by
    refine Tree.not_tooLong hnames ?_
    simp [Spec.manifestNamed, Spec.dirNamed, hspec.componentsOf_packagePath]
  rw [manifestFile_eq, h.find_eq hnames, if_neg hlong]

/-- A version is there if its manifest is. -/
theorem hasPackage_eq (h : t.IsCheckout) (hspec : spec.IsStorable) :
    hasPackage ⟨t, []⟩ spec = .ok (t.fileAt? (spec.manifestNamed spec.version.render)).isSome := by
  rw [hasPackage, find_manifestFile h hspec, Tree.fileAt?]
  cases t.at? ⟨0, spec.manifestNamed spec.version.render⟩ with
  | none => rfl
  | some node => cases node <;> rfl

theorem readManifest_eq (h : t.IsCheckout) (hspec : spec.IsStorable) :
    readManifest ⟨t, []⟩ spec = (t.fileAt? (spec.manifestNamed spec.version.render)).bind fun content =>
      (Text.Utf8.decode? content).map Text.unifyNewlines := by
  rw [readManifest, find_manifestFile h hspec, Tree.fileAt?]
  cases t.at? ⟨0, spec.manifestNamed spec.version.render⟩ with
  | none => rfl
  | some node => cases node <;> rfl

/-! ### Listings -/

theorem isName_of_isDirAt (h : t.IsCheckout) (hdir : t.isDirAt ⟨0, spec.dirNamed name⟩ = true) :
    IsName name :=
  h.isTree.isName_of_at? (Tree.isDirAt_iff.mp hdir) name (by simp [Spec.dirNamed])

theorem findDir_dirNamed (h : t.IsCheckout) (hspec : spec.IsStorable) (hname : IsName name) :
    t.findDir (spec.dirNamed name) =
      .ok (if t.isDirAt ⟨0, spec.dirNamed name⟩ then some ⟨0, spec.dirNamed name⟩ else none) := by
  rw [h.findDir_eq (hspec.names_dirNamed hname), if_neg (hspec.not_tooLong_dirNamed hname)]

theorem findDir_packagePath (h : t.IsCheckout) (hspec : spec.IsStorable) :
    t.findDir (componentsOf spec.packagePath) =
      .ok (if t.isDirAt ⟨0, componentsOf spec.packagePath⟩ then some ⟨0, componentsOf spec.packagePath⟩
        else none) := by
  have hlong : ¬ TooLong (componentsOf spec.packagePath) := by
    refine Tree.not_tooLong hspec.names ?_
    simp [hspec.componentsOf_packagePath]
  rw [h.findDir_eq hspec.names, if_neg hlong]

/-- A version is listed for the directories whose names are read as it. -/
theorem lists_iff (h : t.IsCheckout) (hspec : spec.IsStorable) : Lists ⟨t, []⟩ spec name v ↔
    t.isDirAt ⟨0, spec.dirNamed name⟩ = true ∧ Version.parse name = .ok v := by
  have hpath : pathOf ⟨t, []⟩ spec.packagePath = componentsOf spec.packagePath := List.nil_append _
  constructor
  · rintro ⟨⟨dir, hdir, hname⟩, ⟨place, hplace⟩, hparse⟩
    obtain ⟨-, node, hentry⟩ := mem_entryNames.mp hname
    have hisName := h.names _ hentry name (by simp)
    rw [hpath] at hplace
    have hfound := hplace.symm.trans (findDir_dirNamed h hspec hisName)
    refine ⟨?_, hparse⟩
    by_contra hno
    rw [if_neg hno] at hfound
    cases hfound
  · rintro ⟨hdir, hparse⟩
    have hisName := isName_of_isDirAt h hdir
    have hnode := Tree.isDirAt_iff.mp hdir
    have habove : t.isDirAt ⟨0, componentsOf spec.packagePath⟩ = true :=
      h.isTree.isDirAt_of_append (List.cons_ne_nil name []) hnode
    have hentry := (h.isTree.at?_eq_some_iff (spec.dirNamed_ne_nil name)).mp hnode
    have hpackage : t.findDir (pathOf ⟨t, []⟩ spec.packagePath)
        = .ok (some ⟨0, componentsOf spec.packagePath⟩) := by
      rw [hpath, findDir_packagePath h hspec, if_pos habove]
    have hversion : t.findDir (pathOf ⟨t, []⟩ spec.packagePath ++ [name])
        = .ok (some ⟨0, spec.dirNamed name⟩) := by
      rw [hpath]
      exact (findDir_dirNamed h hspec hisName).trans (congrArg Except.ok (if_pos hdir))
    exact
      { isEntry := ⟨_, hpackage, (mem_entryNames (t := t)).mpr ⟨rfl, _, hentry⟩⟩
        isDir := ⟨_, hversion⟩
        parse_eq := hparse }

/-- The versions of a package can always be listed. -/
theorem exists_versions (h : t.IsCheckout) (hspec : spec.IsStorable) :
    ∃ vs, versions ⟨t, []⟩ spec.namespaceName spec.name = .ok vs := by
  have hdir := findDir_packagePath h hspec
  by_cases hthere : t.isDirAt ⟨0, componentsOf spec.packagePath⟩ = true
  · rw [if_pos hthere] at hdir
    have hversions : ∀ name ∈ entryNames t ⟨0, componentsOf spec.packagePath⟩,
        versionAt t (componentsOf spec.packagePath) name =
          .ok (if t.isDirAt ⟨0, spec.dirNamed name⟩ then (Version.parse name).toOption else none) := by
      intro name hname
      obtain ⟨-, node, hentry⟩ := mem_entryNames.mp hname
      have hisName := h.names _ hentry name (by simp)
      have hfound : t.findDir (componentsOf spec.packagePath ++ [name]) = _ :=
        findDir_dirNamed h hspec hisName
      rw [versionAt, hfound]
      split_ifs <;> rfl
    exact ⟨_, bind_eq_ok.mpr ⟨_, hdir, bind_eq_ok.mpr ⟨_, mapM_eq_ok hversions, rfl⟩⟩⟩
  · rw [if_neg hthere] at hdir
    exact ⟨[], bind_eq_ok.mpr ⟨none, hdir, rfl⟩⟩

/-- The greatest version of some kind is the same if the directories whose names are read as versions of
the kind are the same. -/
theorem lastVersion_congr (p : Version → Bool) (h : t.IsCheckout) (h' : t'.IsCheckout)
    (hspec : spec.IsStorable)
    (hdirs : ∀ name v, Version.parse name = .ok v → p v = true →
      t.isDirAt ⟨0, spec.dirNamed name⟩ = t'.isDirAt ⟨0, spec.dirNamed name⟩) :
    ∃ vs ws, versions ⟨t, []⟩ spec.namespaceName spec.name = .ok vs
      ∧ versions ⟨t', []⟩ spec.namespaceName spec.name = .ok ws
      ∧ (vs.filter p).getLast? = (ws.filter p).getLast? := by
  obtain ⟨vs, hvs⟩ := exists_versions h hspec
  obtain ⟨ws, hws⟩ := exists_versions h' hspec
  refine ⟨vs, ws, hvs, hws, Version.getLast?_eq_of_mem_iff ((pairwise_versions hvs).filter p)
    ((pairwise_versions hws).filter p) fun v => ?_⟩
  rw [List.mem_filter, List.mem_filter, mem_versions_iff hvs, mem_versions_iff hws]
  simp only [lists_iff h hspec, lists_iff h' hspec]
  refine and_congr_left fun hp => exists_congr fun name => and_congr_left fun hparse => ?_
  rw [hdirs name v hparse hp]

theorem latestVersion_congr (h : t.IsCheckout) (h' : t'.IsCheckout) (hspec : spec.IsStorable)
    (hdirs : ∀ name, t.isDirAt ⟨0, spec.dirNamed name⟩ = t'.isDirAt ⟨0, spec.dirNamed name⟩) :
    latestVersion ⟨t, []⟩ spec.namespaceName spec.name
      = latestVersion ⟨t', []⟩ spec.namespaceName spec.name := by
  obtain ⟨vs, ws, hvs, hws, hlast⟩ :=
    lastVersion_congr (fun _ => true) h h' hspec fun name _ _ _ => hdirs name
  rw [List.filter_true, List.filter_true] at hlast
  rw [latestVersion, latestVersion, hvs, hws]
  exact congrArg Except.ok hlast

/-- What the version before is does not depend on the directory of the version itself. -/
theorem previousVersion_congr (h : t.IsCheckout) (h' : t'.IsCheckout) (hspec : spec.IsStorable)
    (hdirs : ∀ name, name ≠ spec.version.render →
      t.isDirAt ⟨0, spec.dirNamed name⟩ = t'.isDirAt ⟨0, spec.dirNamed name⟩) :
    previousVersion ⟨t, []⟩ spec = previousVersion ⟨t', []⟩ spec := by
  -- a name that is read as another version is another name
  have hother (name : String) (v : Version) (hparse : Version.parse name = .ok v)
      (hv : (v != spec.version) = true) : name ≠ spec.version.render := by
    intro hname
    have hrender := Version.toList_render_of_parse hparse
    rw [hname, Version.trim_render, String.toList_inj] at hrender
    exact bne_iff_ne.mp hv (Version.render_inj hrender)
  obtain ⟨vs, ws, hvs, hws, hlast⟩ :=
    lastVersion_congr (· != spec.version) h h' hspec fun name v hparse hv =>
      hdirs name (hother name v hparse hv)
  rw [previousVersion, previousVersion, hvs, hws]
  exact congrArg (fun v? => Except.ok (Option.map spec.withVersion v?)) hlast

/-- The version before is another version, and can be stored. -/
theorem exists_of_previousVersion {previous : Spec} (h : t.IsCheckout) (hspec : spec.IsStorable)
    (hprevious : previousVersion ⟨t, []⟩ spec = .ok (some previous)) :
    ∃ v, (spec.withVersion v).IsStorable ∧ v ≠ spec.version ∧ previous = spec.withVersion v := by
  obtain ⟨vs, hvs, hlast⟩ := map_eq_ok.mp hprevious
  obtain ⟨v, hv, rfl⟩ := Option.map_eq_some_iff.mp hlast
  obtain ⟨hmem, hne⟩ := List.mem_filter.mp (List.mem_of_getLast? hv)
  obtain ⟨name, hlists⟩ := (mem_versions_iff hvs).mp hmem
  obtain ⟨hdir, hparse⟩ := (lists_iff h hspec).mp hlists
  have hname := isName_render hparse (isName_of_isDirAt h hdir)
  exact ⟨v, hspec.withVersion hname, bne_iff_ne.mp hne, rfl⟩

end Registry

end TypstLint
