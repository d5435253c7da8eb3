import TypstLint.Proofs.Check.Registries
import TypstLint.Proofs.Delivery.Overlay
import TypstLint.Proofs.Registry

set_option autoImplicit false

/-! # Overlays of pull requests

With the changes of a pull request laid over it, the directory of a version gives the same package as the
directory in the tree into which the pull request was merged (`Merges.load_eq`). A check asks for more than
that: for the versions of imported packages and for the version before. It is the check of the merged tree
if the changes do not matter for that (`checkRegistryPackage_overlay_eq`), as is the case if they keep the
directories of imported packages and those of the other versions (`Merges.agreesFor`). A pull request that
adds a package together with one that imports it shows that the condition is needed
(`checkRegistryPackage_overlay_ne_second`). -/

namespace TypstLint

open TypstLint.Tree (componentsOf IsName TooLong)

namespace Delivery

open GitHub (ChangedFile)

variable {t t' : Tree} {spec : Spec} {changes : List ChangedFile} {head : String → ByteArray}
  {path inner : String}

/-! ## Overlays -/

theorem addChange_of_plain {overlay : List (String × Option String)} {f : ChangedFile}
    (h : f.previousFilename = none) :
    addChange spec overlay f = match relative? spec f.filename with
      | some path => Assoc.set overlay path (if f.isRemoved then none else some f.filename)
      | none => overlay := by
  rw [addChange, h]
  rfl

/-- A change has the last word on the path of its file. -/
theorem lookup_addChange {overlay : List (String × Option String)} {f : ChangedFile}
    (h : f.previousFilename = none) (inner : String) :
    (addChange spec overlay f).lookup inner =
      if f.filename = spec.registryPath ++ "/" ++ inner then
        some (if f.isRemoved then none else some f.filename)
      else overlay.lookup inner := by
  rw [addChange_of_plain h]
  split
  · next path hpath =>
    rw [Assoc.lookup_set]
    by_cases hinner : inner = path
    · subst hinner
      rw [if_pos (beq_self_eq_true inner), if_pos (relative?_eq_some_iff.mp hpath)]
    · have hname : f.filename ≠ spec.registryPath ++ "/" ++ inner := fun hname =>
        hinner (Option.some.inj ((relative?_eq_some_iff.mpr hname).symm.trans hpath))
      rw [if_neg (mt beq_iff_eq.mp hinner), if_neg hname]
  · next hnone =>
    have hname : f.filename ≠ spec.registryPath ++ "/" ++ inner := fun hname =>
      absurd ((relative?_eq_some_iff.mpr hname).symm.trans hnone) (Option.some_ne_none inner)
    rw [if_neg hname]

/-- An overlay names each path once. -/
theorem nodup_overlayOf (h : ∀ f ∈ changes, f.previousFilename = none) :
    ((overlayOf spec changes).map Prod.fst).Nodup := by
  induction changes using List.reverseRecOn with
  | nil => exact List.nodup_nil
  | append_singleton changes f ih =>
    have hchanges := ih fun g hg => h g (List.mem_append_left _ hg)
    rw [overlayOf_append_singleton, addChange_of_plain (h f (by simp))]
    split
    · exact Assoc.nodup_set hchanges
    · exact hchanges

/-- What an overlay says about a path comes from a change of the file with the path. -/
theorem lookup_overlayOf (h : ∀ f ∈ changes, f.previousFilename = none) (spec : Spec) (inner : String) :
    match (overlayOf spec changes).lookup inner with
    | some remote? => ∃ f ∈ changes, f.filename = spec.registryPath ++ "/" ++ inner
        ∧ remote? = if f.isRemoved then none else some f.filename
    | none => ∀ f ∈ changes, f.filename ≠ spec.registryPath ++ "/" ++ inner := by
  induction changes using List.reverseRecOn with
  | nil => simp [overlayOf]
  | append_singleton changes f ih =>
    have hchanges := ih fun g hg => h g (List.mem_append_left _ hg)
    rw [overlayOf_append_singleton, lookup_addChange (h f (by simp))]
    by_cases hname : f.filename = spec.registryPath ++ "/" ++ inner
    · rw [if_pos hname]
      exact ⟨f, by simp, hname, rfl⟩
    · rw [if_neg hname]
      -- the change is of another file, so what is said comes from the changes before it
      split at hchanges
      · obtain ⟨g, hg, hgname, hremote⟩ := hchanges
        exact ⟨g, List.mem_append_left _ hg, hgname, hremote⟩
      · intro g hg
        rcases List.mem_append.mp hg with hg | hg
        · exact hchanges g hg
        · exact List.mem_singleton.mp hg ▸ hname

/-- An overlay with the contents of the files that it names. -/
def withContents (head : String → ByteArray) (overlay : List (String × Option String)) : Overlay :=
  overlay.map fun (path, remote?) => (path, remote?.map head)

/-- The tree `t'` is the tree `t` with changes that add, modify or remove files: the changed files are as
in `head`, and all others as before. -/
structure Merges (t : Tree) (changes : List ChangedFile) (head : String → ByteArray) (t' : Tree) :
    Prop where
  changed : ∀ f ∈ changes,
    t'.fileAt? (componentsOf f.filename) = if f.isRemoved then none else some (head f.filename)
  unchanged : ∀ path, (∀ f ∈ changes, f.filename ≠ path) →
    t'.fileAt? (componentsOf path) = t.fileAt? (componentsOf path)

/-- The paths of the changed files, by their components. -/
def changedParts (changes : List ChangedFile) : List (List String) :=
  changes.map fun f => componentsOf f.filename

/-- Only the entries of the trees have to be compared. -/
theorem merges_of_entries
    (hchanged : ∀ f ∈ changes,
      t'.fileAt? (componentsOf f.filename) = if f.isRemoved then none else some (head f.filename))
    (hentries : ∀ entry ∈ t.entries ++ t'.entries, entry.1 ∉ changedParts changes →
      t'.fileAt? entry.1 = t.fileAt? entry.1) : Merges t changes head t' := by
  refine ⟨hchanged, fun path hpath => ?_⟩
  by_cases hmem : ∃ entry ∈ t.entries ++ t'.entries, entry.1 = componentsOf path
  · obtain ⟨entry, hentry, heq⟩ := hmem
    rw [← heq]
    refine hentries entry hentry fun hchange => ?_
    obtain ⟨f, hf, hname⟩ := List.mem_map.mp hchange
    exact hpath f hf (Tree.componentsOf_inj (hname.trans heq))
  · have hnone (entry) (hentry : entry ∈ t.entries ++ t'.entries) : entry.1 ≠ componentsOf path :=
      fun heq => hmem ⟨entry, hentry, heq⟩
    rw [Tree.fileAt?_eq_none fun entry hentry => hnone entry (List.mem_append_left _ hentry),
      Tree.fileAt?_eq_none fun entry hentry => hnone entry (List.mem_append_right _ hentry)]

/-- A file of the merged tree is as the overlay says, or as before where the overlay says nothing. -/
theorem Merges.getD_lookup (h : Merges t changes head t')
    (hplain : ∀ f ∈ changes, f.previousFilename = none) (spec : Spec) (inner : String) :
    ((withContents head (overlayOf spec changes)).lookup inner).getD
        (t.fileAt? (componentsOf spec.registryPath ++ componentsOf inner))
      = t'.fileAt? (componentsOf spec.registryPath ++ componentsOf inner) := by
  have hlookup := lookup_overlayOf hplain spec inner
  rw [withContents, Assoc.lookup_map_value, ← Tree.componentsOf_append]
  split at hlookup
  · next remote? hfound =>
    obtain ⟨f, hf, hname, rfl⟩ := hlookup
    rw [hfound, Option.map_some, Option.getD_some, ← hname, h.changed f hf]
    split <;> rfl
  · next hnone =>
    rw [hnone, Option.map_none, Option.getD_none, h.unchanged _ hlookup]

/-- The package of a version is the same in the merged tree and in the overlaid one. -/
theorem Merges.load_eq (h : Merges t changes head t') (ht : t.IsCheckout) (ht' : t'.IsCheckout)
    (hplain : ∀ f ∈ changes, f.previousFilename = none)
    (hfile : ∃ inner, (t'.fileAt? (componentsOf (spec.registryPath ++ "/" ++ inner))).isSome) :
    (⟨t, []⟩ : Registry).load spec (some (withContents head (overlayOf spec changes)))
      = (⟨t', []⟩ : Registry).load spec none := by
  obtain ⟨inner, hsome⟩ := hfile
  obtain ⟨content, hfile⟩ := Option.isSome_iff_exists.mp hsome
  have hinner := Tree.componentsOf_ne_nil inner
  rw [Tree.componentsOf_append] at hfile
  have hnode := Tree.fileAt?_eq_some_iff.mp hfile
  have hnames : ∀ c ∈ componentsOf spec.registryPath, IsName c := fun c hc =>
    ht'.isTree.isName_of_at? hnode c (List.mem_append_left _ hc)
  by_cases hlong : TooLong (componentsOf spec.registryPath)
  · rw [Registry.load_tooLong ht hnames hlong, Registry.load_tooLong ht' hnames hlong]
  · have honce : ((withContents head (overlayOf spec changes)).map Prod.fst).Nodup := by
      rw [withContents, List.map_map]
      exact nodup_overlayOf hplain
    have hthere : t.isDirAt ⟨0, componentsOf spec.registryPath⟩ = true
        ∨ withContents head (overlayOf spec changes) ≠ [] := by
      -- without changes in it, the directory has the file already
      refine or_iff_not_imp_right.mpr fun hempty => ?_
      have hget := h.getD_lookup hplain spec inner
      rw [not_ne_iff.mp hempty, List.lookup_nil, Option.getD_none, hfile] at hget
      exact ht.isTree.isDirAt_of_append hinner (Tree.fileAt?_eq_some_iff.mp hget)
    obtain ⟨fs, hload, hlinks, hcontent⟩ :=
      Registry.load_spec (some (withContents head (overlayOf spec changes))) ht hnames hlong hthere honce
    obtain ⟨fs', hload', hlinks', hcontent'⟩ := Registry.load_spec none ht' hnames hlong
      (.inl (ht'.isTree.isDirAt_of_append hinner hnode)) List.nodup_nil
    have hfs : fs = fs' := by
      refine FileSet.ext_content? (fun path => ?_) (hlinks.trans hlinks'.symm)
      rw [hcontent, hcontent', Option.getD_some, Option.getD_none, List.lookup_nil, Option.getD_none,
        h.getD_lookup hplain spec path]
    rw [hload, hload', hfs]

/-! ## What the changes keep -/

/-- Where no changed file is, the merged tree is as before. -/
theorem Merges.fileAt?_eq {components : List String} (h : Merges t changes head t') (ht : t.IsCheckout)
    (ht' : t'.IsCheckout) (hcomponents : components ∉ changedParts changes) :
    t.fileAt? components = t'.fileAt? components := by
  by_cases hpath : components ≠ [] ∧ ∀ c ∈ components, IsName c
  · obtain ⟨hne, hnames⟩ := hpath
    have htext := Tree.componentsOf_pathText hne fun c hc => (hnames c hc).2.2.2.1
    have hsame := h.unchanged (Tree.pathText components) fun f hf hname =>
      hcomponents (List.mem_map.mpr ⟨f, hf, by rw [hname, htext]⟩)
    rw [htext] at hsame
    exact hsame.symm
  · -- no entry is there, whatever is changed
    have hnone {t : Tree} (ht : t.IsCheckout) : t.fileAt? components = none :=
      Tree.fileAt?_eq_none fun entry hentry heq =>
        hpath (heq ▸ ⟨ht.ne_root entry hentry, ht.names entry hentry⟩)
    rw [hnone ht, hnone ht']

/-- The changes keep a directory of a package as a registry sees it: none of them is in the directory, or
there is a manifest in it, which is not changed. -/
def Keeps (t : Tree) (changes : List ChangedFile) (spec : Spec) (name : String) : Prop :=
  (∀ parts ∈ changedParts changes, ¬ spec.dirNamed name <+: parts)
  ∨ (t.fileAt? (spec.manifestNamed name)).isSome = true
    ∧ spec.manifestNamed name ∉ changedParts changes

section

variable {name : String}

/-- If all changes in a package are in one directory of it, they keep the others. -/
theorem keeps_of_ne {other : String}
    (h : ∀ parts ∈ changedParts changes, componentsOf spec.packagePath <+: parts →
      spec.dirNamed other <+: parts)
    (hne : name ≠ other) : Keeps t changes spec name := by
  refine .inl fun parts hparts hname => hne ?_
  have hother := h parts hparts ((List.prefix_append _ _).trans hname)
  have hlength : (spec.dirNamed name).length = (spec.dirNamed other).length := by
    simp [Spec.dirNamed]
  have hdir : spec.dirNamed name = spec.dirNamed other :=
    (List.prefix_of_prefix_length_le hname hother hlength.le).eq_of_length hlength
  simpa [Spec.dirNamed] using hdir

theorem Merges.manifest_eq (h : Merges t changes head t') (ht : t.IsCheckout) (ht' : t'.IsCheckout)
    (hkeeps : Keeps t changes spec name) :
    t.fileAt? (spec.manifestNamed name) = t'.fileAt? (spec.manifestNamed name) := by
  refine h.fileAt?_eq ht ht' ?_
  rcases hkeeps with hnone | ⟨-, hmanifest⟩
  · intro hmem
    exact hnone _ hmem (List.prefix_append _ _)
  · exact hmanifest

theorem Merges.isDirAt_eq (h : Merges t changes head t') (ht : t.IsCheckout) (ht' : t'.IsCheckout)
    (hfull : t.IsFull) (hfull' : t'.IsFull) (hkeeps : Keeps t changes spec name) :
    t.isDirAt ⟨0, spec.dirNamed name⟩ = t'.isDirAt ⟨0, spec.dirNamed name⟩ := by
  rw [Bool.eq_iff_iff, ht.isDirAt_iff_exists hfull (spec.dirNamed_ne_nil name),
    ht'.isDirAt_iff_exists hfull' (spec.dirNamed_ne_nil name)]
  rcases hkeeps with hnone | ⟨hmanifest, hchanges⟩
  · -- all files of the directory are as before
    refine exists_congr fun inner => and_congr_right fun hinner => ?_
    rw [h.fileAt?_eq ht ht' fun hmem => hnone _ hmem (List.prefix_append _ _)]
  · -- the manifest is a file of the directory in both trees
    have hmanifest' : (t'.fileAt? (spec.manifestNamed name)).isSome = true := by
      rwa [← h.fileAt?_eq ht ht' hchanges]
    exact iff_of_true ⟨_, List.cons_ne_nil _ _, hmanifest⟩ ⟨_, List.cons_ne_nil _ _, hmanifest'⟩

end

/-- The changes keep what the check of a package asks about: the directories of the packages that it
imports, and those of its own other versions. -/
structure KeepsFor (t : Tree) (changes : List ChangedFile) (p : Package) : Prop where
  storable : ∀ spec, p.Imports spec ∨ p.spec = some spec → spec.IsStorable
  imported : ∀ spec, p.Imports spec → ∀ name, Keeps t changes spec name
  others : ∀ spec, p.spec = some spec → ∀ name, name ≠ spec.version.render → Keeps t changes spec name

/-- The tree before the changes and the merged one give the same answers to the check of a package, if the
changes keep what it asks about. -/
theorem Merges.agreesFor {p : Package} (h : Merges t changes head t') (ht : t.IsCheckout)
    (ht' : t'.IsCheckout) (hfull : t.IsFull) (hfull' : t'.IsFull) (hkeeps : KeepsFor t changes p) :
    Registry.AgreesFor ⟨t, []⟩ ⟨t', []⟩ p where
  found spec himports := by
    have hspec := hkeeps.storable spec (.inl himports)
    rw [Registry.hasPackage_eq ht hspec, Registry.hasPackage_eq ht' hspec,
      h.manifest_eq ht ht' (hkeeps.imported spec himports _)]
  latest spec himports _ := by
    have hspec := hkeeps.storable spec (.inl himports)
    refine Registry.latestVersion_congr ht ht' hspec fun name => ?_
    exact h.isDirAt_eq ht ht' hfull hfull' (hkeeps.imported spec himports name)
  previous _ spec hown := by
    have hspec := hkeeps.storable spec (.inr hown)
    refine Registry.previousVersion_congr ht ht' hspec fun name hname => ?_
    exact h.isDirAt_eq ht ht' hfull hfull' (hkeeps.others spec hown name hname)
  before _ spec hown previous hprevious := by
    have hspec := hkeeps.storable spec (.inr hown)
    obtain ⟨v, hstorable, hne, rfl⟩ := Registry.exists_of_previousVersion ht hspec hprevious
    have hmanifest := h.manifest_eq ht ht'
      (hkeeps.others spec hown v.render fun heq => hne (Version.render_inj heq))
    rw [Registry.readManifest_eq ht hstorable, Registry.readManifest_eq ht' hstorable]
    exact congrArg (Option.bind · _) hmanifest

/-! ## Checking pull requests -/

/-- Checks a version of a registry, and asks another registry for what is not in the version itself. -/
def checkAsking (files answers : Registry) (spec : Spec) (publication : Bool) :
    Except Fault CheckResult := do
  match ← files.load spec none with
  | none => return ⟨⟨.empty, none, some spec⟩, {}, notFoundReport spec⟩
  | some files => check files { spec, registry := answers, publication }

theorem checkRegistryPackage_eq_checkAsking {r files : Registry} {overlay : Option Overlay}
    (h : r.load spec overlay = files.load spec none) (publication : Bool) :
    checkRegistryPackage r spec overlay publication = checkAsking files r spec publication := by
  cases hload : files.load spec none with
  | error fault => simp only [checkRegistryPackage, checkAsking, h, hload, bind, Except.bind]
  | ok loaded =>
    cases loaded with
    | none | some fs => simp only [checkRegistryPackage, checkAsking, h, hload, bind, Except.bind]

theorem checkAsking_congr {files r r' : Registry} {publication : Bool}
    (h : ∀ fs, files.load spec none = .ok (some fs) →
      r.AgreesFor r' ⟨fs, (Manifest.load fs).manifest, some spec⟩) :
    checkAsking files r spec publication = checkAsking files r' spec publication := by
  cases hload : files.load spec none with
  | error fault => simp only [checkAsking, hload, bind, Except.bind]
  | ok loaded =>
    cases loaded with
    | none => simp only [checkAsking, hload, bind, Except.bind]
    | some fs =>
      simp only [checkAsking, hload, bind, Except.bind]
      exact check_congr_registry { spec, publication } rfl (h fs hload)

/-- To check a version of a registry with the changes of a pull request laid over it is to check the
files of the merged tree, and to ask the registry as it was for all else. If the merged tree gives the
same answers, it is to check the merged tree. -/
theorem checkRegistryPackage_overlay_eq (ht : t.IsCheckout) (ht' : t'.IsCheckout)
    (hplain : ∀ f ∈ changes, f.previousFilename = none) (hmerges : Merges t changes head t')
    (hfile : ∃ inner, (t'.fileAt? (componentsOf (spec.registryPath ++ "/" ++ inner))).isSome)
    (publication : Bool) :
    checkRegistryPackage ⟨t, []⟩ spec (some (withContents head (overlayOf spec changes))) publication
      = checkAsking ⟨t', []⟩ ⟨t, []⟩ spec publication
    ∧ ((∀ fs, Registry.load ⟨t', []⟩ spec none = .ok (some fs) →
          Registry.AgreesFor ⟨t, []⟩ ⟨t', []⟩ ⟨fs, (Manifest.load fs).manifest, some spec⟩) →
        checkRegistryPackage ⟨t, []⟩ spec (some (withContents head (overlayOf spec changes)))
            publication
          = checkRegistryPackage ⟨t', []⟩ spec none publication) := by
  have hload := hmerges.load_eq ht ht' hplain hfile
  refine ⟨checkRegistryPackage_eq_checkAsking hload publication, fun hagrees => ?_⟩
  rw [checkRegistryPackage_eq_checkAsking hload, checkRegistryPackage_eq_checkAsking rfl]
  exact checkAsking_congr hagrees

/-! ## Two new packages -/

/-- The manifest of a package in its first version. -/
def manifestOf (name : String) : ByteArray :=
  s!"[package]\nname = \"{name}\"\nversion = \"1.0.0\"\nentrypoint = \"lib.typ\"\n".toUTF8

/-- A registry with one package. -/
def baseTree : Tree where
  entries :=
    [(["packages"], .dir),
     (["packages", "preview"], .dir),
     (["packages", "preview", "base"], .dir),
     (["packages", "preview", "base", "1.0.0"], .dir),
     (["packages", "preview", "base", "1.0.0", "typst.toml"], .file (manifestOf "base")),
     (["packages", "preview", "base", "1.0.0", "old.typ"], .file "".toUTF8)]

/-- Changes that add two packages and remove a file. -/
def addedChanges : List ChangedFile :=
  [⟨"packages/preview/first/1.0.0/typst.toml", "added", none⟩,
   ⟨"packages/preview/first/1.0.0/lib.typ", "added", none⟩,
   ⟨"packages/preview/second/1.0.0/typst.toml", "added", none⟩,
   ⟨"packages/preview/second/1.0.0/lib.typ", "added", none⟩,
   ⟨"packages/preview/base/1.0.0/old.typ", "removed", none⟩]

/-- The files that are added: the first package imports the one that was there, and the second package
imports the first. -/
def addedFiles : List (String × ByteArray) :=
  [("packages/preview/first/1.0.0/typst.toml", manifestOf "first"),
   ("packages/preview/first/1.0.0/lib.typ", "#import \"@preview/base:1.0.0\": f".toUTF8),
   ("packages/preview/second/1.0.0/typst.toml", manifestOf "second"),
   ("packages/preview/second/1.0.0/lib.typ", "#import \"@preview/first:1.0.0\": f".toUTF8)]

/-- The contents of the files that are added. -/
def addedContent (path : String) : ByteArray := (addedFiles.lookup path).getD .empty

/-- The registry with the changes. -/
def grownTree : Tree where
  entries :=
    [(["packages"], .dir),
     (["packages", "preview"], .dir),
     (["packages", "preview", "base"], .dir),
     (["packages", "preview", "base", "1.0.0"], .dir),
     (["packages", "preview", "base", "1.0.0", "typst.toml"], .file (manifestOf "base")),
     (["packages", "preview", "first"], .dir),
     (["packages", "preview", "first", "1.0.0"], .dir),
     (["packages", "preview", "first", "1.0.0", "typst.toml"], .file (manifestOf "first")),
     (["packages", "preview", "first", "1.0.0", "lib.typ"],
       .file "#import \"@preview/base:1.0.0\": f".toUTF8),
     (["packages", "preview", "second"], .dir),
     (["packages", "preview", "second", "1.0.0"], .dir),
     (["packages", "preview", "second", "1.0.0", "typst.toml"], .file (manifestOf "second")),
     (["packages", "preview", "second", "1.0.0", "lib.typ"],
       .file "#import \"@preview/first:1.0.0\": f".toUTF8)]

/-- The package that was there. -/
def baseSpec : Spec := ⟨"preview", "base", ⟨1, 0, 0⟩⟩

/-- The first of the new packages. -/
def firstSpec : Spec := ⟨"preview", "first", ⟨1, 0, 0⟩⟩

/-- The second of the new packages. -/
def secondSpec : Spec := ⟨"preview", "second", ⟨1, 0, 0⟩⟩

theorem isCheckout_baseTree : baseTree.IsCheckout := by decide

theorem isCheckout_grownTree : grownTree.IsCheckout := by decide

theorem changedParts_addedChanges : changedParts addedChanges =
    [["packages", "preview", "first", "1.0.0", "typst.toml"],
     ["packages", "preview", "first", "1.0.0", "lib.typ"],
     ["packages", "preview", "second", "1.0.0", "typst.toml"],
     ["packages", "preview", "second", "1.0.0", "lib.typ"],
     ["packages", "preview", "base", "1.0.0", "old.typ"]] := by
  rfl

theorem merges_grown : Merges baseTree addedChanges addedContent grownTree :=
  merges_of_entries (by decide) (by rw [changedParts_addedChanges]; decide +kernel)

/-- The first package imports the one that was there. -/
theorem edges_first : (Registry.load ⟨grownTree, []⟩ firstSpec none).map (·.map fun fs =>
      (ImportGraph.build ⟨⟨fs, (Manifest.load fs).manifest, some firstSpec⟩, some ⟨baseTree, []⟩,
        fs.outlines⟩).toOption.map (·.edges.map (·.resolution)))
    = .ok (some (some [.package baseSpec .found])) := by
  decide +kernel

/-- The changes remove a file of the package that was there, but not its manifest. -/
theorem keeps_base (name : String) : Keeps baseTree addedChanges baseSpec name := by
  by_cases hname : name = baseSpec.version.render
  · rw [hname]
    refine .inr ⟨by decide, ?_⟩
    rw [changedParts_addedChanges]
    decide
  · refine keeps_of_ne ?_ hname
    rw [changedParts_addedChanges]
    decide

/-- Of the first package they add one version. -/
theorem keeps_first {name : String} (hname : name ≠ firstSpec.version.render) :
    Keeps baseTree addedChanges firstSpec name := by
  refine keeps_of_ne ?_ hname
  rw [changedParts_addedChanges]
  decide

/-- The changes do not matter for what the check of the first package asks. -/
theorem agreesFor_first {fs : FileSet}
    (hload : Registry.load ⟨grownTree, []⟩ firstSpec none = .ok (some fs)) :
    Registry.AgreesFor ⟨baseTree, []⟩ ⟨grownTree, []⟩
      ⟨fs, (Manifest.load fs).manifest, some firstSpec⟩ := by
  have hedges := edges_first
  rw [hload] at hedges
  have himports (spec) (h : Package.Imports ⟨fs, (Manifest.load fs).manifest, some firstSpec⟩ spec) :
      spec = baseSpec := by
    cases hbuild : ImportGraph.build ⟨⟨fs, (Manifest.load fs).manifest, some firstSpec⟩,
        some ⟨baseTree, []⟩, fs.outlines⟩ with
    | error fault => simp [hbuild, Except.map, Except.toOption] at hedges
    | ok g =>
      have hall : g.edges.map (·.resolution) = [.package baseSpec .found] := by
        simpa [hbuild, Except.map, Except.toOption] using hedges
      obtain ⟨e, he, status, hresolution⟩ := (ImportGraph.imports_iff hbuild).mp h
      have hmem : e.resolution ∈ g.edges.map (·.resolution) := List.mem_map_of_mem he
      rw [hall, hresolution, List.mem_singleton] at hmem
      exact (Resolution.package.inj hmem).1
  refine merges_grown.agreesFor isCheckout_baseTree isCheckout_grownTree (by decide)
    (by decide)
    { storable := ?storable
      imported := ?imported
      others := ?others }
  case storable =>
    intro spec h
    rcases h with h | h
    · rw [himports spec h]
      exact ⟨by decide, by decide, by decide⟩
    · rw [← Option.some.inj h]
      exact ⟨by decide, by decide, by decide⟩
  case imported =>
    intro spec h name
    rw [himports spec h]
    exact keeps_base name
  case others =>
    intro spec h name hname
    rw [← Option.some.inj h] at hname ⊢
    exact keeps_first hname

/-- The first of two new packages is checked as if the changes were merged. -/
theorem checkRegistryPackage_overlay_eq_first :
    baseTree.IsCheckout ∧ grownTree.IsCheckout ∧ Merges baseTree addedChanges addedContent grownTree
    ∧ checkRegistryPackage ⟨baseTree, []⟩ firstSpec
        (some (withContents addedContent (overlayOf firstSpec addedChanges))) true
      = checkRegistryPackage ⟨grownTree, []⟩ firstSpec none true :=
  ⟨isCheckout_baseTree, isCheckout_grownTree, merges_grown,
    (checkRegistryPackage_overlay_eq isCheckout_baseTree isCheckout_grownTree (by decide) merges_grown
      ⟨"lib.typ", by decide⟩ true).2 fun _ => agreesFor_first⟩

/-- The second of two new packages imports the first, which is not in the registry before the changes are
merged: its check is not that of the merged tree. -/
theorem checkRegistryPackage_overlay_ne_second :
    ¬ ∀ (t t' : Tree) (changes : List ChangedFile) (head : String → ByteArray) (spec : Spec)
        (publication : Bool),
      t.IsCheckout → t'.IsCheckout → Merges t changes head t' →
      (∀ f ∈ changes, f.previousFilename = none
        ∧ "packages/".toList.isPrefixOf f.filename.toList = true) →
      (changes.map (·.filename)).Nodup → (∃ f ∈ changes, placeOf f.filename = .ok (.package spec)) →
      (∃ inner, (t'.fileAt? (componentsOf (spec.registryPath ++ "/" ++ inner))).isSome) →
      (checkRegistryPackage ⟨t, []⟩ spec (some (withContents head (overlayOf spec changes)))
          publication).map (·.report)
        = (checkRegistryPackage ⟨t', []⟩ spec none publication).map (·.report) := by
  intro h
  have hsame := h baseTree grownTree addedChanges addedContent secondSpec false isCheckout_baseTree
    isCheckout_grownTree merges_grown (by decide) (by decide) (by decide)
    ⟨"lib.typ", by decide⟩
  have hmissing : ((checkRegistryPackage ⟨baseTree, []⟩ secondSpec
      (some (withContents addedContent (overlayOf secondSpec addedChanges))) false).map (·.report)).map
        (·.verdict) = .ok "fail" := by
    decide +kernel
  have hfound : ((checkRegistryPackage ⟨grownTree, []⟩ secondSpec none false).map (·.report)).map
      (·.verdict) = .ok "pass" := by
    decide +kernel
  rw [hsame, hfound] at hmissing
  exact absurd hmissing (by decide)

end Delivery

end TypstLint
