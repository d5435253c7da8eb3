import TypstLint.Manifest.Load
import TypstLint.Proofs.Package.FileSet
import TypstLint.Proofs.Text.Path

set_option autoImplicit false

/-! # The files of a template

The paths of a manifest are made of names, however they are spelled. So the entrypoint of a template lies in
the directory of the template, as a text as well, unless this directory is the package itself: its path
is `.`, and no other path starts with it (`template_found_iff`). -/

namespace TypstLint.Manifest

open Text.Path (IsName ofNames)

/-! ## Checked values -/

namespace Checked

variable {α β : Type} {a : α} {b : β}

theorem map_eq_valid_iff {f : α → β} {x : Checked α} : f <$> x = .valid b ↔ ∃ a, x = .valid a ∧ f a = b := by
  cases x with
  | valid a =>
    constructor
    · intro h
      exact ⟨a, rfl, Checked.valid.inj h⟩
    · rintro ⟨_, h, rfl⟩
      rw [Checked.valid.inj h]
      rfl
  | invalid problems => exact iff_of_false nofun nofun

theorem seq_eq_valid_iff {f : Checked (α → β)} {x : Checked α} :
    f <*> x = .valid b ↔ ∃ g a, f = .valid g ∧ x = .valid a ∧ g a = b := by
  cases f with
  | valid g =>
    have hmap : (.valid g : Checked (α → β)) <*> x = g <$> x := rfl
    rw [hmap, map_eq_valid_iff]
    constructor
    · rintro ⟨a, ha, heq⟩
      exact ⟨g, a, rfl, ha, heq⟩
    · rintro ⟨g', a, hg, ha, heq⟩
      exact ⟨a, ha, by rwa [Checked.valid.inj hg]⟩
  | invalid problems =>
    cases x with
    | valid | invalid => exact iff_of_false nofun nofun

theorem andThen_eq_valid_iff {f : α → Checked β} {x : Checked α} :
    x.andThen f = .valid b ↔ ∃ a, x = .valid a ∧ f a = .valid b := by
  cases x with
  | valid a =>
    constructor
    · exact fun h => ⟨a, rfl, h⟩
    · rintro ⟨_, h, hf⟩
      rwa [Checked.valid.inj h]
  | invalid problems => exact iff_of_false nofun nofun

end Checked

/-! ## Paths -/

variable {text : List Char} {m : Manifest} {t : TemplateInfo} {members : List (String × Toml.Value)}
  {fs : FileSet} {names names' : List (List Char)}

/-- A path that is accepted is made of names, whichever way it is spelled. -/
theorem Table.asPath_spec {table : Table} {key what value path : String}
    (h : table.asPath key what value = .valid path) :
    ∃ names, (∀ c ∈ names, IsName c) ∧ path.toList = ofNames names := by
  unfold asPath at h
  dsimp only at h
  split at h
  · cases h
  · next hrelative =>
    split at h
    · cases h
    · next hinside =>
      obtain rfl := Checked.valid.inj h
      rw [Bool.or_eq_true, not_or, beq_iff_eq, List.isPrefixOf_iff_prefix] at hinside
      rw [Bool.or_eq_true, not_or, beq_iff_eq] at hrelative
      rw [String.toList_ofList]
      refine Text.Path.normalizeChars_eq_ofNames (fun c hc heq => ?_) hinside.1 hinside.2
      exact hrelative.2 (heq ▸ hc)

theorem Table.path_spec {table : Table} {key what path : String} (h : table.path key what = .valid path) :
    ∃ names, (∀ c ∈ names, IsName c) ∧ path.toList = ofNames names := by
  obtain ⟨value, -, hpath⟩ := Checked.andThen_eq_valid_iff.mp h
  exact asPath_spec hpath

/-- The names that the directory and the entrypoint of a template are made of. -/
structure HasNames (t : TemplateInfo) (dir file : List (List Char)) : Prop where
  dir_names : ∀ c ∈ dir, IsName c
  file_names : ∀ c ∈ file, IsName c
  path : t.path.toList = ofNames dir
  entrypoint : t.entrypoint.toList = ofNames file

theorem exists_hasNames_of_readTemplate (h : readTemplate members = .valid t) :
    ∃ dir file, HasNames t dir file := by
  obtain ⟨_, _, hpaths, -, heq⟩ := Checked.seq_eq_valid_iff.mp h
  obtain ⟨_, _, hpath, hentrypoint, rfl⟩ := Checked.seq_eq_valid_iff.mp hpaths
  obtain ⟨_, hdir, rfl⟩ := Checked.map_eq_valid_iff.mp hpath
  obtain rfl := heq
  obtain ⟨dir, hnames, htext⟩ := Table.path_spec hdir
  obtain ⟨file, hnames', htext'⟩ := Table.path_spec hentrypoint
  exact ⟨dir, file, hnames, hnames', htext, htext'⟩

theorem exists_of_readTemplate? (h : readTemplate? members = .valid (some t)) :
    ∃ inner, readTemplate inner = .valid t := by
  unfold readTemplate? at h
  split at h
  · cases h
  · next inner _ =>
    obtain ⟨_, hread, heq⟩ := Checked.map_eq_valid_iff.mp h
    obtain rfl := Option.some.inj heq
    exact ⟨inner, hread⟩
  · cases h

theorem exists_hasNames (h : read text = .ok m) (ht : m.template = some t) : ∃ dir file, HasNames t dir file := by
  unfold read at h
  split at h
  · cases h
  · split at h
    · split at h
      · next hm =>
        obtain rfl := Except.ok.inj h
        obtain ⟨_, template, hpackage, htemplate, rfl⟩ := Checked.seq_eq_valid_iff.mp hm
        obtain ⟨_, -, rfl⟩ := Checked.map_eq_valid_iff.mp hpackage
        obtain rfl : template = some t := ht
        obtain ⟨inner, hread⟩ := exists_of_readTemplate? htemplate
        exact exists_hasNames_of_readTemplate hread
      · cases h
    · cases h

/-! ## The directory of a template -/

namespace HasNames

variable {dir file : List (List Char)}

theorem toList_entrypointPath (h : HasNames t dir file) : t.entrypointPath.toList = ofNames (dir ++ file) := by
  rw [TemplateInfo.entrypointPath, Text.Path.normalize, Text.Path.join, String.toList_ofList,
    String.toList_ofList, h.path, h.entrypoint, Text.Path.normalizeChars_joinChars h.dir_names h.file_names]

theorem path_eq_dot_iff (h : HasNames t dir file) : t.path = "." ↔ dir = [] := by
  rw [← String.toList_inj, h.path]
  exact Text.Path.ofNames_eq_dot_iff h.dir_names

theorem entrypoint_eq_dot_iff (h : HasNames t dir file) : t.entrypoint = "." ↔ file = [] := by
  rw [← String.toList_inj, h.entrypoint]
  exact Text.Path.ofNames_eq_dot_iff h.file_names

/-- The entrypoint lies in the directory of the template, as a text, unless this is the whole package. -/
theorem prefix_entrypointPath_iff (h : HasNames t dir file) (hfile : file ≠ []) :
    ofNames dir ++ ['/'] <+: t.entrypointPath.toList ↔ dir ≠ [] := by
  rw [h.toList_entrypointPath]
  constructor
  · rintro hprefix rfl
    exact Text.Path.not_dot_prefix_ofNames h.file_names hprefix
  · intro hdir
    rw [Text.Path.ofNames_append hdir hfile]
    exact ⟨ofNames file, by simp⟩

theorem inTemplate_iff (h : HasNames t dir file) (hfile : file ≠ []) {p : Package} (hp : p.manifest = some m)
    (ht : m.template = some t) : p.inTemplate t.entrypointPath = true ↔ dir ≠ [] := by
  rw [← h.prefix_entrypointPath_iff hfile, Package.inTemplate, hp, Option.bind_some, ht, Option.any_some,
    h.path, Text.Path.trimWhile_ofNames h.dir_names, List.isPrefixOf_iff_prefix]

theorem hasDir_iff (h : HasNames t dir file) (hfile : file ≠ [])
    (hcontains : fs.contains t.entrypointPath = true) :
    fs.hasDir t.path = true ↔ dir ≠ [] ∨ ∃ path ∈ fs.paths, ['.', '/'] <+: path.toList := by
  have hne : (ofNames dir).isEmpty = false :=
    Bool.eq_false_iff.mpr (mt List.isEmpty_iff.mp (Text.Path.ofNames_ne_nil h.dir_names))
  have hany : fs.hasDir t.path = true ↔ ∃ path ∈ fs.paths, ofNames dir ++ ['/'] <+: path.toList := by
    rw [FileSet.hasDir, h.path, Text.Path.trimWhile_ofNames h.dir_names]
    simp [hne, FileSet.paths]
  rw [hany]
  constructor
  · rintro ⟨path, hpath, hprefix⟩
    by_cases hdir : dir = []
    · subst hdir
      exact .inr ⟨path, hpath, hprefix⟩
    · exact .inl hdir
  · rintro (hdir | hdot)
    · exact ⟨_, FileSet.contains_iff.mp hcontains, (h.prefix_entrypointPath_iff hfile).mpr hdir⟩
    · by_cases hdir : dir = []
      · rwa [hdir]
      · exact ⟨_, FileSet.contains_iff.mp hcontains, (h.prefix_entrypointPath_iff hfile).mpr hdir⟩

end HasNames

/-! ## Problems -/

/-- Whether the directory of a template is reported as missing. -/
def ReportsTemplatePath (m : Manifest) (files : Lookup) : Prop :=
  ∃ problem ∈ m.fileProblems files, problem.table = "template" ∧ problem.key = some "path"

theorem mem_requirePath {found : Bool} {table key what path : String} {problem : Problem} :
    problem ∈ requirePath found table key what path ↔
      found = false ∧ problem = ⟨table, some key, .absent what path⟩ := by
  unfold requirePath
  cases found <;> simp

theorem reportsTemplatePath_iff (ht : m.template = some t) (files : Lookup) :
    m.ReportsTemplatePath files ↔ files.hasDir.all (· t.path) = false := by
  unfold ReportsTemplatePath fileProblems
  rw [ht]
  constructor
  · rintro ⟨problem, hmem, htable, hkey⟩
    simp only [Option.toList_some, List.flatMap_singleton, templateProblems, List.mem_append,
      List.mem_flatMap, mem_requirePath] at hmem
    rcases hmem with ⟨-, rfl⟩ | (⟨hfalse, -⟩ | ⟨-, rfl⟩) | ⟨_, -, -, rfl⟩
    · have hne : "package" ≠ "template" := by decide
      exact absurd htable hne
    · exact hfalse
    · have hne : some "entrypoint" ≠ some "path" := by decide
      exact absurd hkey hne
    · have hne : some "thumbnail" ≠ some "path" := by decide
      exact absurd hkey hne
  · intro hfalse
    refine ⟨⟨"template", some "path", .absent "Template directory" t.path⟩, ?_, rfl, rfl⟩
    simp [templateProblems, mem_requirePath, hfalse]

/-- Where the entrypoint of a template is among the files, the directory of the template is reported as
missing exactly if it is the package itself and no path starts with `./`, which no path of a file does that
was read from a tree. The entrypoint counts as one of the template's files exactly if the directory is not
the package itself. It does not matter how the paths are spelled in the manifest. -/
theorem template_found_iff (h : read text = .ok m) (ht : m.template = some t) (hentrypoint : t.entrypoint ≠ ".")
    (hcontains : fs.contains t.entrypointPath = true) {p : Package} (hp : p.manifest = some m) :
    (m.ReportsTemplatePath (.ofFiles fs) ↔ t.path = "." ∧ ∀ path ∈ fs.paths, ¬ "./".toList <+: path.toList)
    ∧ (p.inTemplate t.entrypointPath = true ↔ t.path ≠ ".") := by
  obtain ⟨dir, file, hnames⟩ := exists_hasNames h ht
  have hfile : file ≠ [] := mt hnames.entrypoint_eq_dot_iff.mpr hentrypoint
  rw [ne_eq, hnames.path_eq_dot_iff]
  refine ⟨?_, hnames.inTemplate_iff hfile hp ht⟩
  rw [reportsTemplatePath_iff ht, Lookup.ofFiles, Option.all_some, Bool.eq_false_iff, ne_eq,
    hnames.hasDir_iff hfile hcontains]
  simp

/-- A manifest with a template whose directory and entrypoint are spelled as given. -/
def templateText (dir entrypoint : String) : List Char :=
  "[package]\nname = \"demo\"\nversion = \"1.0.0\"\nentrypoint = \"lib.typ\"\n[template]\npath = '".toList
    ++ dir.toList ++ "'\nentrypoint = '".toList ++ entrypoint.toList ++ "'\n".toList

/-- The manifest with a template in a directory. -/
def templateManifest (dir : String) : Manifest where
  package := ⟨"demo", "1.0.0", "lib.typ", [], none, none, none, none, [], [], [], none, []⟩
  template := some ⟨dir, "main.typ", none⟩

/-- The entrypoints of a package and of its template. -/
def templateFiles (entrypoint : String) : FileSet := .ofList [("lib.typ", .empty), (entrypoint, .empty)]

/-- However the directory of a template is spelled, its entrypoint is found in it. -/
theorem template_found_spelled :
    read (templateText " ./src/..\\new/ " "./main.typ") = .ok (templateManifest "new")
    ∧ (templateFiles "new/main.typ").contains "new/main.typ" = true
    ∧ ¬ (templateManifest "new").ReportsTemplatePath (.ofFiles (templateFiles "new/main.typ"))
    ∧ Package.inTemplate ⟨templateFiles "new/main.typ", some (templateManifest "new"), none⟩ "new/main.typ"
      = true := by
  have hread : read (templateText " ./src/..\\new/ " "./main.typ") = .ok (templateManifest "new") := by
    decide +kernel
  have hcontains : (templateFiles "new/main.typ").contains "new/main.typ" = true := by decide
  have hpath : (⟨"new", "main.typ", none⟩ : TemplateInfo).entrypointPath = "new/main.typ" := by decide
  obtain ⟨hreports, hin⟩ := template_found_iff hread rfl (by decide) (hpath ▸ hcontains)
    (p := ⟨templateFiles "new/main.typ", some (templateManifest "new"), none⟩) rfl
  exact ⟨hread, hcontains, fun h => absurd (hreports.mp h).1 (by decide), hpath ▸ hin.mpr (by decide)⟩

/-- A template that is the package itself is reported as missing, and its entrypoint is none of its files. -/
theorem template_missing_root : read (templateText "." "main.typ") = .ok (templateManifest ".")
    ∧ (⟨".", "main.typ", none⟩ : TemplateInfo).entrypointPath = "main.typ"
    ∧ (templateFiles "main.typ").contains "main.typ" = true
    ∧ (templateManifest ".").ReportsTemplatePath (.ofFiles (templateFiles "main.typ"))
    ∧ Package.inTemplate ⟨templateFiles "main.typ", some (templateManifest "."), none⟩ "main.typ" = false := by
  refine ⟨by decide +kernel, by decide +kernel, by decide +kernel, ?_, by decide +kernel⟩
  exact (reportsTemplatePath_iff rfl _).mpr (by decide)

end TypstLint.Manifest
