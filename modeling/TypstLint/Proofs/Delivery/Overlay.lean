import Mathlib.Data.List.Induction
import TypstLint.Proofs.Assoc
import TypstLint.Proofs.Delivery.Touched
import TypstLint.Proofs.Package.Spec

set_option autoImplicit false

/-! # Overlays of versions that are touched

A path touches a version if it leads into a directory whose name is read as the version. The overlay of
the version goes by the name as it is printed. The two agree on every path in which no blanks stand
around the version; a path with such blanks touches a version whose overlay does not name it
(`overlayOf_touched`). -/

namespace TypstLint

namespace Delivery

open GitHub (ChangedFile)

variable {files : List ChangedFile} {specs : List Spec} {outside : Bool} {spec other : Spec}
  {path inner : String}

/-! ## Names in an overlay -/

theorem relative?_eq_some_iff :
    relative? spec path = some inner ↔ path = spec.registryPath ++ "/" ++ inner := by
  unfold relative?
  dsimp only
  constructor
  · intro h
    obtain ⟨hdir, heq⟩ := Option.ite_none_right_eq_some.mp h
    obtain ⟨rest, hrest⟩ := List.isPrefixOf_iff_prefix.mp hdir
    rw [← hrest, List.drop_left] at heq
    obtain rfl := Option.some.inj heq
    rw [← String.toList_inj, ← hrest]
    simp
  · rintro rfl
    have hlist : (spec.registryPath ++ "/" ++ inner).toList =
        (spec.registryPath.toList ++ ['/']) ++ inner.toList := by simp
    rw [hlist, List.drop_left, String.ofList_toList,
      if_pos (List.isPrefixOf_iff_prefix.mpr (List.prefix_append _ _))]

theorem overlayOf_append_singleton (files : List ChangedFile) (f : ChangedFile) :
    overlayOf spec (files ++ [f]) = addChange spec (overlayOf spec files) f := by
  rw [overlayOf, List.foldl_append, List.foldl_cons, List.foldl_nil, ← overlayOf]

/-- Gives a path a value, if it lies within the directory of a version. -/
def setWithin (spec : Spec) (overlay : List (String × Option String)) (path : String)
    (value : Option String) : List (String × Option String) :=
  match relative? spec path with
  | some name => Assoc.set overlay name value
  | none => overlay

theorem mem_names_setWithin {overlay : List (String × Option String)} {value : Option String} :
    inner ∈ (setWithin spec overlay path value).map Prod.fst ↔
      spec.registryPath ++ "/" ++ inner = path ∨ inner ∈ overlay.map Prod.fst := by
  rw [eq_comm, ← relative?_eq_some_iff, setWithin]
  split
  · next name hname => rw [Assoc.mem_names_set, hname, Option.some.injEq, eq_comm]
  · next hnone => rw [hnone, or_iff_right (Option.some_ne_none inner).symm]

/-- A change of a file gives a value to its old path, and then to its new one. -/
theorem addChange_eq (overlay : List (String × Option String)) (f : ChangedFile) :
    addChange spec overlay f =
      setWithin spec ((f.previousFilename.map fun old => setWithin spec overlay old none).getD overlay)
        f.filename (if f.isRemoved then none else some f.filename) := by
  cases hprevious : f.previousFilename with
  | none => cases hname : relative? spec f.filename <;> simp [addChange, setWithin, hprevious, hname]
  | some old =>
    cases hname : relative? spec f.filename <;> cases hold : relative? spec old <;>
      simp [addChange, setWithin, hprevious, hname, hold]

theorem mem_names_addChange {overlay : List (String × Option String)} {f : ChangedFile} :
    inner ∈ (addChange spec overlay f).map Prod.fst ↔
      spec.registryPath ++ "/" ++ inner ∈ f.filename :: f.previousFilename.toList
        ∨ inner ∈ overlay.map Prod.fst := by
  rw [addChange_eq, mem_names_setWithin]
  cases f.previousFilename with
  | none => simp
  | some old =>
    rw [Option.map_some, Option.getD_some, mem_names_setWithin]
    simp [or_assoc]

/-- An overlay names the changed paths within the directory of its version. -/
theorem mem_names_overlayOf : inner ∈ (overlayOf spec files).map Prod.fst ↔
    spec.registryPath ++ "/" ++ inner ∈ changedPaths files := by
  have hne : ¬ (spec.registryPath ++ "/" ++ inner).isEmpty = true := by simp
  induction files using List.reverseRecOn with
  | nil => simp [overlayOf, changedPaths]
  | append_singleton files f ih =>
    have hfiles : _ ↔ _ := ih
    rw [overlayOf_append_singleton, mem_names_addChange, hfiles]
    simp [changedPaths, or_comm]

/-! ## Paths in a version -/

/-- No blanks stand around the piece of a path that names a version. -/
def IsTrimmed (path : String) : Prop :=
  ∀ version ∈ (Text.splitOn '/' path.toList)[3]?, Text.trim version = version

theorem toList_within (spec : Spec) (inner : String) :
    (spec.registryPath ++ "/" ++ inner).toList =
      "packages".toList ++ '/' :: (spec.namespaceName.toList ++ '/' :: (spec.name.toList ++ '/' ::
        (spec.version.render.toList ++ '/' :: inner.toList))) := by
  simp [Spec.registryPath, Spec.packagePath, toString]

/-- The pieces of a path within the directory of a version. -/
theorem splitOn_within (h : '/' ∉ spec.namespaceName.toList ∧ '/' ∉ spec.name.toList) (inner : String) :
    Text.splitOn '/' (spec.registryPath ++ "/" ++ inner).toList =
      "packages".toList :: spec.namespaceName.toList :: spec.name.toList ::
        spec.version.render.toList :: Text.splitOn '/' inner.toList := by
  have htop : '/' ∉ "packages".toList := by decide
  rw [toList_within, Text.splitOn_append, Text.splitOn_append, Text.splitOn_append, Text.splitOn_append,
    Text.splitOn_of_notMem htop, Text.splitOn_of_notMem h.1, Text.splitOn_of_notMem h.2,
    Text.splitOn_of_notMem (spec.version.notMem_render rfl (by decide))]
  rfl

/-- A path that touches a version lies within the directory of the version if no blanks stand around the
version in it. If there are some, it lies within the directory of no version. -/
theorem exists_within_iff (h : placeOf path = .ok (.package spec))
    (hother : '/' ∉ other.namespaceName.toList ∧ '/' ∉ other.name.toList) :
    (∃ inner, path = other.registryPath ++ "/" ++ inner) ↔ other = spec ∧ IsTrimmed path := by
  obtain ⟨version, rest, hne, hsplit, hparse⟩ := placeOf_eq_package_iff.mp h
  have hrender : spec.version.render.toList = Text.trim version := by
    rw [Version.toList_render_of_parse hparse, String.toList_ofList]
  have htrimmed : IsTrimmed path ↔ Text.trim version = version := by
    simp [IsTrimmed, hsplit]
  rw [htrimmed]
  constructor
  · rintro ⟨inner, rfl⟩
    rw [splitOn_within hother] at hsplit
    simp only [List.cons.injEq, true_and] at hsplit
    obtain ⟨hnamespace, hname, hversion, -⟩ := hsplit
    have htrim : Text.trim version = version := by rw [← hversion, Version.trim_render]
    have hversions : other.version = spec.version := by
      refine Version.render_inj (String.toList_inj.mp ?_)
      rw [hrender, htrim, hversion]
    refine ⟨?_, htrim⟩
    cases other
    cases spec
    rw [Spec.mk.injEq]
    exact ⟨String.toList_inj.mp hnamespace, String.toList_inj.mp hname, hversions⟩
  · rintro ⟨rfl, htrim⟩
    refine ⟨String.ofList (['/'].intercalate rest), ?_⟩
    obtain ⟨first, rest, rfl⟩ := List.exists_cons_of_ne_nil hne
    have hjoin : ['/'].intercalate (Text.splitOn '/' path.toList) = path.toList :=
      Text.intercalate_splitOn _
    rw [hsplit] at hjoin
    rw [← String.toList_inj, toList_within, hrender, htrim, ← hjoin, String.toList_ofList]
    simp [List.intercalate_cons_cons]

/-- A path within the directory of a version that is touched touches it. -/
theorem placeOf_within (h : touched files = .ok (specs, outside)) (hspec : spec ∈ specs) (inner : String) :
    placeOf (spec.registryPath ++ "/" ++ inner) = .ok (.package spec) := by
  obtain ⟨path, -, hplace⟩ := (mem_touched_iff h).mp hspec
  obtain ⟨version, rest, -, -, hparse⟩ := placeOf_eq_package_iff.mp hplace
  refine placeOf_eq_package_iff.mpr ⟨_, _, Text.splitWhere_ne_nil _ inner.toList,
    splitOn_within (slash_notMem_of_placeOf hplace) inner, ?_⟩
  rw [String.ofList_toList, Version.parse_render hparse]

/-! ## Agreement -/

/-- The versions that are touched are those that changed paths lead into. Such a path is named by the
overlay of its version, and by no other, unless blanks stand around the version in it: then no overlay
names it. So the overlay of a touched version is empty exactly if all paths that lead into it have such
blanks. -/
theorem overlayOf_touched (h : touched files = .ok (specs, outside)) :
    (∀ spec, spec ∈ specs ↔ ∃ path ∈ changedPaths files, placeOf path = .ok (.package spec))
    ∧ (∀ path ∈ changedPaths files, ∀ spec, placeOf path = .ok (.package spec) → ∀ other ∈ specs,
        ((∃ inner ∈ (overlayOf other files).map Prod.fst, path = other.registryPath ++ "/" ++ inner)
          ↔ other = spec ∧ IsTrimmed path))
    ∧ ∀ spec ∈ specs, (overlayOf spec files ≠ [] ↔
        ∃ path ∈ changedPaths files, placeOf path = .ok (.package spec) ∧ IsTrimmed path) := by
  refine ⟨fun spec => mem_touched_iff h, fun path hpath spec hplace other hother => ?_, fun spec hspec => ?_⟩
  · rw [← exists_within_iff hplace (slash_notMem_of_touched h hother)]
    constructor
    · rintro ⟨inner, -, hinner⟩
      exact ⟨inner, hinner⟩
    · rintro ⟨inner, hinner⟩
      exact ⟨inner, mem_names_overlayOf.mpr (hinner ▸ hpath), hinner⟩
  · have hslash := slash_notMem_of_touched h hspec
    constructor
    · intro hne
      obtain ⟨⟨inner, value⟩, hmem⟩ := List.exists_mem_of_ne_nil _ hne
      have hpath := mem_names_overlayOf.mp (List.mem_map_of_mem hmem)
      have hplace := placeOf_within h hspec inner
      exact ⟨_, hpath, hplace, ((exists_within_iff hplace hslash).mp ⟨inner, rfl⟩).2⟩
    · rintro ⟨path, hpath, hplace, htrim⟩ hempty
      obtain ⟨inner, rfl⟩ := (exists_within_iff hplace hslash).mpr ⟨rfl, htrim⟩
      have hmem := mem_names_overlayOf.mpr hpath
      rw [hempty] at hmem
      cases hmem

/-- A file that was moved out of a directory with a blank behind the version. -/
def movedFiles : List ChangedFile :=
  [{ filename := "packages/preview/a/1.0.0/lib.typ", status := "renamed"
     previousFilename := "packages/preview/b/2.0.0 /lib.typ" }]

/-- The version with the new path, and the one with the old path. -/
def newSpec : Spec := ⟨"preview", "a", ⟨1, 0, 0⟩⟩
def oldSpec : Spec := ⟨"preview", "b", ⟨2, 0, 0⟩⟩

theorem touched_movedFiles : touched movedFiles = .ok ([newSpec, oldSpec], false) := by
  have hplaces : (changedPaths movedFiles).mapM placeOf = .ok [.package newSpec, .package oldSpec] := rfl
  have hsorted : [newSpec, oldSpec].mergeSort (fun a b => decide (a.render ≤ b.render))
      = [newSpec, oldSpec] := List.mergeSort_of_pairwise (by decide)
  rw [touched, hplaces]
  exact congrArg (fun specs => Except.ok (specs, false)) hsorted

/-- Both versions are touched, and the overlay of the one names the new path. -/
theorem overlayOf_touched_moved : touched movedFiles = .ok ([newSpec, oldSpec], false)
    ∧ (∃ inner ∈ (overlayOf newSpec movedFiles).map Prod.fst,
        "packages/preview/a/1.0.0/lib.typ" = newSpec.registryPath ++ "/" ++ inner)
    ∧ overlayOf newSpec movedFiles ≠ [] := by
  have hpath : "packages/preview/a/1.0.0/lib.typ" ∈ changedPaths movedFiles := by decide
  have hplace : placeOf "packages/preview/a/1.0.0/lib.typ" = .ok (.package newSpec) := rfl
  have htrimmed : IsTrimmed "packages/preview/a/1.0.0/lib.typ" := by
    unfold IsTrimmed
    decide
  obtain ⟨-, hnamed, hempty⟩ := overlayOf_touched touched_movedFiles
  exact ⟨touched_movedFiles, (hnamed _ hpath newSpec hplace newSpec (by simp)).mpr ⟨rfl, htrimmed⟩,
    (hempty newSpec (by simp)).mpr ⟨_, hpath, hplace, htrimmed⟩⟩

/-- The old path touches a version whose overlay is empty. -/
theorem overlayOf_eq_nil_moved : ∃ specs outside, touched movedFiles = .ok (specs, outside)
    ∧ oldSpec ∈ specs ∧ "packages/preview/b/2.0.0 /lib.typ" ∈ changedPaths movedFiles
    ∧ placeOf "packages/preview/b/2.0.0 /lib.typ" = .ok (.package oldSpec)
    ∧ overlayOf oldSpec movedFiles = [] :=
  ⟨_, _, touched_movedFiles, by decide, by decide, rfl, by decide⟩

end Delivery

end TypstLint
