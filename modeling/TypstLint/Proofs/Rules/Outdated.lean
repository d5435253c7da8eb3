import TypstLint.Proofs.Except
import TypstLint.Proofs.Registry
import TypstLint.Rules.Imports

set_option autoImplicit false

/-! # Hints at newer versions

A hint at an import of a package names the greatest version that the registry lists, if that is newer than
the one that is imported (`mem_outdatedImports_iff`). An import of the version that is named is found if
the version is listed for a directory that has a manifest and no blanks around its name
(`outdatedImports_found_iff`); the listing itself looks at neither. -/

namespace TypstLint.Rules

open ImportGraph (packageStatus)

variable {ctx : Context} {r : Registry} {e : Edge} {spec : Spec} {v : Version} {d : Diagnostic}
  {ds : List Diagnostic}

/-- The hint that there is a version of the package that an edge leads to. -/
def newerHint (ctx : Context) (e : Edge) (spec : Spec) (v : Version) : Diagnostic :=
  edgeDiagnostic ctx .hint "imports/outdated"
    s!"A newer version of {spec.versionless} is available: {v.render}" e

/-- An edge leads to a package whose latest version is a newer one. -/
structure IsOutdated (r : Registry) (e : Edge) (spec : Spec) (v : Version) : Prop where
  resolution : e.resolution = .package spec .found
  latest : r.latestVersion spec.namespaceName spec.name = .ok (some v)
  newer : v.le spec.version = false

theorem mem_newerVersion_iff (hds : newerVersion ctx r e = .ok ds) :
    d ∈ ds ↔ ∃ spec v, IsOutdated r e spec v ∧ d = newerHint ctx e spec v := by
  unfold newerVersion at hds
  split at hds
  · next spec hresolution =>
    obtain ⟨latest?, hlatest, hds⟩ := bind_eq_ok.mp hds
    -- an edge leads to one package, and this has one latest version
    have hsame (spec' : Spec) (v : Version) (h : IsOutdated r e spec' v) : spec' = spec ∧ latest? = some v := by
      obtain ⟨rfl, -⟩ := Resolution.package.inj (h.resolution.symm.trans hresolution)
      exact ⟨rfl, Except.ok.inj (hlatest.symm.trans h.latest)⟩
    split at hds
    · next latest =>
      split at hds
      · next hle =>
        obtain rfl := Except.ok.inj hds
        refine iff_of_false List.not_mem_nil ?_
        rintro ⟨spec', v, houtdated, -⟩
        obtain ⟨rfl, hv⟩ := hsame spec' v houtdated
        obtain rfl := Option.some.inj hv
        cases hle.symm.trans houtdated.newer
      · next hnewer =>
        obtain rfl := Except.ok.inj hds
        rw [List.mem_singleton]
        constructor
        · rintro rfl
          exact ⟨spec, latest, ⟨hresolution, hlatest, Bool.eq_false_iff.mpr hnewer⟩, rfl⟩
        · rintro ⟨spec', v, houtdated, rfl⟩
          obtain ⟨rfl, hv⟩ := hsame spec' v houtdated
          obtain rfl := Option.some.inj hv
          rfl
    · obtain rfl := Except.ok.inj hds
      refine iff_of_false List.not_mem_nil ?_
      rintro ⟨spec', v, houtdated, -⟩
      cases (hsame spec' v houtdated).2
  · next hother =>
    obtain rfl := Except.ok.inj hds
    refine iff_of_false List.not_mem_nil ?_
    rintro ⟨spec, v, houtdated, -⟩
    exact hother spec houtdated.resolution

/-- What is found are the hints at the outdated imports. -/
theorem mem_outdatedImports_iff (hds : outdatedImports.evaluate ctx = .ok ds) : d ∈ ds ↔
    ∃ r, ctx.registry = some r ∧ ∃ e ∈ ctx.graph.edges, ∃ spec v,
      IsOutdated r e spec v ∧ d = newerHint ctx e spec v := by
  simp only [outdatedImports] at hds
  split at hds
  · next hnone =>
    obtain rfl := Except.ok.inj hds
    refine iff_of_false List.not_mem_nil ?_
    rintro ⟨r, hregistry, -⟩
    cases hnone.symm.trans hregistry
  · next r hregistry =>
    obtain ⟨dss, hdss, rfl⟩ := map_eq_ok.mp hds
    rw [List.mem_flatten]
    constructor
    · rintro ⟨found, hfound, hd⟩
      obtain ⟨e, he, hnewer⟩ := exists_of_mem_mapM hdss hfound
      exact ⟨r, hregistry, e, he, (mem_newerVersion_iff hnewer).mp hd⟩
    · rintro ⟨r', hregistry', e, he, houtdated⟩
      obtain rfl := Option.some.inj (hregistry.symm.trans hregistry')
      obtain ⟨found, hfound, hnewer⟩ := mem_of_mapM hdss he
      exact ⟨found, hfound, (mem_newerVersion_iff hnewer).mpr houtdated⟩

theorem packageStatus_eq_found_iff :
    packageStatus (some r) spec = .ok .found ↔ r.hasPackage spec = .ok true := by
  rw [packageStatus, map_eq_ok]
  constructor
  · rintro ⟨found, hfound, hstatus⟩
    cases found with
    | true => exact hfound
    | false => cases hstatus
  · intro hfound
    exact ⟨true, hfound, rfl⟩

/-- A hint names the greatest version that is listed for an imported package, and a newer one. The registry
has that version, and an import of it is found, exactly if it is listed for a directory that has a manifest
and no blanks around its name. -/
theorem outdatedImports_found_iff (hregistry : ctx.registry = some r)
    (hds : outdatedImports.evaluate ctx = .ok ds) (hd : d ∈ ds) :
    ∃ e ∈ ctx.graph.edges, ∃ spec v, e.resolution = .package spec .found ∧ d = newerHint ctx e spec v
      ∧ v.le spec.version = false ∧ (∃ name, r.Lists spec name v)
      ∧ (∀ name w, r.Lists spec name w → w.le v = true)
      ∧ (r.hasPackage (spec.withVersion v) = .ok true ↔ r.ListsManifest spec v)
      ∧ (packageStatus ctx.registry (spec.withVersion v) = .ok .found ↔ r.ListsManifest spec v) := by
  obtain ⟨r', hregistry', e, he, spec, v, houtdated, rfl⟩ := (mem_outdatedImports_iff hds).mp hd
  obtain rfl := Option.some.inj (hregistry.symm.trans hregistry')
  obtain ⟨⟨name, hlists⟩, hgreatest⟩ := Registry.latestVersion_spec houtdated.latest
  refine ⟨e, he, spec, v, houtdated.resolution, rfl, houtdated.newer, ⟨name, hlists⟩, hgreatest,
    hlists.hasPackage_iff, ?_⟩
  rw [hregistry, packageStatus_eq_found_iff, hlists.hasPackage_iff]

/-! ## A version without a manifest -/

/-- The older one of two versions. -/
def olderCetz : Spec := ⟨"preview", "cetz", ⟨0, 2, 0⟩⟩

/-- The newer one. -/
def newerCetz : Version := ⟨0, 3, 0⟩

/-- An import of the older version. -/
def olderImport : Edge where
  source := 0
  directive := { kind := .importing, target := some ⟨olderCetz.render, ⟨8, 29⟩⟩, span := ⟨0, 30⟩ }
  resolution := .package olderCetz .found

/-- A package that imports the older version. -/
def importing (r : Registry) : Context where
  package := ⟨.empty, none, none⟩
  graph := { nodes := ["lib.typ"], edges := [olderImport] }
  outlines := []
  manifestProblems := []
  registry := some r
  publication := false
  manifestText := none

/-- A clone with directories for both versions and a manifest of the older one. -/
def hollowClone : Registry where
  tree :=
    { entries :=
        [(["packages"], .dir), (["packages", "preview"], .dir), (["packages", "preview", "cetz"], .dir),
         (["packages", "preview", "cetz", "0.2.0"], .dir),
         (["packages", "preview", "cetz", "0.2.0", "typst.toml"], .file .empty),
         (["packages", "preview", "cetz", "0.3.0"], .dir)] }
  root := []

/-- The clone with a manifest of the newer version as well. -/
def fullClone : Registry :=
  { hollowClone with
    tree := hollowClone.tree.put ["packages", "preview", "cetz", "0.3.0", "typst.toml"] (.file .empty) }

/-- Where both versions are listed, there is a hint at the newer one. -/
theorem evaluate_importing
    (hdir : r.tree.findDir (r.pathOf olderCetz.packagePath) = .ok (some ⟨0, ["packages", "preview", "cetz"]⟩))
    (hfound : (Registry.entryNames r.tree ⟨0, ["packages", "preview", "cetz"]⟩).mapM
        (Registry.versionAt r.tree (r.pathOf olderCetz.packagePath))
      = .ok [some olderCetz.version, some newerCetz]) :
    r.latestVersion olderCetz.namespaceName olderCetz.name = .ok (some newerCetz)
      ∧ outdatedImports.evaluate (importing r)
        = .ok [newerHint (importing r) olderImport olderCetz newerCetz] := by
  have hlatest := Registry.latestVersion_of_pairwise hdir hfound (by decide)
  have hnewer : newerVersion (importing r) r olderImport
      = .ok [newerHint (importing r) olderImport olderCetz newerCetz] :=
    bind_eq_ok.mpr ⟨some newerCetz, hlatest, rfl⟩
  have hmap : [olderImport].mapM (newerVersion (importing r) r)
      = .ok [[newerHint (importing r) olderImport olderCetz newerCetz]] := by
    rw [List.mapM_cons, hnewer]
    rfl
  exact ⟨hlatest, map_eq_ok.mpr ⟨_, hmap, rfl⟩⟩

/-- The hint names the newer version, and an import of that is found. -/
theorem outdatedImports_found_fullClone : (importing fullClone).registry = some fullClone
    ∧ ∃ ds, outdatedImports.evaluate (importing fullClone) = .ok ds
      ∧ newerHint (importing fullClone) olderImport olderCetz newerCetz ∈ ds
      ∧ packageStatus (some fullClone) (olderCetz.withVersion newerCetz) = .ok .found := by
  obtain ⟨hlatest, hds⟩ := evaluate_importing (r := fullClone) (by decide) (by decide)
  obtain ⟨e, he, spec, v, hresolution, -, -, ⟨name, hlists⟩, hgreatest, -, hstatus⟩ :=
    outdatedImports_found_iff rfl hds (List.mem_singleton_self _)
  obtain rfl := List.mem_singleton.mp he
  obtain ⟨rfl, -⟩ := Resolution.package.inj hresolution
  -- there is one greatest version
  obtain ⟨⟨newest, hnewest⟩, hlatest⟩ := Registry.latestVersion_spec hlatest
  obtain rfl := Version.le_antisymm (hlatest name v hlists) (hgreatest newest newerCetz hnewest)
  have hmanifest : fullClone.HasManifest olderCetz newerCetz.render :=
    Registry.hasPackage_withVersion_iff.mp (by decide)
  exact ⟨rfl, _, hds, List.mem_singleton_self _, hstatus.mpr
    ⟨newerCetz.render, hlists.render hmanifest, newerCetz.trim_render, hmanifest⟩⟩

/-- The hint names the newer version, but the registry does not have that. -/
theorem outdatedImports_missing_hollowClone :
    ∃ ds, outdatedImports.evaluate (importing hollowClone) = .ok ds
      ∧ newerHint (importing hollowClone) olderImport olderCetz newerCetz ∈ ds
      ∧ hollowClone.hasPackage (olderCetz.withVersion newerCetz) = .ok false
      ∧ packageStatus (some hollowClone) (olderCetz.withVersion newerCetz) = .ok .notFound := by
  obtain ⟨-, hds⟩ := evaluate_importing (r := hollowClone) (by decide) (by decide)
  exact ⟨_, hds, List.mem_singleton_self _, by decide, by decide⟩

end TypstLint.Rules
