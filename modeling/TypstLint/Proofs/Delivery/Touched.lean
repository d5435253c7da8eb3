import TypstLint.Delivery.Touched
import TypstLint.Proofs.Except
import TypstLint.Proofs.Package.Spec
import TypstLint.Proofs.Text.Blank

set_option autoImplicit false

/-! # The versions that a pull request touches

A version is touched if a changed path leads into a directory that is named like it (`mem_touched_iff`).
No version is listed twice, and different ones have different texts (`render_inj_of_touched`). -/

namespace TypstLint.Delivery

open GitHub (ChangedFile)

variable {files : List ChangedFile} {specs : List Spec} {outside : Bool} {spec : Spec} {path : String}

theorem placeInPackage_eq_package_iff {namespaceName name version : List Char} :
    placeInPackage namespaceName name version = .ok (.package spec) ↔
      namespaceName = spec.namespaceName.toList ∧ name = spec.name.toList
        ∧ Version.parse (String.ofList version) = .ok spec.version := by
  unfold placeInPackage
  constructor
  · intro h
    split at h
    · next v hv =>
      cases h
      exact ⟨String.toList_ofList.symm, String.toList_ofList.symm, hv⟩
    · cases h
    · cases h
  · rintro ⟨rfl, rfl, hparse⟩
    rw [hparse]
    simp only [String.ofList_toList]

/-- The pieces of a path that leads into a version of a package. -/
theorem placeOf_eq_package_iff : placeOf path = .ok (.package spec) ↔ ∃ version rest, rest ≠ []
    ∧ Text.splitOn '/' path.toList = "packages".toList :: spec.namespaceName.toList ::
      spec.name.toList :: version :: rest
    ∧ Version.parse (String.ofList version) = .ok spec.version := by
  constructor
  · intro h
    unfold placeOf at h
    split at h
    · next top rest hsplit =>
      split at h
      · cases h
      · next htop =>
        split at h
        · next namespaceName name version first rest =>
          obtain ⟨rfl, rfl, hparse⟩ := placeInPackage_eq_package_iff.mp h
          have htop : String.ofList top = "packages" := by simpa using htop
          rw [hsplit, ← htop, String.toList_ofList]
          exact ⟨version, first :: rest, List.cons_ne_nil _ _, rfl, hparse⟩
        · cases h
    · cases h
  · rintro ⟨version, rest, hne, hsplit, hparse⟩
    obtain ⟨first, rest, rfl⟩ := List.exists_cons_of_ne_nil hne
    unfold placeOf
    rw [hsplit]
    exact placeInPackage_eq_package_iff.mpr ⟨rfl, rfl, hparse⟩

theorem slash_notMem_of_placeOf (h : placeOf path = .ok (.package spec)) :
    '/' ∉ spec.namespaceName.toList ∧ '/' ∉ spec.name.toList := by
  obtain ⟨version, rest, -, hsplit, -⟩ := placeOf_eq_package_iff.mp h
  have hpieces (w : List Char) (hw : w ∈ Text.splitOn '/' path.toList) : '/' ∉ w :=
    Text.notMem_of_mem_splitOn hw
  rw [hsplit] at hpieces
  exact ⟨hpieces _ (by simp), hpieces _ (by simp)⟩

/-- The versions that are touched are those that changed paths lead into. -/
theorem mem_touched_iff (h : touched files = .ok (specs, outside)) :
    spec ∈ specs ↔ ∃ path ∈ changedPaths files, placeOf path = .ok (.package spec) := by
  obtain ⟨places, hplaces, h⟩ := bind_eq_ok.mp h
  obtain ⟨rfl, -⟩ := Prod.mk.inj (Except.ok.inj h)
  rw [List.mem_mergeSort, List.mem_eraseDups, List.mem_filterMap]
  constructor
  · rintro ⟨place, hplace, hspec⟩
    obtain ⟨path, hpath, heq⟩ := exists_of_mem_mapM hplaces hplace
    split at hspec
    · obtain rfl := Option.some.inj hspec
      exact ⟨path, hpath, heq⟩
    · cases hspec
  · rintro ⟨path, hpath, heq⟩
    obtain ⟨place, hplace, heq'⟩ := mem_of_mapM hplaces hpath
    obtain rfl := Except.ok.inj (heq'.symm.trans heq)
    exact ⟨_, hplace, rfl⟩

theorem slash_notMem_of_touched (h : touched files = .ok (specs, outside)) (hspec : spec ∈ specs) :
    '/' ∉ spec.namespaceName.toList ∧ '/' ∉ spec.name.toList := by
  obtain ⟨path, -, hpath⟩ := (mem_touched_iff h).mp hspec
  exact slash_notMem_of_placeOf hpath

theorem nodup_touched (h : touched files = .ok (specs, outside)) : specs.Nodup := by
  obtain ⟨places, -, h⟩ := bind_eq_ok.mp h
  obtain ⟨rfl, -⟩ := Prod.mk.inj (Except.ok.inj h)
  exact (List.mergeSort_perm _ _).nodup_iff.mpr (nodup_eraseDups _)

/-- Different versions that are touched have different texts. -/
theorem render_inj_of_touched (h : touched files = .ok (specs, outside)) {a b : Spec} (ha : a ∈ specs)
    (hb : b ∈ specs) (hrender : a.render = b.render) : a = b :=
  Spec.render_inj (slash_notMem_of_touched h ha).1 (slash_notMem_of_touched h hb).1 hrender

theorem nodup_names_touched (h : touched files = .ok (specs, outside)) :
    (specs.map Spec.render).Nodup :=
  (nodup_touched h).map_on fun _ ha _ hb => render_inj_of_touched h ha hb

end TypstLint.Delivery
