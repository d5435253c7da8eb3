import TypstLint.Proofs.Delivery.Overlay
import TypstLint.Proofs.Package.Grammar

set_option autoImplicit false

/-! # Versions are told apart

A version is told by its text, under which its runs are created, and by its directory, under which its
overlay finds files. As long as no slash stands in namespaces and names, different versions have
different texts and directories, and no directory lies within another one, whatever else the names are
made of (`texts_determine`). -/

namespace TypstLint

/-- No slash stands in the namespace and in the name of a package. -/
def Spec.IsFlat (spec : Spec) : Prop := '/' ∉ spec.namespaceName.toList ∧ '/' ∉ spec.name.toList

namespace Delivery

open GitHub (ChangedFile)

variable {a b : Spec} {inner inner' : String}

/-- Paths within the directories of different versions are different. -/
theorem eq_of_within (ha : a.IsFlat) (hb : b.IsFlat)
    (h : a.registryPath ++ "/" ++ inner = b.registryPath ++ "/" ++ inner') : a = b := by
  have hpieces := congrArg (fun path : String => Text.splitOn '/' path.toList) h
  rw [splitOn_within ha, splitOn_within hb] at hpieces
  simp only [List.cons.injEq, true_and] at hpieces
  obtain ⟨hnamespace, hname, hversion, -⟩ := hpieces
  cases a
  cases b
  rw [Spec.mk.injEq]
  exact ⟨String.toList_inj.mp hnamespace, String.toList_inj.mp hname,
    Version.render_inj (String.toList_inj.mp hversion)⟩

theorem registryPath_inj (ha : a.IsFlat) (hb : b.IsFlat) (h : a.registryPath = b.registryPath) : a = b := by
  have hwithin : a.registryPath ++ "/" ++ "" = b.registryPath ++ "/" ++ "" := by rw [h]
  exact eq_of_within ha hb hwithin

/-- No directory of a version lies within that of a version. -/
theorem not_prefix_registryPath (ha : a.IsFlat) (hb : b.IsFlat) :
    ¬ (a.registryPath ++ "/").toList <+: b.registryPath.toList := by
  rintro ⟨rest, hrest⟩
  have hdir : b.registryPath = a.registryPath ++ "/" ++ String.ofList rest := by
    rw [← String.toList_inj, ← hrest]
    simp
  -- so a path within the one lies within the other, and both are the same
  have hwithin : a.registryPath ++ "/" ++ (String.ofList rest ++ "/") = b.registryPath ++ "/" ++ "" := by
    simp [hdir, String.append_assoc]
  obtain rfl := eq_of_within ha hb hwithin
  have hlength := congrArg List.length hrest
  simp at hlength

/-- A specification that was read is read from its text, with its sign or without. Different versions of
packages, in whose namespaces and names no slash stands, have different texts and different directories, of
which none lies within the other, so that no path is one in both. The versions that a pull request touches
are such versions. -/
theorem texts_determine :
    (∀ value spec, Spec.parse value = .ok spec → Spec.parse spec.render = .ok spec
      ∧ Spec.parse (String.ofList (spec.render.toList.drop 1)) = .ok spec)
    ∧ (∀ a b : Spec, a.IsFlat → b.IsFlat → (a.render = b.render → a = b)
      ∧ (a.registryPath = b.registryPath → a = b)
      ∧ ¬ (a.registryPath ++ "/").toList <+: b.registryPath.toList
      ∧ ∀ path, (relative? a path).isSome → (relative? b path).isSome → a = b)
    ∧ ∀ files specs outside, touched files = .ok (specs, outside) → ∀ spec ∈ specs, spec.IsFlat := by
  refine ⟨fun _ _ => Spec.parse_render, fun a b ha hb => ⟨Spec.render_inj ha.1 hb.1, registryPath_inj ha hb,
    not_prefix_registryPath ha hb, fun path hina hinb => ?_⟩, fun _ _ _ h _ => slash_notMem_of_touched h⟩
  obtain ⟨inner, hinner⟩ := Option.isSome_iff_exists.mp hina
  obtain ⟨inner', hinner'⟩ := Option.isSome_iff_exists.mp hinb
  exact eq_of_within ha hb ((relative?_eq_some_iff.mp hinner).symm.trans (relative?_eq_some_iff.mp hinner'))

/-- A file that is moved from one package to another one with an odd name. -/
def oddFiles : List ChangedFile :=
  [{ filename := "packages/@a/b:1.0.0/2.0.0/lib.typ", status := "renamed"
     previousFilename := "packages/@a/b/1.0.0/lib.typ" }]

/-- A package whose name looks like one and a version of it, and that one. -/
def oddSpec : Spec := ⟨"@a", "b:1.0.0", ⟨2, 0, 0⟩⟩
def plainSpec : Spec := ⟨"@a", "b", ⟨1, 0, 0⟩⟩

/-- The version that `preview/cetz: 0.12.0` names, although it is not written so. -/
def cetzSpec : Spec := ⟨"preview", "cetz", ⟨0, 12, 0⟩⟩

/-- What is read is read again from its text, and two versions with odd names are told apart. -/
theorem texts_determine_odd :
    (Spec.parse "preview/cetz: 0.12.0" = .ok cetzSpec
      ∧ cetzSpec.render = "@preview/cetz:0.12.0" ∧ Spec.parse "@preview/cetz:0.12.0" = .ok cetzSpec
      ∧ Spec.parse "preview/cetz:0.12.0" = .ok cetzSpec)
    ∧ (∃ specs, touched oddFiles = .ok (specs, false) ∧ oddSpec ∈ specs ∧ plainSpec ∈ specs)
    ∧ oddSpec.IsFlat ∧ plainSpec.IsFlat ∧ oddSpec.render ≠ plainSpec.render
    ∧ oddSpec.registryPath ≠ plainSpec.registryPath := by
  have hread : Spec.parse "preview/cetz: 0.12.0" = .ok cetzSpec := by decide +kernel
  have hplaces : (changedPaths oddFiles).mapM placeOf = .ok [.package oddSpec, .package plainSpec] := rfl
  have htouched : ∃ specs, touched oddFiles = .ok (specs, false) ∧ oddSpec ∈ specs ∧ plainSpec ∈ specs := by
    refine ⟨_, by rw [touched, hplaces]; rfl, ?_, ?_⟩
    · exact List.mem_mergeSort.mpr (by decide)
    · exact List.mem_mergeSort.mpr (by decide)
  obtain ⟨specs, hspecs, hodd, hplain⟩ := id htouched
  obtain ⟨hagain, hapart, hflat⟩ := texts_determine
  have hne : oddSpec ≠ plainSpec := by decide
  obtain ⟨htext, hdir, -⟩ := hapart _ _ (hflat _ _ _ hspecs _ hodd) (hflat _ _ _ hspecs _ hplain)
  obtain ⟨hsigned, hunsigned⟩ := hagain _ _ hread
  exact ⟨⟨hread, by decide +kernel, hsigned, hunsigned⟩, htouched, hflat _ _ _ hspecs _ hodd,
    hflat _ _ _ hspecs _ hplain, mt htext hne, mt hdir hne⟩

end Delivery

end TypstLint
