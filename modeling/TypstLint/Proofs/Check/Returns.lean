import TypstLint.Check
import TypstLint.Proofs.ImportGraph.Build

set_option autoImplicit false

/-! # When a check gives a report

A check gives a report unless the import graph is built and a file that is reached is in the way: it
cannot be scanned, or a target in it cannot be resolved (`check_returns_iff`). Rules cannot be in the
way, as their failures are reported. -/

namespace TypstLint

/-! ## Numbers in targets -/

/-- Whether a resolution is one that a graph can have: a target with a number that is too long gets
none. -/
def Resolution.IsReadable : Resolution → Prop
  | .invalidSpec (.numeralTooLong _) => False
  | _ => True

namespace ImportGraph

variable {input : Input} {nodes nodes' : List String} {edges edges' new : List Edge}
  {source target : String} {ds : List Markup.Directive} {node next fuel : Nat} {r : Resolution}
  {g : ImportGraph} {fault : Fault}

theorem isReadable_of_resolvePackage (h : resolvePackage input nodes target = .ok (nodes', r)) :
    r.IsReadable := by
  unfold resolvePackage at h
  split at h
  · cases h
  · next e hne _ =>
    obtain ⟨-, rfl⟩ := Prod.mk.inj (Except.ok.inj h)
    cases e with
    | numeralTooLong digits => exact absurd rfl (hne digits)
    | _ => exact trivial
  · split at h
    · obtain ⟨-, rfl⟩ := Prod.mk.inj (Except.ok.inj h)
      exact trivial
    · obtain ⟨status, -, heq⟩ := map_eq_ok.mp h
      obtain ⟨-, rfl⟩ := Prod.mk.inj heq
      exact trivial

theorem isReadable_of_resolveTarget (h : resolveTarget input nodes source target = .ok (nodes', r)) :
    r.IsReadable := by
  unfold resolveTarget at h
  split at h
  · exact isReadable_of_resolvePackage h
  · split at h
    · obtain ⟨-, rfl⟩ := Prod.mk.inj (Except.ok.inj h)
      exact trivial
    · split at h
      · obtain ⟨-, rfl⟩ := Prod.mk.inj (Except.ok.inj h)
        exact trivial
      · obtain ⟨-, rfl⟩ := Prod.mk.inj (Except.ok.inj h)
        exact trivial

theorem isReadable_of_edgesOf (h : edgesOf input node source nodes ds = .ok (nodes', new)) :
    ∀ e ∈ new, e.resolution.IsReadable := by
  induction ds generalizing nodes new with
  | nil =>
    obtain ⟨-, rfl⟩ := Prod.mk.inj (Except.ok.inj h)
    exact List.forall_mem_nil _
  | cons d rest ih =>
    unfold edgesOf at h
    split at h
    · exact ih h
    · obtain ⟨⟨nodes₁, r⟩, hresolve, h⟩ := bind_eq_ok.mp h
      obtain ⟨⟨nodes₂, es⟩, hrest, h⟩ := bind_eq_ok.mp h
      obtain ⟨rfl, rfl⟩ := Prod.mk.inj (Except.ok.inj h)
      exact List.forall_mem_cons.mpr ⟨isReadable_of_resolveTarget hresolve, ih hrest⟩

theorem isReadable_of_explore (h : explore input fuel next nodes edges = .ok (nodes', edges'))
    (hedges : ∀ e ∈ edges, e.resolution.IsReadable) : ∀ e ∈ edges', e.resolution.IsReadable := by
  induction fuel generalizing next nodes edges with
  | zero =>
    obtain ⟨-, rfl⟩ := Prod.mk.inj (Except.ok.inj h)
    exact hedges
  | succ fuel ih =>
    unfold explore at h
    split at h
    · obtain ⟨-, rfl⟩ := Prod.mk.inj (Except.ok.inj h)
      exact hedges
    · obtain ⟨ds, -, h⟩ := bind_eq_ok.mp h
      obtain ⟨⟨nodes₁, new⟩, hnew, h⟩ := bind_eq_ok.mp h
      exact ih h (List.forall_mem_append.mpr ⟨hedges, isReadable_of_edgesOf hnew⟩)

theorem isReadable_of_build (h : build input = .ok g) : ∀ e ∈ g.edges, e.resolution.IsReadable := by
  obtain ⟨⟨nodes, edges⟩, hexplore, hg⟩ := bind_eq_ok.mp h
  obtain rfl := Except.ok.inj hg
  exact isReadable_of_explore hexplore (List.forall_mem_nil _)

/-! ## Files that are in the way -/

/-- A target that is settled can be resolved. -/
theorem Settles.not_fails (h : Settles input nodes source target r) (hreadable : r.IsReadable) :
    ¬ TargetFails input target fault := by
  rintro (⟨hpackage, hparse⟩ | ⟨hother, hregistry, hfails⟩)
  · cases h with
    | file hrelative | outside hrelative | missing hrelative => exact hrelative hpackage
    | self _ hparse' => cases hparse'.symm.trans hparse
    | package hother => cases hother.parse.symm.trans hparse
    | invalidSpec _ hparse' =>
      obtain rfl := Except.error.inj (hparse'.symm.trans hparse)
      exact hreadable
  · cases h with
    | file hrelative | outside hrelative | missing hrelative => exact hrelative hother.namesPackage
    | self _ hparse hown =>
      obtain rfl := Except.ok.inj (hother.parse.symm.trans hparse)
      exact hother.other _ hown
    | package hother' hstatus =>
      obtain rfl := Except.ok.inj (hother.parse.symm.trans hother'.parse)
      unfold packageStatus at hstatus
      rw [hregistry] at hstatus
      obtain ⟨found, hfound, -⟩ := map_eq_ok.mp hstatus
      cases hfound.symm.trans hfails
    | invalidSpec _ hparse => cases hother.parse.symm.trans hparse

/-- No file of a graph that is built is in the way. -/
theorem not_fails_of_build {p : Package} {registry : Option Registry}
    (h : build ⟨p, registry, p.files.outlines⟩ = .ok g) (hreached : p.Reached source) :
    ¬ FileFails ⟨p, registry, p.files.outlines⟩ source fault := by
  have hgraph := isGraphOf_of_build h
  obtain ⟨node, hnode⟩ := List.mem_iff_getElem?.mp ((hgraph.mem_nodes source).mpr hreached)
  have hdirectives := hgraph.directives node source hnode
  rintro (⟨htext, hscan⟩ | ⟨hbrings, hfails⟩)
  · rw [FileSet.LiteralDirectives, htext] at hdirectives
    obtain ⟨outline, hscanned, -⟩ := hdirectives
    cases hscanned.symm.trans hscan
  · -- the directive has an edge, whose resolution says that the target could be resolved
    obtain ⟨hd, hlit⟩ := hdirectives.brings_iff.mp hbrings
    obtain ⟨e, he, rfl⟩ := List.mem_map.mp hd
    obtain ⟨hedge, -⟩ := mem_outgoing.mp he
    obtain ⟨-, lit', hlit', hsettles⟩ := hgraph.settled e hedge
    obtain rfl := Option.some.inj (hlit'.symm.trans hlit)
    exact hsettles.not_fails (isReadable_of_build h e hedge) hfails

end ImportGraph

/-! ## Reports -/

/-- The package that is checked. -/
def CheckOptions.packageOf (options : CheckOptions) (files : FileSet) : Package :=
  ⟨files, (Manifest.load files).manifest, options.spec⟩

/-- Whether problems of the manifest end a check. -/
def CheckOptions.StopsAt (options : CheckOptions) (files : FileSet) : Prop :=
  options.shortCircuit = true ∧ (Manifest.load files).problems ≠ []

theorem check_eq_ok_iff {files : FileSet} {options : CheckOptions} :
    (∃ result, check files options = .ok result) ↔ options.StopsAt files ∨
      ∃ g, importGraph (options.packageOf files) options.registry files.outlines = .ok g := by
  have hstops : (options.shortCircuit && !(Manifest.load files).problems.isEmpty) = true ↔
      options.StopsAt files := by
    rw [Bool.and_eq_true, Bool.not_eq_true', List.isEmpty_eq_false_iff]
    exact Iff.rfl
  unfold check
  dsimp only
  constructor
  · rintro ⟨result, h⟩
    split at h
    · next hstop => exact .inl (hstops.mp hstop)
    · obtain ⟨g, hg, -⟩ := bind_eq_ok.mp h
      exact .inr ⟨g, hg⟩
  · intro h
    by_cases hstop : options.StopsAt files
    · rw [if_pos (hstops.mpr hstop)]
      exact ⟨_, rfl⟩
    · obtain ⟨g, hg⟩ := h.resolve_left hstop
      rw [if_neg (mt hstops.mp hstop)]
      exact ⟨_, bind_eq_ok.mpr ⟨g, hg, rfl⟩⟩

/-- A check gives a report if problems of the manifest end it, or if there is no manifest, or if no file
that is reached from the entrypoints is in the way; and only then. -/
theorem check_returns_iff (files : FileSet) (options : CheckOptions) :
    (∃ result, check files options = .ok result) ↔
      options.StopsAt files ∨ (Manifest.load files).manifest = none
        ∨ ∀ source fault, (options.packageOf files).Reached source →
          ¬ ImportGraph.FileFails ⟨options.packageOf files, options.registry, files.outlines⟩ source
            fault := by
  rw [check_eq_ok_iff]
  refine or_congr_right ?_
  unfold importGraph
  split
  · next hsome =>
    have hmanifest : (Manifest.load files).manifest ≠ none := Option.isSome_iff_ne_none.mp hsome
    rw [or_iff_right hmanifest]
    constructor
    · rintro ⟨g, hg⟩ source fault hreached
      exact ImportGraph.not_fails_of_build (p := options.packageOf files) hg hreached
    · intro hfree
      cases h : ImportGraph.build ⟨options.packageOf files, options.registry, files.outlines⟩ with
      | ok g => exact ⟨g, rfl⟩
      | error fault =>
        obtain ⟨source, hreached, hfails⟩ := ImportGraph.exists_fails h rfl
        exact absurd hfails (hfree source fault hreached)
  · next hnone =>
    have hmanifest : (Manifest.load files).manifest = none :=
      Option.not_isSome_iff_eq_none.mp hnone
    exact iff_of_true ⟨{}, rfl⟩ (.inl hmanifest)

/-! ## An escape that is too large -/

/-- A package with a string in which an escape names a number beyond 32 bits. -/
def escapeFiles : FileSet where
  files :=
    [⟨"lib.typ", "#let x = \"\\u\x7b80000000\x7d\"\n".toUTF8⟩,
     ⟨"typst.toml",
      "[package]\nname = \"demo\"\nversion = \"1.0.0\"\nentrypoint = \"lib.typ\"\n".toUTF8⟩]
  escapedLinks := []
  sorted := by decide

/-- Content of a package can keep a check from giving any report. -/
theorem check_fails_escape : ¬ ∃ result, check escapeFiles {} = .ok result := by
  have hnone : (check escapeFiles {}).toOption.isNone = true := by decide +kernel
  rintro ⟨result, h⟩
  rw [h] at hnone
  cases hnone

end TypstLint
