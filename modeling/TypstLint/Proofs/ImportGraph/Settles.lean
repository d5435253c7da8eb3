import TypstLint.ImportGraph.Resolve
import TypstLint.Proofs.Except

set_option autoImplicit false

/-! # What targets lead to

`LeadsTo` says which file of a package a target leads to, without a word about the nodes of a graph.
`Settles` says what every resolution of a target stands for when the nodes of the graph are known.
Resolving a target gives a resolution that it settles (`resolveTarget_spec`), and adds no other node
than the file to which the target leads. -/

namespace TypstLint

/-- Whether a target names a package. -/
def NamesPackage (target : String) : Prop := target.toList.head? = some '@'

namespace Package

/-- Whether a specification is that of a package whose entrypoint is the file at `path`. -/
structure IsOwn (p : Package) (spec : Spec) (path : String) : Prop where
  isSelf : p.isSelf spec = true
  entrypoint : p.entrypoint = some path
  contains : p.files.contains path = true

/-- The target is the specification of a package other than the one that is checked. -/
structure IsOther (p : Package) (target : String) (spec : Spec) : Prop where
  namesPackage : NamesPackage target
  parse : Spec.parse target = .ok spec
  other : ∀ path, ¬ p.IsOwn spec path

/-- The target of a directive in the file `source` leads to a file of the package: by its path, or, if
it is the specification of the package itself, to the entrypoint. -/
inductive LeadsTo (p : Package) (source target path : String) : Prop where
  | relative (hrelative : ¬ NamesPackage target) (hpath : resolveRelative source target = some path)
      (hfile : p.files.contains path = true)
  | self (spec : Spec) (hpackage : NamesPackage target) (hparse : Spec.parse target = .ok spec)
      (hown : p.IsOwn spec path)

theorem IsOwn.path_eq {p : Package} {spec spec' : Spec} {path path' : String}
    (h : p.IsOwn spec path) (h' : p.IsOwn spec' path') : path = path' :=
  Option.some.inj (h.entrypoint.symm.trans h'.entrypoint)

theorem LeadsTo.contains {p : Package} {source target path : String}
    (h : p.LeadsTo source target path) : p.files.contains path = true := by
  cases h with
  | relative _ _ hfile => exact hfile
  | self _ _ _ hown => exact hown.contains

end Package

namespace ImportGraph

variable {input : Input} {nodes nodes' : List String} {source target path : String}

/-- What a resolution says about a target in the file `source`, for a graph with the given nodes. -/
inductive Settles (input : Input) (nodes : List String) (source target : String) :
    Resolution → Prop where
  | file {path : String} {node : Nat} (hrelative : ¬ NamesPackage target)
      (hpath : resolveRelative source target = some path)
      (hfile : input.package.files.contains path = true) (hnode : nodes[node]? = some path) :
      Settles input nodes source target (.file node)
  | outside (hrelative : ¬ NamesPackage target) (hpath : resolveRelative source target = none) :
      Settles input nodes source target (.outside target)
  | missing {path : String} (hrelative : ¬ NamesPackage target)
      (hpath : resolveRelative source target = some path)
      (hfile : input.package.files.contains path = false) :
      Settles input nodes source target (.missing target path)
  | self {spec : Spec} {path : String} {node : Nat} (hpackage : NamesPackage target)
      (hparse : Spec.parse target = .ok spec) (hown : input.package.IsOwn spec path)
      (hnode : nodes[node]? = some path) : Settles input nodes source target (.self spec node)
  | package {spec : Spec} {status : PackageStatus} (hother : input.package.IsOther target spec)
      (hstatus : packageStatus input.registry spec = .ok status) :
      Settles input nodes source target (.package spec status)
  | invalidSpec {error : SpecError} (hpackage : NamesPackage target)
      (hparse : Spec.parse target = .error error) :
      Settles input nodes source target (.invalidSpec error)

theorem getElem?_of_keeps {node : Nat} (h : nodes <+: nodes') (hnode : nodes[node]? = some path) :
    nodes'[node]? = some path := by
  obtain ⟨more, rfl⟩ := h
  obtain ⟨hlt, -⟩ := List.getElem?_eq_some_iff.mp hnode
  rw [List.getElem?_append_left hlt, hnode]

/-- What is settled stays settled when nodes are added. -/
theorem Settles.mono {r : Resolution} (h : Settles input nodes source target r)
    (hkeeps : nodes <+: nodes') : Settles input nodes' source target r := by
  cases h with
  | file hrelative hpath hfile hnode =>
    exact .file hrelative hpath hfile (getElem?_of_keeps hkeeps hnode)
  | outside hrelative hpath => exact .outside hrelative hpath
  | missing hrelative hpath hfile => exact .missing hrelative hpath hfile
  | self hpackage hparse hown hnode =>
    exact .self hpackage hparse hown (getElem?_of_keeps hkeeps hnode)
  | package hother hstatus => exact .package hother hstatus
  | invalidSpec hpackage hparse => exact .invalidSpec hpackage hparse

/-- The node of a resolution is that of the file to which the target leads. -/
theorem Settles.leadsTo {r : Resolution} {node : Nat} (h : Settles input nodes source target r)
    (hnode : r.node? = some node) :
    ∃ path, nodes[node]? = some path ∧ input.package.LeadsTo source target path := by
  cases h with
  | @file path n hrelative hpath hfile hn =>
    obtain rfl := Option.some.inj hnode
    exact ⟨path, hn, .relative hrelative hpath hfile⟩
  | @self spec path n hpackage hparse hown hn =>
    obtain rfl := Option.some.inj hnode
    exact ⟨path, hn, .self spec hpackage hparse hown⟩
  | outside | missing | package | invalidSpec => cases hnode

/-- If a target leads to a file, then its resolution does. -/
theorem Settles.node_of_leadsTo {r : Resolution} (h : Settles input nodes source target r)
    (hleads : input.package.LeadsTo source target path) :
    ∃ node, r.node? = some node ∧ nodes[node]? = some path := by
  cases hleads with
  | relative hrelative hpath hfile =>
    cases h with
    | file _ hpath' _ hnode =>
      obtain rfl := Option.some.inj (hpath'.symm.trans hpath)
      exact ⟨_, rfl, hnode⟩
    | outside _ hpath' => exact absurd (hpath'.symm.trans hpath) (by simp)
    | missing _ hpath' hfile' =>
      obtain rfl := Option.some.inj (hpath'.symm.trans hpath)
      exact absurd (hfile'.symm.trans hfile) (by simp)
    | self hpackage | invalidSpec hpackage => exact absurd hpackage hrelative
    | package hother => exact absurd hother.namesPackage hrelative
  | self spec hpackage hparse hown =>
    cases h with
    | file hrelative | outside hrelative | missing hrelative => exact absurd hpackage hrelative
    | self _ hparse' hown' hnode =>
      obtain rfl := hown'.path_eq hown
      exact ⟨_, rfl, hnode⟩
    | package hother =>
      obtain rfl := Except.ok.inj (hother.parse.symm.trans hparse)
      exact absurd hown (hother.other path)
    | invalidSpec _ hparse' => exact absurd (hparse'.symm.trans hparse) (by simp)

/-! ## Growth of the nodes -/

/-- The nodes stay in their places; what is added to them has a property, and is added once. -/
structure Grown (new : String → Prop) (nodes nodes' : List String) : Prop where
  keeps : nodes <+: nodes'
  nodup : nodes.Nodup → nodes'.Nodup
  mem_or : ∀ path ∈ nodes', path ∈ nodes ∨ new path

variable {new new' : String → Prop}

theorem Grown.refl : Grown new nodes nodes := ⟨List.prefix_rfl, id, fun _ h => .inl h⟩

theorem Grown.trans {nodes'' : List String} (h : Grown new nodes nodes')
    (h' : Grown new nodes' nodes'') : Grown new nodes nodes'' where
  keeps := h.keeps.trans h'.keeps
  nodup := h'.nodup ∘ h.nodup
  mem_or := by
    intro path hpath
    rcases h'.mem_or path hpath with hpath | hpath
    · exact h.mem_or path hpath
    · exact .inr hpath

theorem Grown.imp (h : Grown new nodes nodes') (himp : ∀ path, new path → new' path) :
    Grown new' nodes nodes' :=
  ⟨h.keeps, h.nodup, fun path hpath => (h.mem_or path hpath).imp_right (himp path)⟩

/-- Adding a node gives its number, and adds nothing else. -/
theorem addNode_spec (nodes : List String) (path : String) :
    Grown (· = path) nodes (addNode nodes path).1
      ∧ (addNode nodes path).1[(addNode nodes path).2]? = some path := by
  unfold addNode
  cases hindex : nodes.idxOf? path with
  | some node =>
    obtain ⟨hlt, heq, -⟩ := List.idxOf?_eq_some_iff.mp hindex
    exact ⟨.refl, by rw [List.getElem?_eq_getElem hlt, heq]⟩
  | none =>
    have hnew : path ∉ nodes := List.idxOf?_eq_none_iff.mp hindex
    refine ⟨⟨List.prefix_append nodes [path], fun hnodup => ?_, fun q hq => ?_⟩, by simp⟩
    · rw [List.nodup_append]
      refine ⟨hnodup, by simp, fun a ha b hb hab => hnew ?_⟩
      rwa [← List.mem_singleton.mp hb, ← hab]
    · simpa using hq

/-! ## Resolution -/

theorem isOwn_iff {spec : Spec} :
    input.package.entrypoint.filter (fun entrypoint =>
      input.package.isSelf spec && input.package.files.contains entrypoint) = some path
    ↔ input.package.IsOwn spec path := by
  rw [Option.filter_eq_some_iff, Bool.and_eq_true]
  constructor
  · rintro ⟨hentrypoint, hself, hfile⟩
    exact ⟨hself, hentrypoint, hfile⟩
  · rintro ⟨hself, hentrypoint, hfile⟩
    exact ⟨hentrypoint, hself, hfile⟩

theorem isOther_of_filter {spec : Spec} (hpackage : NamesPackage target)
    (hparse : Spec.parse target = .ok spec)
    (hnone : input.package.entrypoint.filter (fun entrypoint =>
      input.package.isSelf spec && input.package.files.contains entrypoint) = none) :
    input.package.IsOther target spec := by
  refine ⟨hpackage, hparse, fun path hown => ?_⟩
  rw [isOwn_iff.mpr hown] at hnone
  cases hnone

theorem resolvePackage_spec {r : Resolution} (hpackage : NamesPackage target)
    (h : resolvePackage input nodes target = .ok (nodes', r)) :
    Grown (input.package.LeadsTo source target) nodes nodes'
      ∧ Settles input nodes' source target r := by
  unfold resolvePackage at h
  cases hparse : Spec.parse target with
  | error e =>
    rw [hparse] at h
    cases e <;> simp only [Except.ok.injEq, Prod.mk.injEq, reduceCtorEq] at h
    all_goals
      obtain ⟨rfl, rfl⟩ := h
      exact ⟨.refl, .invalidSpec hpackage hparse⟩
  | ok spec =>
    simp only [hparse] at h
    split at h
    · next entrypoint howned =>
      have hown := isOwn_iff.mp howned
      obtain ⟨hgrown, hnode⟩ := addNode_spec nodes entrypoint
      simp only [Except.ok.injEq, Prod.mk.injEq] at h
      obtain ⟨rfl, rfl⟩ := h
      exact ⟨hgrown.imp fun q hq => hq ▸ .self spec hpackage hparse hown,
        .self hpackage hparse hown hnode⟩
    · next hnone =>
      obtain ⟨status, hstatus, heq⟩ := map_eq_ok.mp h
      obtain ⟨rfl, rfl⟩ := Prod.mk.inj heq
      exact ⟨.refl, .package (isOther_of_filter hpackage hparse hnone) hstatus⟩

/-- A target gets a resolution that it settles, and only the file to which it leads is added. -/
theorem resolveTarget_spec {r : Resolution}
    (h : resolveTarget input nodes source target = .ok (nodes', r)) :
    Grown (input.package.LeadsTo source target) nodes nodes'
      ∧ Settles input nodes' source target r := by
  unfold resolveTarget at h
  by_cases hpackage : NamesPackage target
  · rw [if_pos (beq_iff_eq.mpr hpackage)] at h
    exact resolvePackage_spec hpackage h
  · rw [if_neg (mt beq_iff_eq.mp hpackage)] at h
    cases hpath : resolveRelative source target with
    | none =>
      simp only [hpath, Except.ok.injEq, Prod.mk.injEq] at h
      obtain ⟨rfl, rfl⟩ := h
      exact ⟨.refl, .outside hpackage hpath⟩
    | some path =>
      simp only [hpath] at h
      split at h
      · next hfile =>
        obtain ⟨hgrown, hnode⟩ := addNode_spec nodes path
        simp only [Except.ok.injEq, Prod.mk.injEq] at h
        obtain ⟨rfl, rfl⟩ := h
        exact ⟨hgrown.imp fun q hq => hq ▸ .relative hpackage hpath hfile,
          .file hpackage hpath hfile hnode⟩
      · next hfile =>
        simp only [Except.ok.injEq, Prod.mk.injEq] at h
        obtain ⟨rfl, rfl⟩ := h
        exact ⟨.refl, .missing hpackage hpath (Bool.eq_false_iff.mpr hfile)⟩

/-! ## Failure -/

/-- Why a target cannot be resolved: it has a number that is too long, or the registry cannot be asked
for the package. -/
inductive TargetFails (input : Input) (target : String) : Fault → Prop where
  | numeral {digits : Nat} (hpackage : NamesPackage target)
      (hparse : Spec.parse target = .error (.numeralTooLong digits)) :
      TargetFails input target (.numeralTooLong digits)
  | registry {spec : Spec} {r : Registry} {fault : Fault} (hother : input.package.IsOther target spec)
      (hregistry : input.registry = some r) (hfails : r.hasPackage spec = .error fault) :
      TargetFails input target fault

theorem resolvePackage_fails {fault : Fault} (hpackage : NamesPackage target)
    (h : resolvePackage input nodes target = .error fault) : TargetFails input target fault := by
  unfold resolvePackage at h
  cases hparse : Spec.parse target with
  | error e =>
    rw [hparse] at h
    cases e with
    | numeralTooLong digits =>
      obtain rfl := Except.error.inj h
      exact .numeral hpackage hparse
    | _ => cases h
  | ok spec =>
    simp only [hparse] at h
    split at h
    · cases h
    · next hnone =>
      have hstatus := map_eq_error.mp h
      unfold packageStatus at hstatus
      cases hregistry : input.registry with
      | none =>
        rw [hregistry] at hstatus
        cases hstatus
      | some r =>
        rw [hregistry] at hstatus
        exact .registry (isOther_of_filter hpackage hparse hnone) hregistry
          (map_eq_error.mp hstatus)

/-- Only targets that name packages cannot be resolved. -/
theorem resolveTarget_fails {fault : Fault}
    (h : resolveTarget input nodes source target = .error fault) : TargetFails input target fault := by
  unfold resolveTarget at h
  split at h
  · next hpackage => exact resolvePackage_fails (beq_iff_eq.mp hpackage) h
  · split at h
    · cases h
    · split at h <;> cases h

end ImportGraph

end TypstLint
