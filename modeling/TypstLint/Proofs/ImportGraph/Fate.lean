import TypstLint.Proofs.ImportGraph.Explore
import TypstLint.Proofs.Markup.Targets

set_option autoImplicit false

/-! # What becomes of an import

An import is fine, or it leads nowhere, or it names a package that is not in the registry. `Fate.Holds`
says when, in terms of the package and the registry alone. A target has at most one fate
(`Fate.Holds.unique`), and the edges of a graph that is built have theirs (`Settles.holds`). -/

namespace TypstLint

open Markup (Directive Literal targetStarts)

namespace Package

/-- The target leads nowhere: out of the package, to a file that is missing, or it is no
specification. -/
inductive Unresolved (p : Package) (source target : String) : Prop where
  | outside (hrelative : ¬ NamesPackage target) (hpath : resolveRelative source target = none)
  | missing (path : String) (hrelative : ¬ NamesPackage target)
      (hpath : resolveRelative source target = some path) (hfile : p.files.contains path = false)
  | invalidSpec (error : SpecError) (hpackage : NamesPackage target)
      (hparse : Spec.parse target = .error error)

variable {p : Package} {source target path : String} {spec spec' : Spec}

theorem Unresolved.not_leadsTo (h : p.Unresolved source target) :
    ¬ p.LeadsTo source target path := by
  intro hleads
  cases hleads with
  | relative hrelative hpath hfile =>
    cases h with
    | outside _ hpath' => exact absurd (hpath'.symm.trans hpath) (by simp)
    | missing _ _ hpath' hfile' =>
      obtain rfl := Option.some.inj (hpath'.symm.trans hpath)
      exact absurd (hfile'.symm.trans hfile) (by simp)
    | invalidSpec _ hpackage => exact hrelative hpackage
  | self spec hpackage hparse hown =>
    cases h with
    | outside hrelative | missing _ hrelative => exact hrelative hpackage
    | invalidSpec _ _ hparse' => exact absurd (hparse'.symm.trans hparse) (by simp)

theorem IsOther.not_leadsTo (h : p.IsOther target spec) : ¬ p.LeadsTo source target path := by
  intro hleads
  cases hleads with
  | relative hrelative => exact hrelative h.namesPackage
  | self _ _ hparse hown =>
    obtain rfl := Except.ok.inj (h.parse.symm.trans hparse)
    exact h.other path hown

theorem IsOther.not_unresolved (h : p.IsOther target spec) : ¬ p.Unresolved source target := by
  intro hunresolved
  cases hunresolved with
  | outside hrelative | missing _ hrelative => exact hrelative h.namesPackage
  | invalidSpec _ _ hparse => exact absurd (hparse.symm.trans h.parse) (by simp)

theorem IsOther.spec_eq (h : p.IsOther target spec) (h' : p.IsOther target spec') : spec = spec' :=
  Except.ok.inj (h.parse.symm.trans h'.parse)

end Package

/-- What becomes of an import. -/
inductive Fate where
  /-- It leads to a file, or to a package that is not known to be missing. -/
  | fine
  | unresolved
  | notFound
  deriving DecidableEq

namespace Fate

/-- The rule that reports a fate. -/
def ruleId? : Fate → Option String
  | fine => none
  | unresolved => some "imports/unresolved"
  | notFound => some "imports/package-not-found"

/-- Whether a target in the file `source` has a fate. -/
inductive Holds (p : Package) (registry : Option Registry) (source target : String) :
    Fate → Prop where
  | file {path : String} (hleads : p.LeadsTo source target path) :
      Holds p registry source target .fine
  | unchecked {spec : Spec} (hother : p.IsOther target spec) (hregistry : registry = none) :
      Holds p registry source target .fine
  | found {spec : Spec} {r : Registry} (hother : p.IsOther target spec) (hregistry : registry = some r)
      (hfound : r.hasPackage spec = .ok true) : Holds p registry source target .fine
  | unresolved (h : p.Unresolved source target) : Holds p registry source target .unresolved
  | notFound {spec : Spec} {r : Registry} (hother : p.IsOther target spec)
      (hregistry : registry = some r) (habsent : r.hasPackage spec = .ok false) :
      Holds p registry source target .notFound

variable {p : Package} {registry : Option Registry} {source target : String} {fate fate' : Fate}

/-- A target that names another package and is fine is not one that is not found. -/
theorem not_found_and_absent {spec spec' : Spec} {r r' : Registry} (h : p.IsOther target spec)
    (h' : p.IsOther target spec') (hr : registry = some r) (hr' : registry = some r')
    (hfound : r.hasPackage spec = .ok true) : ¬ r'.hasPackage spec' = .ok false := by
  obtain rfl := h.spec_eq h'
  obtain rfl := Option.some.inj (hr.symm.trans hr')
  simp [hfound]

/-- A target has one fate. -/
theorem Holds.unique (h : Holds p registry source target fate)
    (h' : Holds p registry source target fate') : fate = fate' := by
  cases h with
  | file hleads =>
    cases h' with
    | file | unchecked | found => rfl
    | unresolved hunresolved => exact absurd hleads hunresolved.not_leadsTo
    | notFound hother => exact absurd hleads hother.not_leadsTo
  | unchecked hother hregistry =>
    cases h' with
    | file | unchecked | found => rfl
    | unresolved hunresolved => exact absurd hunresolved hother.not_unresolved
    | notFound _ hregistry' => exact absurd (hregistry.symm.trans hregistry') (by simp)
  | found hother hregistry hfound =>
    cases h' with
    | file | unchecked | found => rfl
    | unresolved hunresolved => exact absurd hunresolved hother.not_unresolved
    | notFound hother' hregistry' habsent =>
      exact absurd habsent (not_found_and_absent hother hother' hregistry hregistry' hfound)
  | unresolved hunresolved =>
    cases h' with
    | unresolved => rfl
    | file hleads => exact absurd hleads hunresolved.not_leadsTo
    | unchecked hother | found hother | notFound hother =>
      exact absurd hunresolved hother.not_unresolved
  | notFound hother hregistry habsent =>
    cases h' with
    | notFound => rfl
    | file hleads => exact absurd hleads hother.not_leadsTo
    | unchecked _ hregistry' => exact absurd (hregistry.symm.trans hregistry') (by simp)
    | found hother' hregistry' hfound =>
      exact absurd habsent (not_found_and_absent hother' hother hregistry' hregistry hfound)
    | unresolved hunresolved => exact absurd hunresolved hother.not_unresolved

end Fate

/-- The fate of an import by its resolution. -/
def Resolution.fate : Resolution → Fate
  | file _ | self .. | package _ .found | package _ .unchecked => .fine
  | outside _ | missing .. | invalidSpec _ => .unresolved
  | package _ .notFound => .notFound

namespace ImportGraph

variable {input : Input} {nodes : List String} {edges : List Edge} {source target : String}
  {next : Nat}

/-- A resolution that is settled tells the fate of the target. -/
theorem Settles.holds {r : Resolution} (h : Settles input nodes source target r) :
    r.fate.Holds input.package input.registry source target := by
  cases h with
  | file hrelative hpath hfile => exact .file (.relative hrelative hpath hfile)
  | outside hrelative hpath => exact .unresolved (.outside hrelative hpath)
  | missing hrelative hpath hfile => exact .unresolved (.missing _ hrelative hpath hfile)
  | self hpackage hparse hown => exact .file (.self _ hpackage hparse hown)
  | @package spec status hother hstatus =>
    unfold packageStatus at hstatus
    cases hregistry : input.registry with
    | none =>
      rw [hregistry] at hstatus
      obtain rfl := Except.ok.inj hstatus
      exact .unchecked hother rfl
    | some r =>
      rw [hregistry] at hstatus
      obtain ⟨found, hfound, rfl⟩ := map_eq_ok.mp hstatus
      cases found with
      | true => exact .found hother rfl hfound
      | false => exact .notFound hother rfl hfound
  | invalidSpec hpackage hparse => exact .unresolved (.invalidSpec _ hpackage hparse)

/-! ## Different edges at different places -/

theorem nodup_starts {fs : FileSet} {path : String} {ds : List Directive}
    (h : fs.LiteralDirectives path ds) : (ds.map fun d => d.target.map (·.span.start)).Nodup := by
  unfold FileSet.LiteralDirectives at h
  split at h
  · rw [h]
    exact .nil
  · obtain ⟨outline, hscan, rfl⟩ := h
    -- every directive of the list has a target, so no start is missing from those of the scan
    have hpairwise := List.pairwise_filterMap.mp (Markup.scan_targets hscan)
    refine List.pairwise_map.mpr ((hpairwise.filter _).imp_of_mem ?_)
    intro a b ha hb hlt heq
    obtain ⟨lit, hlit⟩ := Option.isSome_iff_exists.mp (List.mem_filter.mp ha).2
    have hstart : a.target.map (·.span.start) = some lit.span.start := by rw [hlit, Option.map_some]
    exact absurd (hlt _ hstart _ (heq ▸ hstart)) (Int.lt_irrefl _)

/-- Two edges of one file whose targets start at one place are the same. -/
theorem Exploring.edge_eq (h : Exploring input nodes.length nodes edges) {e e' : Edge}
    (he : e ∈ edges) (he' : e' ∈ edges) (hsource : e.source = e'.source)
    (hstart : e.directive.target.map (·.span.start) = e'.directive.target.map (·.span.start)) :
    e = e' := by
  obtain ⟨path, hpath, -⟩ := h.settled e he
  have hnodup := nodup_starts (h.directives e.source (h.source_lt e he) path hpath)
  rw [List.map_map] at hnodup
  have hmem : e ∈ edges.filter (·.source == e.source) := by simp [he]
  have hmem' : e' ∈ edges.filter (·.source == e.source) := by simp [he', hsource]
  exact List.inj_on_of_nodup_map hnodup hmem hmem' hstart

end ImportGraph

end TypstLint
