import Mathlib.Data.List.Nodup
import TypstLint.Check
import TypstLint.Proofs.Rules.Outdated

set_option autoImplicit false

/-! # The names on diagnostics

What a rule finds carries the name of the rule. Two rules about the manifest have a second name each,
and the report of a failure has one that all rules share. So a diagnostic with another name tells which
rule found it (`mem_runAll_iff`). -/

namespace TypstLint

variable {rule : Rule} {ctx : Context} {d : Diagnostic}

/-- The names on diagnostics that are no names of rules. -/
def Rule.sharedNames : List String :=
  [Rule.failureId, "manifest/malformed", "manifest/version-mismatch"]

/-- The names that a rule gives to what it finds: its own, and for some rules a second one. -/
def Rule.names (rule : Rule) : List String :=
  rule.id :: match rule.id with
    | "manifest/invalid" => ["manifest/malformed"]
    | "manifest/name-mismatch" => ["manifest/version-mismatch"]
    | _ => []

/-- What a rule finds, whatever it looks at, carries one of the names of the rule. -/
def Rule.IsNamed (rule : Rule) : Prop :=
  ∀ ctx ds, rule.evaluate ctx = .ok ds → ∀ d ∈ ds, d.ruleId ∈ rule.names

theorem Rule.id_mem_names (rule : Rule) : rule.id ∈ rule.names := List.mem_cons_self

theorem Rule.eq_id_or_mem_sharedNames {name : String} (h : name ∈ rule.names) :
    name = rule.id ∨ name ∈ Rule.sharedNames := by
  refine (List.mem_cons.mp h).imp_right fun h => ?_
  split at h
  · exact List.mem_singleton.mp h ▸ (by decide)
  · exact List.mem_singleton.mp h ▸ (by decide)
  · cases h

theorem Rule.IsNamed.ruleId_mem (h : rule.IsNamed) (hd : d ∈ rule.run ctx) :
    d.ruleId ∈ rule.names ∨ ∃ fault, d = rule.failure fault := by
  unfold Rule.run at hd
  split at hd
  · next ds hds => exact .inl (h ctx ds hds d hd)
  · next fault _ => exact .inr ⟨fault, List.mem_singleton.mp hd⟩

namespace Rules

/-! ## Ways to find diagnostics -/

theorem ruleId_mem_of_mem_singleton {found : Diagnostic} (h : d ∈ [found]) (hid : found.ruleId = rule.id) :
    d.ruleId ∈ rule.names := by
  rw [List.mem_singleton.mp h, hid]
  exact rule.id_mem_names

theorem isNamed_total {id : String} {f : Context → List Diagnostic}
    (h : ∀ ctx, ∀ d ∈ f ctx, d.ruleId ∈ (Rule.total id f).names) : (Rule.total id f).IsNamed := by
  intro ctx ds hds d hd
  obtain rfl := Except.ok.inj hds
  exact h ctx d hd

/-- A rule that turns each of some things into a diagnostic. -/
theorem isNamed_map {α : Type} {id : String} {f : Context → List α} {g : Context → α → Diagnostic}
    (h : ∀ ctx a, (g ctx a).ruleId = id) :
    (Rule.total id fun ctx => (f ctx).map (g ctx)).IsNamed := by
  refine isNamed_total fun ctx d hd => ?_
  obtain ⟨a, -, rfl⟩ := List.mem_map.mp hd
  rw [h]
  exact Rule.id_mem_names _

/-- A rule that finds at most one diagnostic. -/
theorem isNamed_ite {id : String} {p : Context → Bool} {g : Context → Diagnostic}
    (h : ∀ ctx, (g ctx).ruleId = id) :
    (Rule.total id fun ctx => if p ctx then [g ctx] else []).IsNamed := by
  refine isNamed_total fun ctx d hd => ?_
  split at hd
  · exact ruleId_mem_of_mem_singleton hd (h ctx)
  · cases hd

/-! ## The rules -/

theorem isNamed_manifestProblems : manifestProblems.IsNamed := by
  refine isNamed_total fun ctx d hd => ?_
  obtain ⟨problem, -, rfl⟩ := List.mem_map.mp hd
  show problem.ruleId ∈ ["manifest/invalid", "manifest/malformed"]
  cases problem with
  | noFile | invalid => exact List.mem_cons_self
  | notUtf8 | malformed => decide

theorem isNamed_manifestIdentity : manifestIdentity.IsNamed := by
  refine isNamed_total fun ctx d hd => ?_
  split at hd
  · rcases List.mem_append.mp hd with hd | hd
    · split at hd
      · cases hd
      · exact ruleId_mem_of_mem_singleton hd rfl
    · split at hd
      · cases hd
      · rw [List.mem_singleton.mp hd]
        show "manifest/version-mismatch" ∈ ["manifest/name-mismatch", "manifest/version-mismatch"]
        decide
  · cases hd

theorem isNamed_manifestMetadata : manifestMetadata.IsNamed := by
  refine isNamed_total fun ctx d hd => ?_
  split at hd
  · split at hd
    · obtain ⟨⟨key, present⟩, -, hd⟩ := List.mem_filterMap.mp hd
      simp only [Option.ite_none_left_eq_some, Option.some.injEq] at hd
      rw [← hd.2]
      exact List.mem_cons_self
    · cases hd
  · cases hd

theorem isNamed_unresolvedImports : unresolvedImports.IsNamed := by
  refine isNamed_total fun ctx d hd => ?_
  obtain ⟨e, -, hd⟩ := List.mem_filterMap.mp hd
  obtain ⟨problem, -, rfl⟩ := Option.map_eq_some_iff.mp hd
  exact List.mem_cons_self

theorem isNamed_packagesNotFound : packagesNotFound.IsNamed := by
  refine isNamed_total fun ctx d hd => ?_
  obtain ⟨e, -, hd⟩ := List.mem_filterMap.mp hd
  unfold notFoundDiagnostic? at hd
  split at hd
  · rw [← Option.some.inj hd]
    exact List.mem_cons_self
  · cases hd

theorem isNamed_outdatedImports : outdatedImports.IsNamed := by
  intro ctx ds hds d hd
  obtain ⟨r, -, e, -, spec, v, -, rfl⟩ := (mem_outdatedImports_iff hds).mp hd
  exact List.mem_cons_self

theorem isNamed_sourceIssues : sourceIssues.IsNamed := by
  intro ctx ds hds d hd
  obtain ⟨dss, hdss, h⟩ := bind_eq_ok.mp hds
  obtain rfl := Except.ok.inj h
  obtain ⟨found, hfound, hd⟩ := List.mem_flatten.mp hd
  obtain ⟨⟨path, outline⟩, -, h⟩ := exists_of_mem_mapM hdss hfound
  obtain ⟨outline, -, h⟩ := bind_eq_ok.mp h
  obtain rfl := Except.ok.inj h
  obtain ⟨issue, -, rfl⟩ := List.mem_map.mp hd
  exact List.mem_cons_self

theorem isNamed_kebabCase : kebabCase.IsNamed := by
  intro ctx ds hds d hd
  simp only [kebabCase] at hds
  split at hds
  · obtain rfl := Except.ok.inj hds
    cases hd
  · obtain ⟨names, -, h⟩ := bind_eq_ok.mp hds
    obtain ⟨dss, hdss, h⟩ := bind_eq_ok.mp h
    obtain rfl := Except.ok.inj h
    obtain ⟨found, hfound, hd⟩ := List.mem_flatten.mp hd
    obtain ⟨path, -, h⟩ := exists_of_mem_mapM hdss hfound
    obtain ⟨outline?, -, h⟩ := bind_eq_ok.mp h
    cases outline? with
    | none =>
      obtain rfl := Except.ok.inj h
      cases hd
    | some outline =>
      obtain rfl := Except.ok.inj h
      obtain ⟨b, -, hd⟩ := List.mem_flatMap.mp hd
      rcases List.mem_append.mp hd with hd | hd
      · split at hd
        · cases hd
        · exact ruleId_mem_of_mem_singleton hd rfl
      · obtain ⟨param, -, rfl⟩ := List.mem_map.mp hd
        exact List.mem_cons_self

theorem isNamed_readmeExtensions : readmeExtensions.IsNamed := by
  refine isNamed_total fun ctx d hd => ?_
  split at hd
  · cases hd
  · obtain ⟨found, -, rfl⟩ := List.mem_map.mp hd
    exact List.mem_cons_self

theorem isNamed_readmeExamples : readmeExamples.IsNamed := by
  intro ctx ds hds d hd
  simp only [readmeExamples] at hds
  split at hds
  · obtain rfl := Except.ok.inj hds
    cases hd
  · obtain ⟨dss, hdss, rfl⟩ := map_eq_ok.mp hds
    obtain ⟨found, hfound, hd⟩ := List.mem_flatten.mp hd
    obtain ⟨block, -, h⟩ := exists_of_mem_mapM hdss hfound
    obtain ⟨outline, -, rfl⟩ := map_eq_ok.mp h
    obtain ⟨issue, -, rfl⟩ := List.mem_map.mp hd
    exact List.mem_cons_self

theorem isNamed_authorsChanged : authorsChanged.IsNamed := by
  intro ctx ds hds d hd
  simp only [authorsChanged] at hds
  split at hds
  · obtain rfl := Except.ok.inj hds
    cases hd
  · obtain ⟨previous?, -, rfl⟩ := map_eq_ok.mp hds
    split at hd
    · cases hd
    · split at hd
      · cases hd
      · exact ruleId_mem_of_mem_singleton hd rfl

/-- What a rule finds carries its name. -/
theorem isNamed_of_mem_all (h : rule ∈ all) : rule.IsNamed := by
  simp only [all, List.mem_cons, List.not_mem_nil, or_false] at h
  rcases h with rfl | rfl | rfl | rfl | rfl | rfl | rfl | rfl | rfl | rfl | rfl | rfl | rfl | rfl
    | rfl | rfl | rfl | rfl | rfl | rfl
  · exact isNamed_manifestProblems
  · exact isNamed_manifestIdentity
  · exact isNamed_manifestMetadata
  · exact isNamed_ite fun _ => rfl
  · exact isNamed_unresolvedImports
  · exact isNamed_packagesNotFound
  · exact isNamed_map fun _ _ => rfl
  · exact isNamed_map fun _ _ => rfl
  · exact isNamed_outdatedImports
  · exact isNamed_map fun _ _ => rfl
  · exact isNamed_map fun _ _ => rfl
  · exact isNamed_map fun _ _ => rfl
  · exact isNamed_map fun _ _ => rfl
  · exact isNamed_map fun _ _ => rfl
  · exact isNamed_sourceIssues
  · exact isNamed_kebabCase
  · exact isNamed_ite fun _ => rfl
  · exact isNamed_readmeExtensions
  · exact isNamed_readmeExamples
  · exact isNamed_authorsChanged

theorem ids_nodup : (all.map (·.id)).Nodup := by decide

/-- A diagnostic whose name is that of a rule was found by this rule. -/
theorem mem_runAll_iff (hrule : rule ∈ all) (hname : rule.id ∉ Rule.sharedNames)
    (hid : d.ruleId = rule.id) : d ∈ Rule.runAll all ctx ↔ d ∈ rule.run ctx := by
  constructor
  · intro hd
    obtain ⟨other, hother, hd⟩ := List.mem_flatMap.mp hd
    rw [← hid] at hname
    rcases (isNamed_of_mem_all hother).ruleId_mem hd with hmem | ⟨fault, rfl⟩
    · -- the rule that found the diagnostic has the same name, and names do not repeat
      have heq := (Rule.eq_id_or_mem_sharedNames hmem).resolve_right hname
      rwa [List.inj_on_of_nodup_map ids_nodup hrule hother (hid.symm.trans heq)]
    · exact absurd List.mem_cons_self hname
  · exact fun hd => List.mem_flatMap.mpr ⟨rule, hrule, hd⟩

end Rules

end TypstLint
