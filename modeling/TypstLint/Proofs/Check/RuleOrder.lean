import TypstLint.Check
import TypstLint.Proofs.Package.Spec
import TypstLint.Proofs.Report.Order
import TypstLint.Proofs.Rules.Names

set_option autoImplicit false

/-! # The order of the rules

Every rule looks at the same things, and no two rules find diagnostics with the same name and wording,
not even when they fail. A report sorts diagnostics by name and wording, among others, so the order in
which the rules are applied makes no difference to it (`check_of_perm_rules`). -/

namespace TypstLint

open Diagnostic (words)

variable {rules rules' : List Rule} {ctx : Context}

namespace Rule

variable {a b : Rule}

/-! ## Rules apart -/

/-- Two rules that do not find diagnostics with the same name and wording. -/
def Apart (ctx : Context) (a b : Rule) : Prop :=
  ∀ d ∈ a.run ctx, ∀ e ∈ b.run ctx, d.words ≠ e.words

theorem Apart.symm (h : Apart ctx a b) : Apart ctx b a :=
  fun d hd e he heq => h e he d hd heq.symm

/-- Of two rules that are apart, at most one finds diagnostics with given words. -/
theorem Apart.filter_words_append_comm (h : Apart ctx a b) (w : String × String) :
    (a.run ctx).filter (words · = w) ++ (b.run ctx).filter (words · = w)
      = (b.run ctx).filter (words · = w) ++ (a.run ctx).filter (words · = w) := by
  by_cases ha : (a.run ctx).filter (words · = w) = []
  · rw [ha, List.nil_append, List.append_nil]
  · obtain ⟨d, hd⟩ := List.exists_mem_of_ne_nil _ ha
    obtain ⟨hd, hw⟩ := List.mem_filter.mp hd
    have hb : (b.run ctx).filter (words · = w) = [] := by
      refine List.filter_eq_nil_iff.mpr fun e he hew => h d hd e he ?_
      rw [of_decide_eq_true hw, of_decide_eq_true hew]
    rw [hb, List.nil_append, List.append_nil]

/-- What rules that are apart find with given words does not depend on their order. -/
theorem filter_words_runAll_of_perm (hperm : rules.Perm rules')
    (hapart : rules.Pairwise (Apart ctx)) (w : String × String) :
    (runAll rules ctx).filter (words · = w) = (runAll rules' ctx).filter (words · = w) := by
  have hcons (rule : Rule) (rules : List Rule) : (runAll (rule :: rules) ctx).filter (words · = w)
      = (rule.run ctx).filter (words · = w) ++ (runAll rules ctx).filter (words · = w) := by
    rw [runAll, List.flatMap_cons, List.filter_append]
    rfl
  induction hperm with
  | nil => rfl
  | cons rule _ ih =>
    obtain ⟨-, hrest⟩ := List.pairwise_cons.mp hapart
    rw [hcons, hcons, ih hrest]
  | swap a b rest =>
    obtain ⟨hfirst, -⟩ := List.pairwise_cons.mp hapart
    have hab : Apart ctx b a := hfirst a List.mem_cons_self
    rw [hcons, hcons, hcons, hcons, ← List.append_assoc, ← List.append_assoc,
      hab.filter_words_append_comm]
  | trans hperm _ ih ih' =>
    rw [ih hapart, ih' ((hperm.pairwise_iff fun h => Apart.symm h).mp hapart)]

/-! ## Names and failures -/

/-- Rules with names of their own, in which no backtick stands. -/
structure Distinguished (a b : Rule) : Prop where
  id_ne : a.id ≠ b.id
  names : ∀ name ∈ a.names, name ∉ b.names
  plain : '`' ∉ a.id.toList ∧ '`' ∉ b.id.toList
  failure : failureId ∉ a.names ∧ failureId ∉ b.names

theorem toList_failure_message (rule : Rule) (fault : Fault) : ∃ rest,
    (rule.failure fault).message.toList = "Rule `".toList ++ (rule.id.toList ++ '`' :: rest) := by
  refine ⟨" failed internally: ".toList ++ (fault.label.toList ++ (": ".toList ++ fault.message.toList)), ?_⟩
  simp [failure, toString]

/-- The report of a failure tells which rule failed. -/
theorem id_eq_of_failure_message {fault fault' : Fault} (ha : '`' ∉ a.id.toList) (hb : '`' ∉ b.id.toList)
    (h : (a.failure fault).message = (b.failure fault').message) : a.id = b.id := by
  obtain ⟨rest, hrest⟩ := toList_failure_message a fault
  obtain ⟨rest', hrest'⟩ := toList_failure_message b fault'
  rw [← String.toList_inj, hrest, hrest'] at h
  obtain ⟨hid, -⟩ := append_cons_inj_of_first ha hb (List.append_cancel_left h)
  exact String.toList_inj.mp hid

theorem Distinguished.apart (h : Distinguished a b) (ha : a.IsNamed) (hb : b.IsNamed) (ctx : Context) :
    Apart ctx a b := by
  intro d hd e he hwords
  obtain ⟨hid, hmessage⟩ := Prod.mk.inj hwords
  rcases ha.ruleId_mem hd with hd | ⟨fault, rfl⟩
  · rcases hb.ruleId_mem he with he | ⟨fault', rfl⟩
    · exact h.names _ hd (hid ▸ he)
    · have hid : d.ruleId = failureId := hid
      exact h.failure.1 (hid ▸ hd)
  · rcases hb.ruleId_mem he with he | ⟨fault', rfl⟩
    · have hid : failureId = e.ruleId := hid
      exact h.failure.2 (hid ▸ he)
    · exact h.id_ne (id_eq_of_failure_message h.plain.1 h.plain.2 hmessage)

end Rule

theorem Rules.pairwise_apart_all (ctx : Context) : Rules.all.Pairwise (Rule.Apart ctx) := by
  have hnames : Rules.all.Pairwise fun a b => a.id ≠ b.id ∧ (∀ name ∈ a.names, name ∉ b.names)
      ∧ ('`' ∉ a.id.toList ∧ '`' ∉ b.id.toList)
      ∧ Rule.failureId ∉ a.names ∧ Rule.failureId ∉ b.names := by
    decide +kernel
  refine hnames.imp_of_mem fun {a b} ha hb h => ?_
  obtain ⟨hid, hnames, hplain, hfailure⟩ := h
  exact Rule.Distinguished.apart ⟨hid, hnames, hplain, hfailure⟩ (isNamed_of_mem_all ha)
    (isNamed_of_mem_all hb) ctx

/-! ## Checks -/

/-- A check gives the same result, or fails in the same way, in whatever order it applies the rules. -/
theorem check_of_perm_rules (files : FileSet) (options : CheckOptions) (h : rules.Perm Rules.all) :
    check files { options with rules } = check files { options with rules := Rules.all } := by
  have hreport (package : String) (ctx : Context) :
      Report.ofDiagnostics package (Rule.runAll rules ctx)
        = Report.ofDiagnostics package (Rule.runAll Rules.all ctx) := by
    refine (Report.ofDiagnostics_eq_of_filter_words package fun w => ?_).symm
    exact Rule.filter_words_runAll_of_perm h.symm (Rules.pairwise_apart_all ctx) w
  unfold check
  dsimp only
  split
  · rfl
  · simp only [hreport]

/-- A package without a manifest, in which the scan of a source fails. -/
def failingFiles : FileSet where
  files := [⟨"lib.typ", "#let x = \"\\u\x7b80000000\x7d\"\n".toUTF8⟩]
  escapedLinks := []
  sorted := by decide

/-- What the rules look at in this package. -/
def failingContext : Context where
  package := ⟨failingFiles, none, none⟩
  graph := {}
  outlines := failingFiles.outlines
  manifestProblems := [.noFile]
  registry := none
  publication := false
  manifestText := none

/-- The error about the manifest that is not there. -/
def noManifest : Diagnostic :=
  ⟨.error, "manifest/invalid", "The package has no typst.toml file", some "typst.toml", none⟩

/-- The rules are applied from the last to the first, and one of them fails. -/
theorem check_reversed_rules_failing : Rules.all.reverse.Perm Rules.all
    ∧ ∃ result, check failingFiles { rules := Rules.all.reverse } = .ok result
      ∧ check failingFiles { rules := Rules.all } = .ok result
      ∧ result.report.diagnostics = [Rules.sourceIssues.failure .escapeTooLarge, noManifest] := by
  have hperm : Rules.all.reverse.Perm Rules.all := List.reverse_perm _
  have hcheck : check failingFiles { rules := Rules.all } = .ok
      ⟨failingContext.package, {}, .ofDiagnostics failingContext.package.label
        (Rule.runAll Rules.all failingContext)⟩ := rfl
  have hfound : Rule.runAll Rules.all failingContext
      = [noManifest, Rules.sourceIssues.failure .escapeTooLarge] := by
    decide +kernel
  have hdistinct : Report.distinctIssues [noManifest, Rules.sourceIssues.failure .escapeTooLarge]
      = [noManifest, Rules.sourceIssues.failure .escapeTooLarge] := by
    decide
  -- the failure has no file, so it comes before what is about the manifest
  have hle : noManifest.le (Rules.sourceIssues.failure .escapeTooLarge) = false := by decide
  refine ⟨hperm, _, (check_of_perm_rules failingFiles {} hperm).trans hcheck, hcheck, ?_⟩
  rw [Report.ofDiagnostics, hfound, hdistinct]
  simp [List.mergeSort, hle]

end TypstLint
