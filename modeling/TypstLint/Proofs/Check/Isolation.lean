import TypstLint.Proofs.Check.ShortCircuit

set_option autoImplicit false

/-! # Rules that fail

A rule that fails keeps the others from nothing. The report tells of its failure, in a diagnostic that no
other rule finds unless it fails in the same words, and is the report without the rule otherwise: nothing else
is added, nothing is lost, and the order stays (`check_isolates`). What the rule had yielded before it failed
is dropped. -/

namespace TypstLint

open Diagnostic (words sortKey)

/-! ## A diagnostic more -/

namespace Report

variable {before after l : List Diagnostic} {d e : Diagnostic}

/-- A report that tells of `d` too: one more diagnostic among those of `r`, or `r` itself if it has `d`. -/
def Gains (r : Report) (d : Diagnostic) (r' : Report) : Prop :=
  (d ∈ r.diagnostics → r' = r)
    ∧ (d ∉ r.diagnostics → r'.package = r.package
      ∧ ∃ front behind, r.diagnostics = front ++ behind ∧ r'.diagnostics = front ++ d :: behind)

theorem Gains.mem_iff {r r' : Report} (h : r.Gains d r') :
    e ∈ r'.diagnostics ↔ e = d ∨ e ∈ r.diagnostics := by
  by_cases hd : d ∈ r.diagnostics
  · rw [h.1 hd]
    exact ⟨.inr, fun he => he.elim (fun heq => heq ▸ hd) id⟩
  · obtain ⟨-, front, behind, hr, hr'⟩ := h.2 hd
    rw [hr, hr']
    simp only [List.mem_append, List.mem_cons]
    exact or_left_comm

theorem nodup_ofDiagnostics (package : String) (ds : List Diagnostic) :
    (ofDiagnostics package ds).diagnostics.Nodup :=
  (ofDiagnostics_spec package ds).pairwise.imp fun {a b} hne (heq : a = b) => hne (heq ▸ a.sameIssue_refl)

/-- No other diagnostic of a list has the rule and the message of `d`. -/
def IsAlone (d : Diagnostic) (l : List Diagnostic) : Prop := ∀ e ∈ l, e.words = d.words → e = d

theorem IsAlone.ofDiagnostics (h : IsAlone d l) (package : String) :
    IsAlone d (ofDiagnostics package l).diagnostics :=
  fun e he => h e ((ofDiagnostics_spec package l).mem e he)

theorem IsAlone.insert (h : IsAlone d (before ++ after)) : IsAlone d (before ++ d :: after) := by
  intro e he hwords
  rw [List.mem_append, List.mem_cons] at he
  rcases he with he | rfl | he
  · exact h e (List.mem_append_left _ he) hwords
  · rfl
  · exact h e (List.mem_append_right _ he) hwords

/-- A diagnostic that is found and alone is reported. -/
theorem IsAlone.mem_ofDiagnostics (h : IsAlone d l) (package : String) (hd : d ∈ l) :
    d ∈ (Report.ofDiagnostics package l).diagnostics := by
  obtain ⟨e, he, hsame, -⟩ := (ofDiagnostics_spec package l).covered d hd
  have heq := h.ofDiagnostics package e he (Diagnostic.words_eq_of_sameIssue hsame)
  exact heq ▸ he

/-- A diagnostic that is alone is the only one with its sort key. -/
theorem IsAlone.filter_sortKey (h : IsAlone d l) (hnodup : l.Nodup) (hd : d ∈ l) :
    l.filter (sortKey · = sortKey d) = [d] := by
  obtain ⟨front, behind, rfl⟩ := List.append_of_mem hd
  obtain ⟨-, hbehind, hapart⟩ := List.nodup_append.mp hnodup
  have hnone {l' : List Diagnostic} (hl' : ∀ e ∈ l', e ∈ front ++ d :: behind ∧ e ≠ d) :
      l'.filter (sortKey · = sortKey d) = [] := by
    rw [List.filter_eq_nil_iff]
    intro e he hkey
    have hwords : e.words = d.words := congrArg Diagnostic.wordsOfKey (of_decide_eq_true hkey)
    exact (hl' e he).2 (h e (hl' e he).1 hwords)
  rw [List.filter_append, List.filter_cons_of_pos (by simp), hnone, hnone, List.nil_append]
  · intro e he
    exact ⟨by simp [he], fun heq => (List.nodup_cons.mp hbehind).1 (heq ▸ he)⟩
  · intro e he
    exact ⟨by simp [he], hapart e he d List.mem_cons_self⟩

/-- The diagnostics with another sort key say something else. -/
theorem IsAlone.filter_sortKey_of_ne (h : IsAlone d l) {k} (hk : sortKey d ≠ k) :
    l.filter (sortKey · = k) = (l.filter (words · ≠ words d)).filter (sortKey · = k) := by
  rw [List.filter_filter]
  refine List.filter_congr fun e he => ?_
  by_cases hkey : sortKey e = k
  · have hwords : words e ≠ words d := fun hwords => hk (h e he hwords ▸ hkey)
    simp [hkey, hwords]
  · simp [hkey]

theorem IsAlone.filter_words (h : IsAlone d l) (hd : d ∉ l) : l.filter (words · ≠ words d) = l := by
  rw [List.filter_eq_self]
  intro e he
  exact decide_eq_true fun hwords => hd (h e he hwords ▸ he)

/-- What says something else than a diagnostic that is found too is reported as before. -/
theorem filter_words_ofDiagnostics (package : String) (before after : List Diagnostic) (d : Diagnostic) :
    (ofDiagnostics package (before ++ d :: after)).diagnostics.filter (words · ≠ words d)
      = (ofDiagnostics package (before ++ after)).diagnostics.filter (words · ≠ words d) := by
  have hsame (a b : Diagnostic) (hab : a.sameIssue b = true) :
      decide (words a ≠ words d) = decide (words b ≠ words d) := by
    rw [Diagnostic.words_eq_of_sameIssue hab]
  rw [filter_ofDiagnostics hsame, filter_ofDiagnostics hsame]
  simp [List.filter_append]

/-- A diagnostic that is found among others and is alone is in their report, and changes nothing else. -/
theorem IsAlone.gains (h : IsAlone d (before ++ after)) (package : String) :
    (Report.ofDiagnostics package (before ++ after)).Gains d
      (Report.ofDiagnostics package (before ++ d :: after)) := by
  have hold := h.ofDiagnostics package
  have hnew := h.insert.ofDiagnostics package
  have hmem := h.insert.mem_ofDiagnostics package (by simp)
  have hnodup := nodup_ofDiagnostics package (before ++ d :: after)
  have hothers := filter_words_ofDiagnostics package before after d
  constructor
  · -- both reports are sorted, and have the same diagnostics with each key
    intro hd
    have hsame : (Report.ofDiagnostics package (before ++ d :: after)).diagnostics
        = (Report.ofDiagnostics package (before ++ after)).diagnostics := by
      refine eq_of_filter_key_eq (pairwise_sortKey_ofDiagnostics package _)
        (pairwise_sortKey_ofDiagnostics package _) fun k => ?_
      by_cases hk : sortKey d = k
      · rw [← hk, hnew.filter_sortKey hnodup hmem, hold.filter_sortKey (nodup_ofDiagnostics package _) hd]
      · rw [hnew.filter_sortKey_of_ne hk, hothers, ← hold.filter_sortKey_of_ne hk]
    exact congrArg (Report.mk package) hsame
  · intro hd
    obtain ⟨front, behind, hsplit⟩ := List.append_of_mem hmem
    rw [hsplit] at hnodup hothers hnew
    obtain ⟨-, hbehind, hapart⟩ := List.nodup_append.mp hnodup
    have hfront : IsAlone d front := fun e he => hnew e (List.mem_append_left _ he)
    have hbehind' : IsAlone d behind := fun e he => hnew e (by simp [he])
    refine ⟨rfl, front, behind, ?_, hsplit⟩
    rw [List.filter_append, List.filter_cons_of_neg (by simp), hold.filter_words hd,
      hfront.filter_words fun hd' => hapart d hd' d List.mem_cons_self rfl,
      hbehind'.filter_words (List.nodup_cons.mp hbehind).1] at hothers
    exact hothers.symm

end Report

/-! ## Courses of rules -/

/-- What a rule does when it is applied: it yields diagnostics, one after the other, until it ends or
fails. -/
structure Course where
  yielded : List Diagnostic
  fault? : Option Fault

/-- What is collected of a course that ends; of one that fails only the fault is left. -/
def Course.collect (c : Course) : Except Fault (List Diagnostic) :=
  c.yielded.foldr (fun d rest => rest.map (d :: ·)) (c.fault?.elim (.ok []) .error)

/-- The rule that takes a course. -/
def Rule.ofCourse (id : String) (course : Context → Course) : Rule := ⟨id, fun ctx => (course ctx).collect⟩

theorem Course.collect_of_fault {c : Course} {fault : Fault} (h : c.fault? = some fault) :
    c.collect = .error fault := by
  rw [collect, h, Option.elim_some]
  induction c.yielded with
  | nil => rfl
  | cons d rest ih =>
    rw [List.foldr_cons, ih]
    rfl

namespace Rule

variable {rules before after : List Rule} {rule : Rule} {ctx : Context} {d e : Diagnostic} {fault : Fault}

/-- Rules that do not find diagnostics with the name of failures themselves. -/
def LeaveFailures (rules : List Rule) (ctx : Context) : Prop :=
  ∀ rule ∈ rules, ∀ ds, rule.evaluate ctx = .ok ds → ∀ d ∈ ds, d.ruleId ≠ failureId

/-- What says the same as the report of a failure is the report of a failure, and the same one. -/
theorem eq_failure_of_words (h : LeaveFailures rules ctx) (he : e ∈ runAll rules ctx)
    (hwords : e.words = (rule.failure fault).words) : e = rule.failure fault := by
  obtain ⟨hid, hmessage⟩ := Prod.mk.inj hwords
  obtain ⟨other, hother, he⟩ := List.mem_flatMap.mp he
  unfold run at he
  split at he
  · next ds hds => exact absurd hid (h other hother ds hds e he)
  · obtain rfl := List.mem_singleton.mp he
    rw [failure, failure, Diagnostic.mk.injEq]
    exact ⟨rfl, rfl, hmessage, rfl, rfl⟩

/-- The report of rules of which one fails is the report of the others, and tells of the failure. -/
theorem gains_of_fails (package : String) (h : LeaveFailures (before ++ after) ctx)
    (hfails : rule.evaluate ctx = .error fault) :
    (Report.ofDiagnostics package (runAll (before ++ after) ctx)).Gains (rule.failure fault)
      (Report.ofDiagnostics package (runAll (before ++ rule :: after) ctx)) := by
  have hrun : rule.run ctx = [rule.failure fault] := by rw [run, hfails]
  have halone : Report.IsAlone (rule.failure fault) (runAll before ctx ++ runAll after ctx) := by
    intro e he hwords
    refine eq_failure_of_words h ?_ hwords
    rw [runAll, List.flatMap_append]
    exact he
  have hgains := halone.gains package
  rw [runAll, List.flatMap_append, runAll, List.flatMap_append, List.flatMap_cons, hrun]
  exact hgains

end Rule

/-! ## Checks -/

variable {files : FileSet} {result : CheckResult} {before after : List Rule}

/-- With a rule that fails, at whatever place among the others, a check gives the report without it and tells
of the failure. It fails, and reports nothing that the rule had yielded. -/
theorem check_isolates (spec : Option Spec) (registry : Option Registry) (publication : Bool)
    (h : check files { spec, registry, publication, rules := before ++ after } = .ok result)
    (hleave : Rule.LeaveFailures (before ++ after)
      (CheckOptions.context { spec, registry, publication } files result.graph))
    (id : String) (course : Context → Course) {fault : Fault}
    (hfault : (course (CheckOptions.context { spec, registry, publication } files result.graph)).fault?
      = some fault) :
    ∃ result', check files
        { spec, registry, publication, rules := before ++ Rule.ofCourse id course :: after } = .ok result'
      ∧ result'.package = result.package ∧ result'.graph = result.graph
      ∧ result.report.Gains ((Rule.ofCourse id course).failure fault) result'.report
      ∧ result'.report.verdict = "fail"
      ∧ ∀ d ∈ (course (CheckOptions.context { spec, registry, publication } files result.graph)).yielded,
          d ≠ (Rule.ofCourse id course).failure fault →
          (d ∈ result'.report.diagnostics ↔ d ∈ result.report.diagnostics) := by
  rw [check_of_not_stopsAt files _ fun hstops => Bool.false_ne_true hstops.1] at h
  obtain ⟨graph, hgraph, rfl⟩ := map_eq_ok.mp h
  have hcheck := check_of_not_stopsAt files
    { spec, registry, publication, rules := before ++ Rule.ofCourse id course :: after }
    fun hstops => Bool.false_ne_true hstops.1
  have hfails : (Rule.ofCourse id course).evaluate
      (CheckOptions.context { spec, registry, publication } files graph) = .error fault :=
    Course.collect_of_fault hfault
  have hgains := Rule.gains_of_fails (CheckOptions.packageOf { spec, registry, publication } files).label
    hleave hfails
  refine ⟨_, hcheck.trans (map_eq_ok.mpr ⟨graph, hgraph, rfl⟩), rfl, rfl, hgains, ?_, ?_⟩
  · exact Report.verdict_eq_fail_iff.mpr ⟨_, hgains.mem_iff.mpr (.inl rfl), rfl⟩
  · intro d _ hd
    exact hgains.mem_iff.trans (or_iff_right hd)

/-- A warning without a place. -/
def unplacedWarning (message : String) : Diagnostic := ⟨.warning, "test/broken", message, none, none⟩

/-- A rule that always finds the same. -/
def fixedRule (message : String) : Rule := .total "test/fixed" fun _ => [unplacedWarning message]

/-- A course that yields two diagnostics and then fails. -/
def brokenCourse : Course :=
  ⟨[unplacedWarning "partial output", unplacedWarning "more"], some (.raised "RuntimeError" "boom")⟩

/-- A rule that always takes this course. -/
def brokenRule : Rule := .ofCourse "test/broken" fun _ => brokenCourse

/-- Of the two diagnostics that a rule yields before it fails, only the one is reported that another rule
finds. -/
theorem check_isolates_broken : ∃ result result',
    check .empty { rules := [fixedRule "before"] ++ [fixedRule "partial output"] } = .ok result
      ∧ Rule.LeaveFailures ([fixedRule "before"] ++ [fixedRule "partial output"])
        (CheckOptions.context {} .empty result.graph)
      ∧ check .empty { rules := [fixedRule "before"] ++ brokenRule :: [fixedRule "partial output"] }
        = .ok result'
      ∧ result.report.Gains ⟨.error, "internal/rule-failure",
          "Rule `test/broken` failed internally: RuntimeError: boom", none, none⟩ result'.report
      ∧ result.report.verdict = "pass" ∧ result'.report.verdict = "fail"
      ∧ unplacedWarning "partial output" ∈ result'.report.diagnostics
      ∧ unplacedWarning "more" ∉ result'.report.diagnostics := by
  have hcheck : check .empty { rules := [fixedRule "before"] ++ [fixedRule "partial output"] } = .ok
      ⟨⟨.empty, none, none⟩, {}, .ofDiagnostics "<unknown package>"
        [unplacedWarning "before", unplacedWarning "partial output"]⟩ := rfl
  have hleave : Rule.LeaveFailures ([fixedRule "before"] ++ [fixedRule "partial output"])
      (CheckOptions.context {} .empty {}) := by
    intro rule hrule ds hds d hd
    simp only [List.mem_append, List.mem_singleton] at hrule
    rcases hrule with rfl | rfl
    · obtain rfl := Except.ok.inj hds
      obtain rfl := List.mem_singleton.mp hd
      decide
    · obtain rfl := Except.ok.inj hds
      obtain rfl := List.mem_singleton.mp hd
      decide
  have hreport (d : Diagnostic) : d ∈ (Report.ofDiagnostics "<unknown package>"
      [unplacedWarning "before", unplacedWarning "partial output"]).diagnostics ↔ _ :=
    Report.mem_ofDiagnostics_iff
  have hpass : (Report.ofDiagnostics "<unknown package>"
      [unplacedWarning "before", unplacedWarning "partial output"]).verdict = "pass" := by
    rw [Report.verdict, if_pos]
    refine List.all_eq_true.mpr fun d hd => ?_
    rcases List.mem_pair.mp ((hreport d).mp hd).1 with rfl | rfl <;> rfl
  obtain ⟨result', hcheck', -, -, hgains, hverdict, hyielded⟩ :=
    check_isolates none none false hcheck hleave "test/broken" (fun _ => brokenCourse) rfl
  refine ⟨_, result', hcheck, hleave, hcheck', hgains, hpass, hverdict, ?_, ?_⟩
  · exact (hyielded _ (by decide) (by decide)).mpr ((hreport _).mpr (by decide))
  · exact fun hmore => absurd ((hreport _).mp ((hyielded _ (by decide) (by decide)).mp hmore)).1 (by decide)

end TypstLint
