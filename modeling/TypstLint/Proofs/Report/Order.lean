import Mathlib.Data.Finset.Card
import Mathlib.Data.Prod.Lex
import Mathlib.Data.String.Basic
import TypstLint.Proofs.Report.Distinct

set_option autoImplicit false

/-! # The order of a report

A report is sorted by a key, and diagnostics with the same key stay in the order in which they were
found. Whatever this order was, the report holds the same diagnostics, and their keys come in the same
order. The report itself is the same for all orders exactly if different diagnostics in it have
different keys (`ofDiagnostics_of_perm`): of a span the key knows the start alone, so two spans with
one start and two ends can make a difference. -/

namespace TypstLint

/-! ## Sorting by a key -/

section

variable {α κ : Type} [LinearOrder κ] {key : α → κ} {le : α → α → Bool} {l l' : List α}

theorem trans_of_key (hle : ∀ a b, le a b = true ↔ key a ≤ key b) (a b c : α) (hab : le a b = true)
    (hbc : le b c = true) : le a c = true :=
  (hle a c).mpr (le_trans ((hle a b).mp hab) ((hle b c).mp hbc))

theorem total_of_key (hle : ∀ a b, le a b = true ↔ key a ≤ key b) (a b : α) :
    (le a b || le b a) = true := by
  rw [Bool.or_eq_true, hle, hle]
  exact le_total (key a) (key b)

/-- Sorting leaves the elements with one key in their order. -/
theorem filter_key_mergeSort (hle : ∀ a b, le a b = true ↔ key a ≤ key b) (l : List α) (k : κ) :
    (l.mergeSort le).filter (key · = k) = l.filter (key · = k) := by
  have hpairwise : (l.filter (key · = k)).Pairwise fun a b => le a b = true := by
    rw [List.pairwise_filter]
    refine List.pairwise_of_forall fun a b ha hb => (hle a b).mpr ?_
    rw [of_decide_eq_true ha, of_decide_eq_true hb]
  have hsublist : (l.filter (key · = k)).Sublist ((l.mergeSort le).filter (key · = k)) := by
    have hsorted := List.sublist_mergeSort (trans_of_key hle) (total_of_key hle) hpairwise
      List.filter_sublist
    simpa only [List.filter_filter, Bool.and_self] using hsorted.filter (key · = k)
  have hlength := ((l.mergeSort_perm le).filter (key · = k)).length_eq
  exact (hsublist.eq_of_length hlength.symm).symm

/-- Sorting keeps the order of the elements with one key. -/
theorem pairwise_mergeSort_of_pairwise {before : α → α → Prop}
    (hle : ∀ a b, le a b = true ↔ key a ≤ key b) (h : l.Pairwise before) :
    (l.mergeSort le).Pairwise fun a b => key a < key b ∨ key a = key b ∧ before a b := by
  have hsorted := List.pairwise_mergeSort (trans_of_key hle) (total_of_key hle) l
  rw [List.pairwise_iff_forall_sublist] at hsorted h ⊢
  intro a b hab
  rcases lt_or_eq_of_le ((hle a b).mp (hsorted hab)) with hlt | heq
  · exact .inl hlt
  · -- both are among the elements with this key, which sorting leaves as they are
    refine .inr ⟨heq, h ?_⟩
    have hfiltered := hab.filter (key · = key a)
    rw [filter_key_mergeSort hle, List.filter_cons_of_pos (by simp),
      List.filter_cons_of_pos (by simp [heq]), List.filter_nil] at hfiltered
    exact hfiltered.trans List.filter_sublist

theorem mem_iff_of_filter_key_eq (h : ∀ k, l.filter (key · = k) = l'.filter (key · = k)) (a : α) :
    a ∈ l ↔ a ∈ l' := by
  have hfilter (l : List α) : a ∈ l ↔ a ∈ l.filter (key · = key a) := by simp
  rw [hfilter l, h, ← hfilter l']

/-- A sorted list is known by its elements with each key. -/
theorem eq_of_filter_key_eq (hl : l.Pairwise fun a b => key a ≤ key b)
    (hl' : l'.Pairwise fun a b => key a ≤ key b)
    (h : ∀ k, l.filter (key · = k) = l'.filter (key · = k)) : l = l' := by
  have hmem := mem_iff_of_filter_key_eq h
  induction l generalizing l' with
  | nil =>
    cases l' with
    | nil => rfl
    | cons b rest' => cases (hmem b).mpr List.mem_cons_self
  | cons a rest ih =>
    cases l' with
    | nil => cases (hmem a).mp List.mem_cons_self
    | cons b rest' =>
      obtain ⟨hfirst, hrest⟩ := List.pairwise_cons.mp hl
      obtain ⟨hfirst', hrest'⟩ := List.pairwise_cons.mp hl'
      -- each of the two heads is in the other list, so their keys are the same
      have hab : key a ≤ key b := by
        rcases List.mem_cons.mp ((hmem b).mpr List.mem_cons_self) with rfl | hb
        · exact le_rfl
        · exact hfirst b hb
      have hba : key b ≤ key a := by
        rcases List.mem_cons.mp ((hmem a).mp List.mem_cons_self) with rfl | ha
        · exact le_rfl
        · exact hfirst' a ha
      have hkey : key b = key a := le_antisymm hba hab
      have hheads := h (key a)
      rw [List.filter_cons_of_pos (by simp), List.filter_cons_of_pos (by simp [hkey])] at hheads
      obtain rfl := (List.cons.inj hheads).1
      have htails (k : κ) : rest.filter (key · = k) = rest'.filter (key · = k) := by
        have hk := h k
        by_cases ha : key a = k
        · rw [List.filter_cons_of_pos (by simp [ha]), List.filter_cons_of_pos (by simp [ha])] at hk
          exact (List.cons.inj hk).2
        · rwa [List.filter_cons_of_neg (by simp [ha]), List.filter_cons_of_neg (by simp [ha])] at hk
      rw [ih hrest hrest' htails (mem_iff_of_filter_key_eq htails)]

end

/-! ## Keys of diagnostics -/

namespace Diagnostic

variable {a b : Diagnostic}

/-- The rule and the message of a diagnostic. -/
def words (d : Diagnostic) : String × String := (d.ruleId, d.message)

/-- What a report is sorted by: file, start, severity, rule and message. -/
def sortKey (d : Diagnostic) : String ×ₗ Int ×ₗ Nat ×ₗ String ×ₗ String :=
  toLex (d.file.getD "", toLex ((d.span.map (·.start)).getD (-1), toLex (d.severity.rank,
    toLex d.words)))

theorem thenText_ne_gt_iff {s t : String} {next : Ordering} :
    thenText s t next ≠ .gt ↔ s < t ∨ s = t ∧ next ≠ .gt := by
  unfold thenText
  rcases lt_trichotomy s t with hlt | heq | hgt
  · rw [if_pos hlt]
    exact iff_of_true (by decide) (.inl hlt)
  · rw [if_neg heq.not_lt, if_neg heq.not_gt, or_iff_right heq.not_lt, and_iff_right heq]
  · rw [if_neg hgt.not_gt, if_pos hgt]
    exact iff_of_false (by decide) fun h => h.elim hgt.not_gt fun h => hgt.ne' h.1

theorem then_ne_gt_iff {α : Type} [LinearOrder α] {x y : α} {next : Ordering} :
    (compare x y).then next ≠ .gt ↔ x < y ∨ x = y ∧ next ≠ .gt := by
  rcases lt_trichotomy x y with hlt | heq | hgt
  · rw [compare_lt_iff_lt.mpr hlt]
    exact iff_of_true Ordering.noConfusion (.inl hlt)
  · rw [compare_eq_iff_eq.mpr heq, or_iff_right heq.not_lt, and_iff_right heq]
    rfl
  · rw [compare_gt_iff_gt.mpr hgt]
    exact iff_of_false (fun h => h rfl) fun h => h.elim hgt.not_gt fun h => hgt.ne' h.1

theorem le_iff_sortKey_le (a b : Diagnostic) : a.le b = true ↔ a.sortKey ≤ b.sortKey := by
  have hlast : Ordering.eq ≠ .gt := by decide
  unfold le order sortKey words
  rw [bne_iff_ne, thenText_ne_gt_iff, then_ne_gt_iff, then_ne_gt_iff, thenText_ne_gt_iff,
    thenText_ne_gt_iff, and_iff_left hlast, ← le_iff_lt_or_eq]
  simp only [Prod.Lex.toLex_le_toLex]

/-- A key holds the rule and the message. -/
def wordsOfKey (k : String ×ₗ Int ×ₗ Nat ×ₗ String ×ₗ String) : String × String :=
  ofLex (ofLex (ofLex (ofLex k).2).2).2

theorem words_eq_of_sameIssue (h : a.sameIssue b = true) : a.words = b.words := by
  obtain ⟨hrule, -, -, hmessage⟩ := sameIssue_iff.mp h
  exact Prod.ext hrule hmessage

end Diagnostic

namespace Report

open Diagnostic

variable {d e : Diagnostic} {ds ds' found : List Diagnostic}

/-! ## Reports are sorted -/

theorem pairwise_sortKey_ofDiagnostics (package : String) (ds : List Diagnostic) :
    (ofDiagnostics package ds).diagnostics.Pairwise fun a b => sortKey a ≤ sortKey b :=
  (List.pairwise_mergeSort (trans_of_key le_iff_sortKey_le) (total_of_key le_iff_sortKey_le) _).imp
    (le_iff_sortKey_le _ _).mp

/-- In a report the diagnostics with one key are in the order in which their issues were found. -/
theorem filter_sortKey_ofDiagnostics (package : String) (ds : List Diagnostic) (k) :
    (ofDiagnostics package ds).diagnostics.filter (sortKey · = k)
      = (distinctIssues ds).filter (sortKey · = k) :=
  filter_key_mergeSort le_iff_sortKey_le _ k

/-- A report is known by the order in which the issues with each key were found. -/
theorem ofDiagnostics_eq_of_filter_sortKey (package : String)
    (h : ∀ k, (distinctIssues ds).filter (sortKey · = k) = (distinctIssues ds').filter (sortKey · = k)) :
    ofDiagnostics package ds = ofDiagnostics package ds' := by
  have heq : (ofDiagnostics package ds).diagnostics = (ofDiagnostics package ds').diagnostics := by
    refine eq_of_filter_key_eq (pairwise_sortKey_ofDiagnostics package ds)
      (pairwise_sortKey_ofDiagnostics package ds') fun k => ?_
    rw [filter_sortKey_ofDiagnostics, filter_sortKey_ofDiagnostics, h]
  exact congrArg (Report.mk package) heq

/-- A report is known by the order in which the diagnostics with each rule and message were found. -/
theorem ofDiagnostics_eq_of_filter_words (package : String)
    (h : ∀ w, ds.filter (words · = w) = ds'.filter (words · = w)) :
    ofDiagnostics package ds = ofDiagnostics package ds' := by
  refine ofDiagnostics_eq_of_filter_sortKey package fun k => ?_
  have hwords (ds : List Diagnostic) : (distinctIssues ds).filter (sortKey · = k)
      = (distinctIssues (ds.filter (words · = wordsOfKey k))).filter (sortKey · = k) := by
    rw [← filter_distinctIssues fun a b hsame => by rw [words_eq_of_sameIssue hsame], List.filter_filter]
    refine List.filter_congr fun d _ => ?_
    -- diagnostics with the key `k` have its rule and its message
    by_cases hd : d.sortKey = k
    · subst hd
      simp [wordsOfKey, sortKey]
    · simp [hd]
  rw [hwords ds, hwords ds', h]

/-- What a report has of some issues is the report of these. -/
theorem filter_ofDiagnostics {p : Diagnostic → Bool} (hp : ∀ a b, a.sameIssue b = true → p a = p b)
    (package : String) (ds : List Diagnostic) :
    (ofDiagnostics package ds).diagnostics.filter p = (ofDiagnostics package (ds.filter p)).diagnostics := by
  refine eq_of_filter_key_eq ((pairwise_sortKey_ofDiagnostics package ds).filter p)
    (pairwise_sortKey_ofDiagnostics package (ds.filter p)) fun k => ?_
  rw [filter_sortKey_ofDiagnostics, ← filter_distinctIssues hp, List.filter_comm,
    filter_sortKey_ofDiagnostics, List.filter_comm]

/-! ## Diagnostics in any order -/

theorem perm_ofDiagnostics (package : String) (h : ds'.Perm ds) :
    (ofDiagnostics package ds').diagnostics.Perm (ofDiagnostics package ds).diagnostics :=
  (List.mergeSort_perm _ _).trans ((perm_distinctIssues h).trans (List.mergeSort_perm _ _).symm)

theorem map_sortKey_ofDiagnostics (package : String) (h : ds'.Perm ds) :
    (ofDiagnostics package ds').diagnostics.map sortKey
      = (ofDiagnostics package ds).diagnostics.map sortKey :=
  ((perm_ofDiagnostics package h).map sortKey).eq_of_pairwise (fun _ _ _ _ => le_antisymm)
    (List.pairwise_map.mpr (pairwise_sortKey_ofDiagnostics package ds'))
    (List.pairwise_map.mpr (pairwise_sortKey_ofDiagnostics package ds))

/-- Any diagnostic of a report is the first with its key, if it was found first. -/
theorem exists_filter_sortKey_cons {package : String} (hd : d ∈ (ofDiagnostics package ds).diagnostics) :
    ∃ ds' rest, ds'.Perm ds
      ∧ (ofDiagnostics package ds').diagnostics.filter (sortKey · = d.sortKey) = d :: rest := by
  obtain ⟨hmem, hleast⟩ := mem_distinctIssues_iff.mp (List.mem_mergeSort.mp hd)
  obtain ⟨rest, hrest⟩ := exists_distinctIssues_cons fun e (he : e ∈ ds.erase d) =>
    hleast e (List.mem_of_mem_erase he)
  refine ⟨d :: ds.erase d, rest.filter (sortKey · = d.sortKey), (List.perm_cons_erase hmem).symm, ?_⟩
  rw [filter_sortKey_ofDiagnostics, hrest, List.filter_cons_of_pos (by simp)]

/-- However the diagnostics were ordered when they were found, the report holds the same of them, with
the same keys one after the other. It is the same report for all orders exactly if no two diagnostics
in it have one key. -/
theorem ofDiagnostics_of_perm (package : String) (ds : List Diagnostic) :
    (∀ ds', ds'.Perm ds →
      (ofDiagnostics package ds').diagnostics.Perm (ofDiagnostics package ds).diagnostics
      ∧ (ofDiagnostics package ds').diagnostics.map sortKey
          = (ofDiagnostics package ds).diagnostics.map sortKey)
    ∧ ((∀ ds', ds'.Perm ds → ofDiagnostics package ds' = ofDiagnostics package ds)
      ↔ ∀ a ∈ (ofDiagnostics package ds).diagnostics, ∀ b ∈ (ofDiagnostics package ds).diagnostics,
          a.sortKey = b.sortKey → a = b) := by
  refine ⟨fun ds' h => ⟨perm_ofDiagnostics package h, map_sortKey_ofDiagnostics package h⟩, ?_⟩
  constructor
  · intro hall a ha b hb hkey
    obtain ⟨ds₁, rest₁, hperm₁, h₁⟩ := exists_filter_sortKey_cons ha
    obtain ⟨ds₂, rest₂, hperm₂, h₂⟩ := exists_filter_sortKey_cons hb
    -- the two orders give one report, so `a` and `b` are both the first with their key
    rw [hall ds₁ hperm₁, hkey] at h₁
    rw [hall ds₂ hperm₂, h₁] at h₂
    exact (List.cons.inj h₂).1
  · intro hinj ds' h
    have hperm := perm_ofDiagnostics package h
    have heq : (ofDiagnostics package ds').diagnostics = (ofDiagnostics package ds).diagnostics :=
      hperm.eq_of_pairwise
        (fun a b ha hb hab hba => hinj a (hperm.mem_iff.mp ha) b hb (le_antisymm hab hba))
        (pairwise_sortKey_ofDiagnostics package ds') (pairwise_sortKey_ofDiagnostics package ds)
    exact congrArg (Report.mk package) heq

/-- A diagnostic about a span with a fixed start. -/
def endingAt (stop : Int) : Diagnostic := ⟨.error, "r/a", "m", some "x.typ", some ⟨3, stop⟩⟩

/-- Diagnostics that differ in the ends of their spans alone stay in the order in which they were found. -/
theorem ofDiagnostics_swapped_ends : [endingAt 5, endingAt 4].Perm [endingAt 4, endingAt 5]
    ∧ ofDiagnostics "pkg" [endingAt 5, endingAt 4] = ⟨"pkg", [endingAt 5, endingAt 4]⟩
    ∧ ofDiagnostics "pkg" [endingAt 4, endingAt 5] = ⟨"pkg", [endingAt 4, endingAt 5]⟩
    ∧ ofDiagnostics "pkg" [endingAt 5, endingAt 4] ≠ ofDiagnostics "pkg" [endingAt 4, endingAt 5] := by
  have hlate : ofDiagnostics "pkg" [endingAt 5, endingAt 4] = ⟨"pkg", [endingAt 5, endingAt 4]⟩ :=
    congrArg (Report.mk "pkg") (List.mergeSort_of_pairwise (by decide))
  have hearly : ofDiagnostics "pkg" [endingAt 4, endingAt 5] = ⟨"pkg", [endingAt 4, endingAt 5]⟩ :=
    congrArg (Report.mk "pkg") (List.mergeSort_of_pairwise (by decide))
  refine ⟨.swap _ _ _, hlate, hearly, ?_⟩
  rw [hlate, hearly]
  decide

end Report

end TypstLint

/-! ## The issues of a report

A diagnostic is about an issue: what it says, and where, whatever its severity. A report has every issue
that was found, each of them once and with the most serious severity that it was found with, in the order
of the sort keys. What it adds up to is what was found: it fails exactly if an error was found, it counts
the issues, and it is the report of its own diagnostics (`ofDiagnostics_issues`). -/

namespace TypstLint

open Text (Span)

namespace Diagnostic

variable {a b : Diagnostic}

/-- The issue that a diagnostic is about: rule, file, span and message. -/
def issue (d : Diagnostic) : String × Option String × Option Span × String :=
  (d.ruleId, d.file, d.span, d.message)

theorem sameIssue_iff_issue_eq : a.sameIssue b = true ↔ a.issue = b.issue := by
  simp only [sameIssue_iff, issue, Prod.mk.injEq]

end Diagnostic

namespace Report

open Diagnostic

variable {d : Diagnostic} {ds : List Diagnostic} {r : Report}

/-! ### Verdicts and counts -/

theorem verdict_eq_fail_iff : r.verdict = "fail" ↔ ∃ d ∈ r.diagnostics, d.severity = .error := by
  have hpassed : r.passed = true ↔ ¬ ∃ d ∈ r.diagnostics, d.severity = .error := by
    simp [passed]
  unfold verdict
  split
  · next h => exact iff_of_false (by decide) (hpassed.mp h)
  · next h => exact iff_of_true rfl (not_not.mp (mt hpassed.mpr h))

/-- Every diagnostic is counted with one of the severities. -/
theorem sum_count (r : Report) : r.count .error + r.count .warning + r.count .hint = r.diagnostics.length := by
  unfold count
  induction r.diagnostics with
  | nil => rfl
  | cons d rest ih =>
    rw [List.countP_cons, List.countP_cons, List.countP_cons, List.length_cons, ← ih]
    cases d.severity <;> simp <;> omega

/-! ### What is in a report -/

theorem nodup_issues_ofDiagnostics (package : String) (ds : List Diagnostic) :
    ((ofDiagnostics package ds).diagnostics.map issue).Nodup :=
  List.pairwise_map.mpr ((ofDiagnostics_spec package ds).pairwise.imp (mt sameIssue_iff_issue_eq.mpr))

theorem mem_issues_ofDiagnostics (package : String) (ds : List Diagnostic) (i) :
    i ∈ (ofDiagnostics package ds).diagnostics.map issue ↔ i ∈ ds.map issue := by
  have hspec := ofDiagnostics_spec package ds
  simp only [List.mem_map]
  constructor
  · rintro ⟨d, hd, rfl⟩
    exact ⟨d, hspec.mem d hd, rfl⟩
  · rintro ⟨d, hd, rfl⟩
    obtain ⟨e, he, hsame, -⟩ := hspec.covered d hd
    exact ⟨e, he, sameIssue_iff_issue_eq.mp hsame⟩

theorem mem_ofDiagnostics_iff {package : String} : d ∈ (ofDiagnostics package ds).diagnostics ↔
    d ∈ ds ∧ ∀ e ∈ ds, e.issue = d.issue → d.severity.rank ≤ e.severity.rank := by
  simp only [← sameIssue_iff_issue_eq]
  exact List.mem_mergeSort.trans mem_distinctIssues_iff

/-- A report has an error exactly if one was found. -/
theorem exists_error_ofDiagnostics_iff (package : String) (ds : List Diagnostic) :
    (∃ d ∈ (ofDiagnostics package ds).diagnostics, d.severity = .error)
      ↔ ∃ d ∈ ds, d.severity = .error := by
  have hspec := ofDiagnostics_spec package ds
  constructor
  · rintro ⟨d, hd, herror⟩
    exact ⟨d, hspec.mem d hd, herror⟩
  · rintro ⟨d, hd, herror⟩
    obtain ⟨e, he, -, hrank⟩ := hspec.covered d hd
    rw [herror] at hrank
    exact ⟨e, he, Severity.rank_inj (Nat.le_zero.mp hrank)⟩

/-- A report has as many diagnostics as there are issues among what was found. -/
theorem length_ofDiagnostics (package : String) (ds : List Diagnostic) :
    (ofDiagnostics package ds).diagnostics.length = (ds.map issue).toFinset.card := by
  have hissues : (ds.map issue).toFinset = ((ofDiagnostics package ds).diagnostics.map issue).toFinset := by
    ext i
    rw [List.mem_toFinset, List.mem_toFinset, mem_issues_ofDiagnostics]
  rw [hissues, List.toFinset_card_of_nodup (nodup_issues_ofDiagnostics package ds), List.length_map]

/-! ### The report of a report -/

/-- Diagnostics of different issues are all kept. -/
theorem distinctIssues_of_pairwise (h : ds.Pairwise fun a b => ¬ a.sameIssue b = true) :
    distinctIssues ds = ds := by
  induction ds using List.reverseRecOn with
  | nil => rfl
  | append_singleton ds d ih =>
    obtain ⟨hds, -, hnew⟩ := List.pairwise_append.mp h
    rw [distinctIssues_concat, ih hds]
    refine addIssue_of_new fun e he hsame => ?_
    exact hnew e he d (List.mem_singleton_self d) (sameIssue_symm hsame)

theorem ofDiagnostics_diagnostics (package : String) (ds : List Diagnostic) :
    ofDiagnostics package (ofDiagnostics package ds).diagnostics = ofDiagnostics package ds := by
  have hsorted : (ofDiagnostics package ds).diagnostics.Pairwise fun a b => a.le b = true :=
    (pairwise_sortKey_ofDiagnostics package ds).imp (le_iff_sortKey_le _ _).mpr
  refine congrArg (Report.mk package) ?_
  rw [distinctIssues_of_pairwise (ofDiagnostics_spec package ds).pairwise]
  exact List.mergeSort_of_pairwise hsorted

/-- A report has the issues that were found, each of them once and with the most serious of its severities,
in the order of the sort keys, and it is the report of its own diagnostics. So it fails exactly if an error
was found, and its counts add up to the number of issues. -/
theorem ofDiagnostics_issues (package : String) (ds : List Diagnostic) :
    ((ofDiagnostics package ds).diagnostics.map issue).Nodup
      ∧ (∀ i, i ∈ (ofDiagnostics package ds).diagnostics.map issue ↔ i ∈ ds.map issue)
      ∧ (∀ d ∈ (ofDiagnostics package ds).diagnostics,
          d ∈ ds ∧ ∀ e ∈ ds, e.issue = d.issue → d.severity.rank ≤ e.severity.rank)
      ∧ (ofDiagnostics package ds).diagnostics.Pairwise (fun a b => a.sortKey ≤ b.sortKey)
      ∧ ofDiagnostics package (ofDiagnostics package ds).diagnostics = ofDiagnostics package ds
      ∧ ((ofDiagnostics package ds).verdict = "fail" ↔ ∃ d ∈ ds, d.severity = .error)
      ∧ (ofDiagnostics package ds).count .error + (ofDiagnostics package ds).count .warning
          + (ofDiagnostics package ds).count .hint = (ds.map issue).toFinset.card :=
  ⟨nodup_issues_ofDiagnostics package ds, mem_issues_ofDiagnostics package ds,
    fun _ => mem_ofDiagnostics_iff.mp, pairwise_sortKey_ofDiagnostics package ds,
    ofDiagnostics_diagnostics package ds,
    verdict_eq_fail_iff.trans (exists_error_ofDiagnostics_iff package ds),
    (sum_count _).trans (length_ofDiagnostics package ds)⟩

end Report

end TypstLint
