import Mathlib.Data.List.Induction
import TypstLint.Report.Basic

set_option autoImplicit false

/-! # Every issue once

Two diagnostics are of one issue if they say the same, with whatever severity. A report holds one
diagnostic of every issue, with the most serious severity that the issue was found with
(`distinctIssues_spec`). -/

namespace TypstLint

theorem Severity.rank_inj {s t : Severity} (h : s.rank = t.rank) : s = t := by
  cases s <;> cases t <;> first | rfl | cases h

namespace Diagnostic

variable {a b c : Diagnostic}

theorem sameIssue_iff : a.sameIssue b = true
    ↔ a.ruleId = b.ruleId ∧ a.file = b.file ∧ a.span = b.span ∧ a.message = b.message := by
  simp only [sameIssue, Bool.and_eq_true, beq_iff_eq, and_assoc]

theorem sameIssue_refl (a : Diagnostic) : a.sameIssue a = true :=
  sameIssue_iff.mpr ⟨rfl, rfl, rfl, rfl⟩

theorem sameIssue_symm (h : a.sameIssue b = true) : b.sameIssue a = true := by
  obtain ⟨hrule, hfile, hspan, hmessage⟩ := sameIssue_iff.mp h
  exact sameIssue_iff.mpr ⟨hrule.symm, hfile.symm, hspan.symm, hmessage.symm⟩

theorem sameIssue_trans (h : a.sameIssue b = true) (h' : b.sameIssue c = true) :
    a.sameIssue c = true := by
  obtain ⟨hrule, hfile, hspan, hmessage⟩ := sameIssue_iff.mp h
  obtain ⟨hrule', hfile', hspan', hmessage'⟩ := sameIssue_iff.mp h'
  exact sameIssue_iff.mpr ⟨hrule.trans hrule', hfile.trans hfile', hspan.trans hspan',
    hmessage.trans hmessage'⟩

/-- A diagnostic of the same issue that is at least as serious. -/
def Covers (a b : Diagnostic) : Prop := a.sameIssue b = true ∧ a.severity.rank ≤ b.severity.rank

theorem Covers.refl (a : Diagnostic) : a.Covers a := ⟨a.sameIssue_refl, Nat.le_refl _⟩

theorem Covers.trans (h : a.Covers b) (h' : b.Covers c) : a.Covers c :=
  ⟨sameIssue_trans h.1 h'.1, Nat.le_trans h.2 h'.2⟩

end Diagnostic

namespace Report

open Diagnostic

variable {d e : Diagnostic} {ds ds' found : List Diagnostic}

/-- Some of the diagnostics, one of every issue, and none of the issue is more serious. -/
structure IsDistinct (ds found : List Diagnostic) : Prop where
  pairwise : found.Pairwise fun a b => ¬ a.sameIssue b = true
  mem : ∀ d ∈ found, d ∈ ds
  covered : ∀ d ∈ ds, ∃ e ∈ found, e.Covers d

theorem mem_addIssue (h : e ∈ addIssue d found) : e = d ∨ e ∈ found := by
  induction found with
  | nil => exact .inl (List.mem_singleton.mp h)
  | cons f rest ih =>
    unfold addIssue at h
    split at h
    · rcases List.mem_cons.mp h with h | h
      · split at h
        · exact .inl h
        · exact .inr (h ▸ List.mem_cons_self)
      · exact .inr (List.mem_cons_of_mem f h)
    · rcases List.mem_cons.mp h with h | h
      · exact .inr (h ▸ List.mem_cons_self)
      · exact (ih h).imp_right (List.mem_cons_of_mem f)

/-- The diagnostic that is added is covered, and what was covered stays so. -/
theorem covered_addIssue (h : e = d ∨ e ∈ found) : ∃ f ∈ addIssue d found, f.Covers e := by
  induction found with
  | nil =>
    obtain rfl := h.resolve_right List.not_mem_nil
    exact ⟨e, List.mem_cons_self, .refl e⟩
  | cons f rest ih =>
    unfold addIssue
    by_cases hsame : d.sameIssue f = true
    · rw [if_pos hsame]
      by_cases hrank : d.severity.rank < f.severity.rank
      · rw [if_pos hrank]
        rcases h with rfl | h
        · exact ⟨e, List.mem_cons_self, .refl e⟩
        · rcases List.mem_cons.mp h with rfl | h
          · exact ⟨d, List.mem_cons_self, hsame, Nat.le_of_lt hrank⟩
          · exact ⟨e, List.mem_cons_of_mem d h, .refl e⟩
      · rw [if_neg hrank]
        rcases h with rfl | h
        · exact ⟨f, List.mem_cons_self, sameIssue_symm hsame, Nat.le_of_not_lt hrank⟩
        · exact ⟨e, h, .refl e⟩
    · rw [if_neg hsame]
      have hrest : (e = d ∨ e ∈ rest) → ∃ g ∈ f :: addIssue d rest, g.Covers e := by
        intro h
        obtain ⟨g, hg, hcovers⟩ := ih h
        exact ⟨g, List.mem_cons_of_mem f hg, hcovers⟩
      rcases h with h | h
      · exact hrest (.inl h)
      · rcases List.mem_cons.mp h with rfl | h
        · exact ⟨e, List.mem_cons_self, .refl e⟩
        · exact hrest (.inr h)

theorem pairwise_addIssue (h : found.Pairwise fun a b => ¬ a.sameIssue b = true) :
    (addIssue d found).Pairwise fun a b => ¬ a.sameIssue b = true := by
  induction found with
  | nil => exact List.pairwise_singleton _ d
  | cons f rest ih =>
    obtain ⟨hfirst, hrest⟩ := List.pairwise_cons.mp h
    unfold addIssue
    by_cases hsame : d.sameIssue f = true
    · -- whichever of the two stays, it is of the issue of `f`
      rw [if_pos hsame]
      refine List.pairwise_cons.mpr ⟨fun g hg hsame' => hfirst g hg ?_, hrest⟩
      split at hsame'
      · exact sameIssue_trans (sameIssue_symm hsame) hsame'
      · exact hsame'
    · rw [if_neg hsame]
      refine List.pairwise_cons.mpr ⟨fun g hg hsame' => ?_, ih hrest⟩
      rcases mem_addIssue hg with rfl | hg
      · exact hsame (sameIssue_symm hsame')
      · exact hfirst g hg hsame'

theorem IsDistinct.addIssue (h : IsDistinct ds found) (d : Diagnostic) :
    IsDistinct (ds ++ [d]) (addIssue d found) where
  pairwise := pairwise_addIssue h.pairwise
  mem := by
    intro e he
    rw [List.mem_append, List.mem_singleton]
    rcases mem_addIssue he with he | he
    · exact .inr he
    · exact .inl (h.mem e he)
  covered := by
    intro e he
    rw [List.mem_append, List.mem_singleton] at he
    rcases he with he | he
    · obtain ⟨f, hf, hcovers⟩ := h.covered e he
      obtain ⟨g, hg, hcovers'⟩ := covered_addIssue (.inr hf)
      exact ⟨g, hg, hcovers'.trans hcovers⟩
    · exact covered_addIssue (.inl he)

/-- A diagnostic of a new issue comes last. -/
theorem addIssue_of_new (h : ∀ e ∈ found, ¬ d.sameIssue e = true) : addIssue d found = found ++ [d] := by
  induction found with
  | nil => rfl
  | cons e rest ih =>
    rw [addIssue, if_neg (h e List.mem_cons_self), ih fun f hf => h f (List.mem_cons_of_mem e hf)]
    rfl

theorem distinctIssues_concat (ds : List Diagnostic) (d : Diagnostic) :
    distinctIssues (ds ++ [d]) = addIssue d (distinctIssues ds) := by
  rw [distinctIssues, List.foldl_append]
  rfl

theorem distinctIssues_spec (ds : List Diagnostic) : IsDistinct ds (distinctIssues ds) := by
  induction ds using List.reverseRecOn with
  | nil => exact ⟨.nil, fun _ h => h, fun _ h => absurd h List.not_mem_nil⟩
  | append_singleton ds d ih =>
    rw [distinctIssues_concat]
    exact ih.addIssue d

/-- Of what is kept, no two are of one issue. -/
theorem IsDistinct.eq_of_sameIssue (h : IsDistinct ds found) (hd : d ∈ found) (he : e ∈ found)
    (hsame : d.sameIssue e = true) : d = e := by
  have hpairwise : found.Pairwise fun a b => a.sameIssue b = true → a = b :=
    h.pairwise.imp fun hne hsame => absurd hsame hne
  have hflip : found.Pairwise (flip fun a b => a.sameIssue b = true → a = b) :=
    h.pairwise.imp fun hne hsame => absurd (sameIssue_symm hsame) hne
  exact hpairwise.forall_of_forall_of_flip (fun _ _ _ => rfl) hflip hd he hsame

theorem mem_distinctIssues_iff : e ∈ distinctIssues ds ↔
    e ∈ ds ∧ ∀ d ∈ ds, d.sameIssue e = true → e.severity.rank ≤ d.severity.rank := by
  have hspec := distinctIssues_spec ds
  constructor
  · intro he
    refine ⟨hspec.mem e he, fun d hd hsame => ?_⟩
    obtain ⟨f, hf, hcovers⟩ := hspec.covered d hd
    -- both are kept and of the same issue, so they are the same
    obtain rfl := hspec.eq_of_sameIssue hf he (sameIssue_trans hcovers.1 hsame)
    exact hcovers.2
  · rintro ⟨he, hleast⟩
    obtain ⟨f, hf, hsame, hrank⟩ := hspec.covered e he
    have hseverity : f.severity = e.severity :=
      Severity.rank_inj (Nat.le_antisymm hrank (hleast f (hspec.mem f hf) hsame))
    obtain ⟨hrule, hfile, hspan, hmessage⟩ := sameIssue_iff.mp hsame
    have heq : f = e := by
      cases f
      cases e
      simp_all
    exact heq ▸ hf

theorem nodup_distinctIssues (ds : List Diagnostic) : (distinctIssues ds).Nodup :=
  (distinctIssues_spec ds).pairwise.imp fun {a b} hne (heq : a = b) => hne (heq ▸ a.sameIssue_refl)

theorem perm_distinctIssues (h : ds'.Perm ds) : (distinctIssues ds').Perm (distinctIssues ds) := by
  refine (List.perm_ext_iff_of_nodup (nodup_distinctIssues ds') (nodup_distinctIssues ds)).mpr
    fun e => ?_
  simp only [mem_distinctIssues_iff, h.mem_iff]

/-- A diagnostic that is kept and found first stays first. -/
theorem exists_distinctIssues_cons (h : ∀ e ∈ ds, e.sameIssue d = true → d.severity.rank ≤ e.severity.rank) :
    ∃ rest, distinctIssues (d :: ds) = d :: rest := by
  have hfold (rest : List Diagnostic) :
      ∃ rest', ds.foldl (fun found d => addIssue d found) (d :: rest) = d :: rest' := by
    induction ds generalizing rest with
    | nil => exact ⟨rest, rfl⟩
    | cons e ds ih =>
      have hds := ih fun f hf => h f (List.mem_cons_of_mem e hf)
      rw [List.foldl_cons, addIssue]
      by_cases hsame : e.sameIssue d = true
      · rw [if_pos hsame, if_neg (Nat.not_lt.mpr (h e List.mem_cons_self hsame))]
        exact hds rest
      · rw [if_neg hsame]
        exact hds _
  exact hfold []

theorem filter_addIssue {p : Diagnostic → Bool} (hp : ∀ a b, a.sameIssue b = true → p a = p b)
    (d : Diagnostic) (found : List Diagnostic) :
    (addIssue d found).filter p = if p d then addIssue d (found.filter p) else found.filter p := by
  induction found with
  | nil => by_cases hd : p d <;> simp [addIssue, hd]
  | cons e rest ih =>
    by_cases hsame : d.sameIssue e = true
    · have hde : p d = p e := hp d e hsame
      -- whichever of the two stays, it is looked at or passed over as both are
      have hkept : p (if d.severity.rank < e.severity.rank then d else e) = p e := by
        split
        · exact hde
        · rfl
      by_cases he : p e = true
      · simp only [addIssue, hsame, hkept, hde, he, List.filter_cons, if_true]
      · simp only [addIssue, hsame, hkept, hde, he, List.filter_cons, if_true, if_false, Bool.false_eq_true]
    · by_cases hd : p d = true <;> by_cases he : p e = true <;>
        simp [addIssue, hsame, hd, he, ih]

/-- What is kept of some issues does not depend on the others. -/
theorem filter_distinctIssues {p : Diagnostic → Bool} (hp : ∀ a b, a.sameIssue b = true → p a = p b)
    (ds : List Diagnostic) : (distinctIssues ds).filter p = distinctIssues (ds.filter p) := by
  induction ds using List.reverseRecOn with
  | nil => rfl
  | append_singleton ds d ih =>
    rw [distinctIssues_concat, filter_addIssue hp, ih, List.filter_append]
    by_cases hd : p d = true
    · rw [if_pos hd, List.filter_cons_of_pos hd, List.filter_nil, distinctIssues_concat]
    · rw [if_neg hd, List.filter_cons_of_neg hd, List.filter_nil, List.append_nil]

/-- A report holds one diagnostic of every issue. -/
theorem ofDiagnostics_spec (package : String) (ds : List Diagnostic) :
    IsDistinct ds (ofDiagnostics package ds).diagnostics := by
  have hdistinct := distinctIssues_spec ds
  have hperm : (ofDiagnostics package ds).diagnostics.Perm (distinctIssues ds) :=
    List.mergeSort_perm _ _
  refine ⟨?_, fun d hd => hdistinct.mem d (hperm.mem_iff.mp hd), fun d hd => ?_⟩
  · exact (hperm.pairwise_iff fun h => mt sameIssue_symm h).mpr hdistinct.pairwise
  · obtain ⟨e, he, hcovers⟩ := hdistinct.covered d hd
    exact ⟨e, hperm.mem_iff.mpr he, hcovers⟩

end Report

end TypstLint
