import Mathlib.Data.List.Forall2
import TypstLint.Proofs.GitHub.Annotation
import TypstLint.Proofs.Report.Order

set_option autoImplicit false

/-! # What check runs show of a report

The outputs of a check run show all of a report that they can hold (`ShowsReport`, `showsReport_outputs`).

Which diagnostics are kept is said by their places in the report: an `IsSelection` is ascending, has as many
places as there may be, and leaves out nothing that comes before what it keeps. The annotations of the batches,
one behind the other, tell exactly the diagnostics at these places, in this order and each of them in full
(`Annotation.Tells`), and only the last batch may have room left. What has no file, and how many annotations were
left out, is told in the summary. -/

namespace TypstLint.GitHub

/-! ## Batches -/

section

variable {α : Type} {size : Nat} {xs : List α}

theorem batches_nil (size : Nat) : batches size ([] : List α) = [] := by
  have hcount : (0 + size - 1) / size = 0 := by
    rcases Nat.eq_zero_or_pos size with rfl | hsize
    · rfl
    · exact Nat.div_eq_of_lt (by omega)
  rw [batches, List.length_nil, hcount]
  rfl

/-- The first batch is cut off, and what is left is cut into batches. -/
theorem batches_eq_cons (hsize : 0 < size) (hxs : xs ≠ []) :
    batches size xs = xs.take size :: batches size (xs.drop size) := by
  have hpos := List.length_pos_iff.mpr hxs
  have hcount : (xs.length + size - 1) / size = ((xs.drop size).length + size - 1) / size + 1 := by
    rw [List.length_drop, ← Nat.add_div_right _ hsize]
    rcases Nat.lt_or_ge xs.length size with hlt | hge
    · rw [show xs.length - size + size - 1 + size = (size - 1) + size by omega,
        show xs.length + size - 1 = (xs.length - 1) + size by omega, Nat.add_div_right _ hsize,
        Nat.add_div_right _ hsize, Nat.div_eq_of_lt (by omega), Nat.div_eq_of_lt (by omega)]
    · rw [show xs.length - size + size - 1 + size = xs.length + size - 1 by omega]
  rw [batches, hcount, List.range_succ_eq_map, List.map_cons, List.map_map, Nat.zero_mul, List.drop_zero,
    batches]
  refine congrArg _ (List.map_congr_left fun i _ => ?_)
  rw [Function.comp_apply, List.drop_drop, Nat.succ_mul, Nat.add_comm size]

/-- What follows for a list from what is left behind the first batch, follows for all lists. -/
theorem batches_induction (hsize : 0 < size) {motive : List α → Prop} (nil : motive [])
    (step : ∀ xs, xs ≠ [] → motive (xs.drop size) → motive xs) (xs : List α) : motive xs := by
  induction hn : xs.length using Nat.strongRecOn generalizing xs with
  | ind n ih =>
    cases xs with
    | nil => exact nil
    | cons x rest =>
      refine step _ (List.cons_ne_nil x rest) (ih _ ?_ _ rfl)
      rw [List.length_drop]
      rw [List.length_cons] at hn ⊢
      omega

theorem flatten_batches (hsize : 0 < size) (xs : List α) : (batches size xs).flatten = xs := by
  induction xs using batches_induction hsize with
  | nil => rw [batches_nil, List.flatten_nil]
  | step xs hxs ih => rw [batches_eq_cons hsize hxs, List.flatten_cons, ih, List.take_append_drop]

theorem length_le_of_mem_batches {batch : List α} (h : batch ∈ batches size xs) : batch.length ≤ size := by
  obtain ⟨i, -, rfl⟩ := List.mem_map.mp h
  exact List.length_take_le ..

/-- Only the last batch may have room left. -/
theorem length_of_mem_dropLast_batches (hsize : 0 < size) (xs : List α) :
    ∀ batch ∈ (batches size xs).dropLast, batch.length = size := by
  induction xs using batches_induction hsize with
  | nil => simp [batches_nil]
  | step xs hxs ih =>
    intro batch hbatch
    rw [batches_eq_cons hsize hxs] at hbatch
    by_cases hrest : xs.drop size = []
    · simp [hrest, batches_nil] at hbatch
    · have hne : batches size (xs.drop size) ≠ [] := by
        rw [batches_eq_cons hsize hrest]
        exact List.cons_ne_nil _ _
      rw [List.dropLast_cons_of_ne_nil hne] at hbatch
      rcases List.mem_cons.mp hbatch with rfl | hbatch
      · rw [List.drop_eq_nil_iff] at hrest
        rw [List.length_take]
        omega
      · exact ih batch hbatch

end

/-! ## The most serious diagnostics -/

/-- A selection of at most `limit` diagnostics, given by their places. It has as many as there may be, and
none of the others comes before one of them: first by how serious they are, then by their order. -/
structure IsSelection (limit : Nat) (ds : List (Diagnostic × String)) (places : List Nat) : Prop where
  ascending : places.Pairwise (· < ·)
  inside : ∀ i ∈ places, i < ds.length
  size : places.length = min ds.length limit
  serious : ∀ i ∈ places, ∀ j, j ∉ places → ∀ a ∈ ds[i]?, ∀ b ∈ ds[j]?,
    a.1.severity.rank < b.1.severity.rank ∨ a.1.severity = b.1.severity ∧ i < j

/-- The diagnostics with their places, the most serious ones first. -/
def ranked (ds : List (Diagnostic × String)) : List ((Diagnostic × String) × Nat) :=
  ds.zipIdx.mergeSort fun a b => decide (a.1.1.severity.rank ≤ b.1.1.severity.rank)

/-- The places of the first `limit` of the most serious diagnostics. -/
def firstPlaces (limit : Nat) (ds : List (Diagnostic × String)) : List Nat :=
  ((ranked ds).take limit).map Prod.snd

/-- The same places in their order. -/
def seriousPlaces (limit : Nat) (ds : List (Diagnostic × String)) : List Nat :=
  (List.range ds.length).filter fun i => (firstPlaces limit ds).contains i

section

variable {limit : Nat} {ds : List (Diagnostic × String)}

theorem pairwise_zipIdx {α : Type} (xs : List α) : xs.zipIdx.Pairwise fun a b => a.2 < b.2 := by
  have h := List.pairwise_lt_range (n := xs.length)
  rwa [List.range_eq_range', ← List.zipIdx_map_snd, List.pairwise_map] at h

/-- What is chosen of a numbered list is what is found at the chosen numbers. -/
theorem map_fst_filter_zipIdx {α : Type} (q : Nat → Bool) (xs : List α) :
    (xs.zipIdx.filter fun p => q p.2).map Prod.fst
      = ((List.range xs.length).filter q).filterMap (xs[·]?) := by
  rw [List.range_eq_range', ← List.zipIdx_map_snd, List.filter_map, List.filterMap_map,
    ← List.filterMap_eq_map]
  refine List.filterMap_congr fun p hp => ?_
  exact (List.mem_zipIdx_iff_getElem?.mp (List.mem_of_mem_filter hp)).symm

theorem perm_map_snd_ranked (ds : List (Diagnostic × String)) :
    ((ranked ds).map Prod.snd).Perm (List.range ds.length) := by
  rw [List.range_eq_range', ← List.zipIdx_map_snd]
  exact (List.mergeSort_perm _ _).map Prod.snd

theorem pairwise_ranked (ds : List (Diagnostic × String)) :
    (ranked ds).Pairwise fun a b => a.1.1.severity.rank < b.1.1.severity.rank
      ∨ a.1.1.severity.rank = b.1.1.severity.rank ∧ a.2 < b.2 :=
  pairwise_mergeSort_of_pairwise (fun _ _ => decide_eq_true_iff) (pairwise_zipIdx ds)

theorem firstPlaces_sublist : (firstPlaces limit ds).Sublist ((ranked ds).map Prod.snd) :=
  (List.take_sublist _ _).map Prod.snd

theorem mem_seriousPlaces_iff {i : Nat} : i ∈ seriousPlaces limit ds ↔ i ∈ firstPlaces limit ds := by
  rw [seriousPlaces, List.mem_filter, List.contains_iff_mem, and_iff_right_iff_imp]
  exact fun hi => (perm_map_snd_ranked ds).subset (firstPlaces_sublist.subset hi)

theorem perm_seriousPlaces : (seriousPlaces limit ds).Perm (firstPlaces limit ds) := by
  have hnodup : ((ranked ds).map Prod.snd).Nodup :=
    (perm_map_snd_ranked ds).nodup_iff.mpr List.nodup_range
  exact (List.perm_ext_iff_of_nodup (List.nodup_range.filter _) (hnodup.sublist firstPlaces_sublist)).mpr
    fun _ => mem_seriousPlaces_iff

theorem isSelection_seriousPlaces : IsSelection limit ds (seriousPlaces limit ds) where
  ascending := List.pairwise_lt_range.filter _
  inside i hi := List.mem_range.mp (List.mem_of_mem_filter hi)
  size := by
    have hlength := (perm_map_snd_ranked ds).length_eq
    rw [List.length_map, List.length_range] at hlength
    rw [perm_seriousPlaces.length_eq, firstPlaces, List.length_map, List.length_take, hlength,
      Nat.min_comm]
  serious i hi j hj a ha b hb := by
    have hin {k : Nat} {d : Diagnostic × String} (hd : d ∈ ds[k]?) : (d, k) ∈ ranked ds :=
      List.mem_mergeSort.mpr (List.mem_zipIdx_iff_getElem?.mpr hd)
    rw [mem_seriousPlaces_iff] at hi hj
    -- the one place is among the first in the ranking, the other one behind them
    obtain ⟨⟨a', _⟩, hmem, rfl⟩ := List.mem_map.mp hi
    have ha' : a' ∈ ds[_]? := List.mem_zipIdx_iff_getElem?.mp
      (List.mem_mergeSort.mp (List.mem_of_mem_take hmem))
    obtain rfl := Option.mem_unique ha ha'
    have hbehind : (b, j) ∈ (ranked ds).drop limit := by
      have hsplit := hin hb
      rw [← List.take_append_drop limit (ranked ds)] at hsplit
      exact (List.mem_append.mp hsplit).resolve_left fun h => hj (List.mem_map_of_mem h)
    have hpairwise := pairwise_ranked ds
    rw [← List.take_append_drop limit (ranked ds)] at hpairwise
    rcases (List.pairwise_append.mp hpairwise).2.2 _ hmem _ hbehind with hlt | ⟨heq, hlt⟩
    · exact .inl hlt
    · exact .inr ⟨Severity.rank_inj heq, hlt⟩

/-- If there is room for all, all are kept. -/
theorem seriousPlaces_of_length_le (h : ds.length ≤ limit) :
    seriousPlaces limit ds = List.range ds.length := by
  have hselection : IsSelection limit ds (seriousPlaces limit ds) := isSelection_seriousPlaces
  refine List.filter_sublist.eq_of_length ?_
  rw [List.length_range]
  exact hselection.size.trans (Nat.min_eq_left h)

theorem keepMostSerious_eq (limit : Nat) (ds : List (Diagnostic × String)) :
    keepMostSerious limit ds = (seriousPlaces limit ds).filterMap (ds[·]?) := by
  unfold keepMostSerious
  split
  · next hle =>
    rw [seriousPlaces_of_length_le (by omega), ← List.filter_true (List.range _),
      ← map_fst_filter_zipIdx, List.filter_true, List.zipIdx_map_fst]
  · dsimp only
    rw [if_neg (by omega), Int.toNat_natCast]
    exact map_fst_filter_zipIdx _ ds

end

/-! ## Outputs -/

/-- The diagnostics of a report that have a file, with its path. -/
def located (r : Report) : List (Diagnostic × String) :=
  r.diagnostics.filterMap fun d => d.file.map fun path => (d, path)

/-- Some lines of a text, one behind the other. -/
def HasLines (text : String) (lines : List String) : Prop :=
  ∃ before after, text = "\n".intercalate (before ++ lines ++ after)

/-- The line about a diagnostic without a file. -/
def unlocatedLine (d : Diagnostic) : String := s!"- **{d.severity.name}** `{d.ruleId}`: {d.message}"

/-- The line about annotations that were left out. -/
def omittedLine (omitted : Nat) : String :=
  if omitted = 1 then
    "This report is truncated: 1 annotation could not be attached (hints are dropped first)."
  else s!"This report is truncated: {omitted} annotations could not be attached (hints are dropped first)."

/-- How outputs show a report, with at most `limit` annotations. -/
structure ShowsReport (r : Report) (spec : Spec) (files : FileSet) (limit : Nat) (outs : List Output) :
    Prop where
  nonempty : outs ≠ []
  length_le : ∀ o ∈ outs, o.annotations.length ≤ 50
  full : ∀ o ∈ outs.dropLast, o.annotations.length = 50
  same : ∀ o ∈ outs, ∀ o' ∈ outs, o.title = o'.title ∧ o.summary = o'.summary
  annotations : ∃ places, IsSelection limit (located r) places
    ∧ List.Forall₂ (fun (d, path) a => a.Tells spec files d path)
        (places.filterMap ((located r)[·]?)) (outs.flatMap (·.annotations))
  omitted : limit < (located r).length →
    ∀ o ∈ outs, HasLines o.summary [omittedLine ((located r).length - limit)]
  unlocated : ∀ o ∈ outs,
    HasLines o.summary ((r.diagnostics.filter (·.file.isNone)).map unlocatedLine)

theorem length_keepMostSerious (limit : Nat) (ds : List (Diagnostic × String)) :
    (keepMostSerious limit ds).length = min ds.length limit := by
  have hselection : IsSelection limit ds (seriousPlaces limit ds) := isSelection_seriousPlaces
  rw [keepMostSerious_eq, List.length_filterMap_eq_countP, ← hselection.size, List.countP_eq_length]
  intro i hi
  simpa using hselection.inside i hi

section

variable {r : Report} {spec : Spec} {files : FileSet} {limit : Nat}

theorem hasLines_nil (lines : List String) : HasLines ("\n".intercalate lines) [] :=
  ⟨lines, [], by simp⟩

theorem hasLines_summary_unlocated (r : Report) (omitted : Nat) :
    HasLines (summary r omitted) ((r.diagnostics.filter (·.file.isNone)).map unlocatedLine) := by
  rw [summary, unlocatedLines]
  split
  · next hnone =>
    rw [hnone]
    exact hasLines_nil _
  · rw [← List.append_assoc]
    exact ⟨_, _, rfl⟩

theorem omittedLines_of_pos {omitted : Nat} (h : 0 < omitted) :
    omittedLines omitted = ["", omittedLine omitted] := by
  have hne : (omitted == 0) = false := beq_false_of_ne (Nat.ne_of_gt h)
  rw [omittedLines, hne, omittedLine, Text.counted]
  by_cases hone : omitted = 1
  · subst hone
    rfl
  · have hone' : (omitted == 1) = false := beq_false_of_ne hone
    have hwords : " annotations could not be attached (hints are dropped first)."
        = " " ++ ("annotation" ++ ("s" ++ " could not be attached (hints are dropped first).")) := rfl
    simp [hone, hone', toString, hwords, String.append_assoc]

theorem hasLines_summary_omitted (r : Report) {omitted : Nat} (h : 0 < omitted) :
    HasLines (summary r omitted) [omittedLine omitted] := by
  rw [summary, omittedLines_of_pos h, List.append_cons]
  exact ⟨_, [], by rw [List.append_nil]⟩

/-- The batches of annotations, or a single one without any. -/
def outputBatches (shown : List Annotation) : List (List Annotation) :=
  if (batches annotationsPerRequest shown).isEmpty then [[]] else batches annotationsPerRequest shown

theorem outputBatches_spec (shown : List Annotation) :
    outputBatches shown ≠ [] ∧ (outputBatches shown).flatten = shown
      ∧ (∀ batch ∈ outputBatches shown, batch.length ≤ 50)
      ∧ ∀ batch ∈ (outputBatches shown).dropLast, batch.length = 50 := by
  have hsize : 0 < annotationsPerRequest := by decide
  have hflatten := flatten_batches hsize shown
  unfold outputBatches
  split
  · next hempty =>
    rw [List.isEmpty_iff.mp hempty] at hflatten
    exact ⟨List.cons_ne_nil _ _, hflatten, by simp, by simp⟩
  · next hempty =>
    exact ⟨fun h => hempty (List.isEmpty_iff.mpr h), hflatten, fun _ => length_le_of_mem_batches,
      length_of_mem_dropLast_batches hsize shown⟩

theorem outputs_eq (r : Report) (spec : Spec) (files : FileSet) (limit : Nat) :
    outputs r spec files limit =
      (outputBatches ((keepMostSerious limit (located r)).map fun (d, path) => annotate spec files d path)).map
        (Output.mk (title r) (summary r ((located r).length - min (located r).length limit))) := by
  rw [← length_keepMostSerious]
  rfl

/-- The outputs of a check run show its whole report: each diagnostic with a file in an annotation, as far
as there may be so many, and all that is not shown there in the summary. -/
theorem showsReport_outputs (r : Report) (spec : Spec) (files : FileSet) (limit : Nat) :
    ShowsReport r spec files limit (outputs r spec files limit) := by
  rw [outputs_eq, keepMostSerious_eq]
  generalize hshown : ((seriousPlaces limit (located r)).filterMap ((located r)[·]?)).map
    (fun (d, path) => annotate spec files d path) = shown
  obtain ⟨hne, hflatten, hle, hfull⟩ := outputBatches_spec shown
  refine
    { nonempty := ?nonempty
      length_le := ?length_le
      full := ?full
      same := ?same
      annotations := ?annotations
      omitted := ?omitted
      unlocated := ?unlocated }
  case nonempty => exact fun h => hne (List.map_eq_nil_iff.mp h)
  case length_le =>
    intro o ho
    obtain ⟨batch, hbatch, rfl⟩ := List.mem_map.mp ho
    exact hle batch hbatch
  case full =>
    intro o ho
    rw [← List.map_dropLast] at ho
    obtain ⟨batch, hbatch, rfl⟩ := List.mem_map.mp ho
    exact hfull batch hbatch
  case same =>
    intro o ho o' ho'
    obtain ⟨batch, -, rfl⟩ := List.mem_map.mp ho
    obtain ⟨batch', -, rfl⟩ := List.mem_map.mp ho'
    exact ⟨rfl, rfl⟩
  case annotations =>
    refine ⟨_, isSelection_seriousPlaces, ?_⟩
    have hall : (outputBatches shown).flatMap id = shown := List.flatMap_id.trans hflatten
    rw [List.flatMap_map]
    show List.Forall₂ _ _ ((outputBatches shown).flatMap id)
    rw [hall, ← hshown, List.forall₂_map_right_iff, List.forall₂_same]
    intro p hp
    exact annotate_tells spec files p.1 p.2
  case omitted =>
    intro hlimit o ho
    obtain ⟨batch, -, rfl⟩ := List.mem_map.mp ho
    dsimp only
    rw [Nat.min_eq_right (Nat.le_of_lt hlimit)]
    have hpos : 0 < (located r).length - limit := Nat.sub_pos_of_lt hlimit
    exact hasLines_summary_omitted r hpos
  case unlocated =>
    intro o ho
    obtain ⟨batch, -, rfl⟩ := List.mem_map.mp ho
    dsimp only
    exact hasLines_summary_unlocated r _

end

end TypstLint.GitHub
