import TypstLint.Proofs.Check.Places
import TypstLint.Proofs.Text.Glob

set_option autoImplicit false

/-! # What an entry of `exclude` leaves out

An entry excludes a path as a pattern, or as a directory above it that is spelled like the entry. What lies
below an excluded path is excluded by the same entry if the entry spells the path, as one without wildcards
does, or if the pattern has an open end; and only then (`isExcluded_below`). Excluded paths are reported
neither as large nor as unreachable. -/

namespace TypstLint

open Text.Glob (HasOpenEnd IsPlain matchTokens tokens)

/-! ## Entries -/

/-- The path of something below a path. -/
def pathBelow (path rest : String) : String := path ++ "/" ++ rest

theorem toList_pathBelow (path rest : String) :
    (pathBelow path rest).toList = path.toList ++ '/' :: rest.toList := by
  simp [pathBelow]

namespace Package

variable {entry path rest : String} {p : Package}

/-- An entry of a manifest without the slashes around it. -/
def entryText (entry : String) : List Char := Text.trimWhile (· == '/') entry.toList

/-- Whether an entry spells a path, or a directory above it, character by character. -/
def Spells (entry path : String) : Prop := entryText entry ++ ['/'] <+: path.toList ++ ['/']

theorem excludes_iff : excludes entry path = true
    ↔ matchTokens (tokens (entryText entry)) path.toList = true
      ∨ entryText entry ++ ['/'] <+: path.toList := by
  unfold excludes
  dsimp only
  rw [Bool.or_eq_true, Text.Glob.isMatch_eq, String.toList_ofList, List.isPrefixOf_iff_prefix]
  rfl

/-- An entry without wildcards excludes the path that it spells, and what is below it. -/
theorem spells_of_isPlain (hplain : IsPlain (entryText entry)) (h : excludes entry path = true) :
    Spells entry path := by
  rcases excludes_iff.mp h with hmatch | hbegins
  · rw [Text.Glob.tokens_of_isPlain hplain] at hmatch
    rw [Spells, Text.Glob.matchTokens_map_literal.mp hmatch]
  · exact hbegins.trans (List.prefix_append _ _)

theorem excludes_pathBelow_of_spells (h : Spells entry path) (rest : String) :
    excludes entry (pathBelow path rest) = true := by
  refine excludes_iff.mpr (.inr (h.trans ?_))
  rw [toList_pathBelow]
  exact List.prefix_append_right_inj path.toList |>.mpr (List.prefix_append ['/'] rest.toList)

theorem excludes_pathBelow_of_hasOpenEnd (hopen : HasOpenEnd (tokens (entryText entry)))
    (h : excludes entry path = true) (rest : String) : excludes entry (pathBelow path rest) = true := by
  rcases excludes_iff.mp h with hmatch | hbegins
  · refine excludes_iff.mpr (.inl ?_)
    rw [toList_pathBelow]
    exact hopen.matchTokens_append hmatch _
  · exact excludes_pathBelow_of_spells (hbegins.trans (List.prefix_append _ _)) rest

/-- What is no start of a text can be kept from becoming one by the next character. -/
theorem exists_not_prefix {xs ys : List Char} (h : ¬ xs <+: ys) :
    ∃ c, ∀ more, ¬ xs <+: ys ++ c :: more := by
  -- any character will do but the one that `xs` has there
  have hother : ∃ c : Char, xs[ys.length]? ≠ some c := by
    by_cases hx : xs[ys.length]? = some 'x'
    · exact ⟨'y', by rw [hx]; decide⟩
    · exact ⟨'x', hx⟩
  obtain ⟨c, hc⟩ := hother
  refine ⟨c, fun more hbegins => ?_⟩
  by_cases hle : xs.length ≤ ys.length
  · exact h (List.prefix_of_prefix_length_le hbegins (List.prefix_append _ _) hle)
  · have hlt : ys.length < xs.length := Nat.lt_of_not_le hle
    have heq := hbegins.getElem hlt
    rw [List.getElem_append_right (Nat.le_refl _)] at heq
    exact hc (by rw [List.getElem?_eq_getElem hlt, heq]; simp)

/-- An entry with neither excludes a path without some of what is below it. -/
theorem exists_not_excludes_pathBelow (hspells : ¬ Spells entry path)
    (hopen : ¬ HasOpenEnd (tokens (entryText entry))) (h : excludes entry path = true) :
    ∃ rest, excludes entry (pathBelow path rest) = false := by
  have hmatch := (excludes_iff.mp h).resolve_right
    fun hbegins => hspells (hbegins.trans (List.prefix_append _ _))
  obtain ⟨more, hmore⟩ := Text.Glob.exists_not_matchTokens hopen hmatch
  obtain ⟨c, hc⟩ := exists_not_prefix hspells
  have hbelow : (pathBelow path (String.ofList (c :: more))).toList
      = path.toList ++ ['/'] ++ c :: more := by
    simp [toList_pathBelow]
  refine ⟨String.ofList (c :: more), Bool.eq_false_iff.mpr fun hexcludes => ?_⟩
  rcases excludes_iff.mp hexcludes with hmatch | hbegins
  · have hfalse := hmore (path.toList ++ ['/'] ++ [c]) (by simp)
    rw [← List.append_cons, ← hbelow, hmatch] at hfalse
    cases hfalse
  · rw [hbelow] at hbegins
    exact hc more hbegins

theorem excludes_pathBelow_iff (h : excludes entry path = true) :
    (∀ rest, excludes entry (pathBelow path rest) = true)
      ↔ Spells entry path ∨ HasOpenEnd (tokens (entryText entry)) := by
  constructor
  · intro hall
    by_contra hnone
    rw [not_or] at hnone
    obtain ⟨rest, hrest⟩ := exists_not_excludes_pathBelow hnone.1 hnone.2 h
    exact absurd (hall rest) (Bool.eq_false_iff.mp hrest)
  · rintro (hspells | hopen)
    · exact excludes_pathBelow_of_spells hspells
    · exact excludes_pathBelow_of_hasOpenEnd hopen h

theorem isExcluded_iff : p.isExcluded path = true
    ↔ ∃ m, p.manifest = some m ∧ ∃ entry ∈ m.package.exclude, excludes entry path = true := by
  simp only [isExcluded, Option.any_eq_true, List.any_eq_true]

end Package

/-! ## Reports -/

variable {files : FileSet} {options : CheckOptions} {result : CheckResult} {p : Package} {path : String}

theorem ImportGraph.not_isExcluded_of_build {input : Input} {g : ImportGraph} (h : build input = .ok g)
    (hpath : path ∈ g.unreachable) : input.package.isExcluded path = false := by
  unfold build at h
  obtain ⟨⟨nodes, edges⟩, -, hg⟩ := bind_eq_ok.mp h
  obtain rfl := Except.ok.inj hg
  dsimp only at hpath
  split at hpath
  · cases hpath
  · have hfilter := (List.mem_filter.mp hpath).2
    rw [Bool.and_eq_true, Bool.not_eq_true', Bool.not_eq_true'] at hfilter
    exact hfilter.2

/-- What a check with rules of the standard set reports, these rules found, and nothing in the graph that
they saw is unreachable and excluded. -/
theorem exists_context_of_reported (h : check files options = .ok result)
    (hrules : options.rules ⊆ Rules.all) :
    ∃ ctx : Context, ctx.package = result.package
      ∧ (∀ path ∈ ctx.graph.unreachable, ctx.package.isExcluded path = false)
      ∧ ∀ d ∈ result.report.diagnostics, d ∈ Rule.runAll Rules.all ctx := by
  have hproblems : Rules.manifestProblems ∈ Rules.all := List.mem_cons_self
  unfold check at h
  simp only at h
  split at h
  · -- problems of the manifest end the check, without a graph
    obtain rfl := Except.ok.inj h
    refine ⟨options.context files {}, rfl, List.forall_mem_nil _, fun d hd => ?_⟩
    obtain ⟨rule, hrule, hd⟩ := List.mem_flatMap.mp ((Report.ofDiagnostics_spec _ _).mem d hd)
    exact List.mem_flatMap.mpr ⟨rule, List.mem_singleton.mp hrule ▸ hproblems, hd⟩
  · obtain ⟨graph, hgraph, h⟩ := bind_eq_ok.mp h
    obtain rfl := Except.ok.inj h
    refine ⟨options.context files graph, rfl, fun path hpath => ?_, fun d hd => ?_⟩
    · unfold importGraph at hgraph
      split at hgraph
      · exact ImportGraph.not_isExcluded_of_build hgraph hpath
      · obtain rfl := Except.ok.inj hgraph
        cases hpath
    · obtain ⟨rule, hrule, hd⟩ := List.mem_flatMap.mp ((Report.ofDiagnostics_spec _ _).mem d hd)
      exact List.mem_flatMap.mpr ⟨rule, hrules hrule, hd⟩

/-- Whether no check of a package reports a path as that of a large file or of one that is unreachable,
whichever rules of the standard set it applies. -/
def Package.Spares (p : Package) (path : String) : Prop :=
  ∀ files options result, check files options = .ok result → options.rules ⊆ Rules.all →
    result.package = p → ∀ d ∈ result.report.diagnostics,
      d.ruleId = "files/size" ∨ d.ruleId = "files/unreachable" → d.file ≠ some path

theorem Package.spares_of_isExcluded (h : p.isExcluded path = true) : p.Spares path := by
  rintro files options result hcheck hrules rfl d hd hid hfile
  obtain ⟨ctx, hpackage, hunreachable, hfound⟩ := exists_context_of_reported hcheck hrules
  rw [← hpackage] at h
  rcases hid with hid | hid
  · have hmem : Rules.fileSize ∈ Rules.all := by simp [Rules.all]
    obtain ⟨f, hf, rfl⟩ := List.mem_map.mp ((Rules.mem_runAll_iff hmem (by decide) hid).mp (hfound d hd))
    have hkept := (List.mem_filter.mp hf).2
    rw [Option.some.inj hfile, h, Bool.not_true, Bool.and_false] at hkept
    cases hkept
  · have hmem : Rules.unreachableFiles ∈ Rules.all := by simp [Rules.all]
    obtain ⟨path', hpath, rfl⟩ :=
      List.mem_map.mp ((Rules.mem_runAll_iff hmem (by decide) hid).mp (hfound d hd))
    obtain rfl := Option.some.inj hfile
    exact absurd h (Bool.eq_false_iff.mp (hunreachable path' hpath))

/-! ## What is below an excluded path -/

namespace Package

/-- Whichever entry excludes a path, it excludes all that is below the path exactly if it spells the path,
as every entry without wildcards does, or if it has an open end. What is below is then excluded from the
package, and reported neither as large nor as unreachable. -/
theorem isExcluded_below {d : String} (h : p.isExcluded d = true) :
    ∃ m, p.manifest = some m ∧ (∃ entry ∈ m.package.exclude, excludes entry d = true)
      ∧ ∀ entry ∈ m.package.exclude, excludes entry d = true →
        ((∀ rest, excludes entry (pathBelow d rest) = true)
            ↔ Spells entry d ∨ HasOpenEnd (tokens (entryText entry)))
        ∧ (IsPlain (entryText entry) → Spells entry d)
        ∧ (Spells entry d ∨ HasOpenEnd (tokens (entryText entry)) →
            ∀ rest, p.isExcluded (pathBelow d rest) = true ∧ p.Spares (pathBelow d rest)) := by
  obtain ⟨m, hm, hsome⟩ := isExcluded_iff.mp h
  refine ⟨m, hm, hsome, fun entry hentry hd => ⟨excludes_pathBelow_iff hd, fun hplain =>
    spells_of_isPlain hplain hd, fun hends rest => ?_⟩⟩
  have hbelow := (excludes_pathBelow_iff hd).mpr hends rest
  have hexcluded : p.isExcluded (pathBelow d rest) = true :=
    isExcluded_iff.mpr ⟨m, hm, entry, hentry, hbelow⟩
  exact ⟨hexcluded, spares_of_isExcluded hexcluded⟩

/-- A package with a file in a directory, and the entries that its manifest excludes, as written there. -/
def docsFiles (exclude : String) : FileSet where
  files :=
    [⟨"docs/manual.typ", "".toUTF8⟩,
     ⟨"lib.typ", "".toUTF8⟩,
     ⟨"typst.toml", ("[package]\nname = \"demo\"\nversion = \"1.0.0\"\nentrypoint = \"lib.typ\"\nexclude = "
      ++ exclude ++ "\n").toUTF8⟩]
  escapedLinks := []
  sorted := List.pairwise_map.mp
    (by decide : ["docs/manual.typ", "lib.typ", "typst.toml"].Pairwise fun a b => a < b)

/-- Three entries exclude `docs`: the first one spells it, the second one has an open end, and the third
one, which has neither, leaves out some of what is below. -/
theorem isExcluded_below_docs : ∃ result,
    check (docsFiles "[\"/docs/\", \"d*\", \"d?cs\"]") {} = .ok result
    ∧ result.package.isExcluded "docs" = true
    ∧ (∀ rest, excludes "/docs/" (pathBelow "docs" rest) = true)
    ∧ (∀ rest, excludes "d*" (pathBelow "docs" rest) = true)
    ∧ ¬ (∀ rest, excludes "d?cs" (pathBelow "docs" rest) = true)
    ∧ ∀ rest, result.package.isExcluded (pathBelow "docs" rest) = true
      ∧ result.package.Spares (pathBelow "docs" rest) := by
  have hcheck : (check (docsFiles "[\"/docs/\", \"d*\", \"d?cs\"]") {}).toOption.any (fun result =>
      result.package.isExcluded "docs"
      && (result.package.manifest.map (·.package.exclude)) == some ["/docs/", "d*", "d?cs"]) = true := by
    decide +kernel
  obtain ⟨result, hresult, hall⟩ := (Option.any_eq_true _ _).mp hcheck
  obtain ⟨hdocs, hmanifest⟩ := (Bool.and_eq_true _ _).mp hall
  obtain ⟨m, hm, -, hentries⟩ := isExcluded_below hdocs
  have hexclude : m.package.exclude = ["/docs/", "d*", "d?cs"] := by simpa [hm] using hmanifest
  rw [hexclude] at hentries
  obtain ⟨hspelled, hplain, hbelow⟩ := hentries "/docs/" (by decide) (by decide)
  obtain ⟨hopen, -, -⟩ := hentries "d*" (by decide) (by decide)
  have hspells : Spells "/docs/" "docs" := hplain (by decide)
  have htokens : tokens (entryText "d*") = [.literal 'd'] ++ .star :: [] := by decide
  have hmanual : excludes "d?cs" (pathBelow "docs" "manual.typ") = false := by decide
  refine ⟨result, toOption_eq_some_iff.mp hresult, hdocs, hspelled.mpr (.inl hspells),
    hopen.mpr (.inr ⟨_, _, htokens, List.forall_mem_nil _⟩), fun hneither => ?_, hbelow (.inl hspells)⟩
  rw [hneither "manual.typ"] at hmanual
  cases hmanual

/-- The directory is excluded, but what is in it is not, and is reported as unreachable. -/
theorem reported_below_pattern : ∃ result, check (docsFiles "[\"d?cs\"]") {} = .ok result
    ∧ result.package.isExcluded "docs" = true
    ∧ result.package.isExcluded (pathBelow "docs" "manual.typ") = false
    ∧ ∃ d ∈ result.report.diagnostics,
      d.ruleId = "files/unreachable" ∧ d.file = some "docs/manual.typ" := by
  have hcheck : (check (docsFiles "[\"d?cs\"]") {}).toOption.any (fun result =>
      result.package.isExcluded "docs"
      && !result.package.isExcluded (pathBelow "docs" "manual.typ")
      && result.report.diagnostics.any fun d => d.ruleId == "files/unreachable"
        && d.file == some "docs/manual.typ") = true := by
    decide +kernel
  obtain ⟨result, hresult, hall⟩ := (Option.any_eq_true _ _).mp hcheck
  simp only [Bool.and_eq_true, Bool.not_eq_true', List.any_eq_true, beq_iff_eq] at hall
  exact ⟨result, toOption_eq_some_iff.mp hresult, hall.1.1, hall.1.2, hall.2⟩

end Package

end TypstLint
