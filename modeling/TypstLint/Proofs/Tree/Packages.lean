import TypstLint.Proofs.Except
import TypstLint.Proofs.Package.FileSet
import TypstLint.Proofs.Tree.Circles
import TypstLint.Proofs.Tree.Walks

set_option autoImplicit false

/-! # The package in a directory

The package in a directory is made of the files below it and of those within it that links below it lead
to and open (`HasFile`). Links that lead out of the directory are recorded (`HasEscaped`).
`readPackage_spec` says that this is what is read. -/

namespace TypstLint.Tree

/-- Whether the package in the directory `dir`, which is entered along `path`, has a file at `inner`:
there is a file, or a link that can be opened to one within the directory. -/
def HasFile (t : Tree) (path dir inner : List String) (content : ByteArray) : Prop :=
  skippedDirectory ∉ inner.dropLast
    ∧ (t.at? ⟨0, dir ++ inner⟩ = some (.file content)
      ∨ ∃ q, t.LeadsTo (dir ++ inner) q ∧ q.isWithin ⟨0, dir⟩ = true
        ∧ t.at? q = some (.file content) ∧ t.CanOpen (path ++ inner))

/-- Whether there is a link at `inner` that leads out of the directory `dir`, which is entered along
`path`. A link in the place of a directory that is left out does not count if it opens a directory. -/
def HasEscaped (t : Tree) (path dir inner : List String) : Prop :=
  skippedDirectory ∉ inner.dropLast
    ∧ ∃ q, t.LeadsTo (dir ++ inner) q ∧ q.isWithin ⟨0, dir⟩ = false
      ∧ ¬ (inner.getLast? = some skippedDirectory ∧ t.isDirAt q = true ∧ t.CanOpen (path ++ inner))

variable {t : Tree} {n : Nat} {node : Node} {root q : Place} {path dir inner : List String}
  {content : ByteArray} {name : String}

/-! ## Paths below a directory -/

theorem IsTree.at?_parent {front : List String} {c : String} (h : t.IsTree)
    (hnode : t.at? ⟨0, dir ++ (front ++ [c])⟩ = some node) :
    t.at? ⟨0, dir ++ front⟩ = some .dir ∧ IsStep c := by
  have hc := h.isName_of_at? hnode c (by simp)
  rw [← List.append_assoc] at hnode
  exact ⟨isDirAt_iff.mp (h.isDirAt_of_append (List.cons_ne_nil c []) hnode), hc.isStep⟩

/-- Names that lead to what is no link lead through directories. -/
theorem IsTree.resolves (h : t.IsTree) (hnode : t.at? ⟨0, dir ++ inner⟩ = some node)
    (hlink : ∀ target, node ≠ .link target) : t.Resolves 0 ⟨0, dir⟩ inner ⟨0, dir ++ inner⟩ := by
  induction inner using List.reverseRecOn generalizing node with
  | nil =>
    rw [List.append_nil]
    exact .done
  | append_singleton front c ih =>
    obtain ⟨hparent, hc⟩ := h.at?_parent hnode
    rw [← List.append_assoc] at hnode ⊢
    refine (ih hparent fun _ => Node.noConfusion).append (.enter hc ?_ .done)
    refine Option.eq_none_iff_forall_ne_some.mpr fun target htarget => hlink target ?_
    exact Option.some.inj (hnode.symm.trans (linkAt?_eq_some_iff.mp htarget))

/-- A path that goes on to a link leads where the link does. -/
theorem IsTree.resolves_of_leadsTo (h : t.IsTree) (hpath : t.Resolves n .root path ⟨0, dir⟩)
    (hinner : inner ≠ []) (hleads : t.LeadsTo (dir ++ inner) q) :
    ∃ m, t.Resolves m .root (path ++ inner) q := by
  obtain ⟨m, target, hlink, hq⟩ := hleads
  obtain ⟨front, c, rfl⟩ := (List.eq_nil_or_concat' inner).resolve_left hinner
  obtain ⟨hparent, hc⟩ := h.at?_parent (linkAt?_eq_some_iff.mp hlink)
  have hfront := (h.resolves hparent fun _ => Node.noConfusion).mono (Nat.zero_le (m + 1))
  rw [← List.append_assoc] at hlink hq
  rw [List.dropLast_concat] at hq
  have hinner := hfront.append (.follow hc hlink hq .done)
  exact ⟨max n (m + 1), (hpath.mono (Nat.le_max_left ..)).append (hinner.mono (Nat.le_max_right ..))⟩

/-! ## Reading entries -/

/-- What a link means for a package. -/
theorem readLink_spec (root : Place) (hq : t.Resolves n .root path q) : ∃ reading,
    t.readLink root path = .ok reading
      ∧ (∀ content, reading = .file content ↔
          q.isWithin root = true ∧ t.at? q = some (.file content) ∧ t.CanOpen path)
      ∧ (reading = .escaped ↔ q.isWithin root = false
          ∧ ¬ (path.getLast? = some skippedDirectory ∧ t.isDirAt q = true ∧ t.CanOpen path)) := by
  rw [readLink, resolve_eq hq]
  rcases toOption_walkFrom hq with ⟨hwalk, hopen⟩ | ⟨hwalk, hopen⟩
  · -- the link can be opened, so what is at the place counts
    rw [hwalk]
    by_cases hskipped : path.getLast? = some skippedDirectory ∧ t.isDirAt q = true
    · refine ⟨.nothing, by simp [hskipped], fun content => ?_, by simp [hskipped, hopen]⟩
      simp [isDirAt_iff.mp hskipped.2]
    · have hcond : ((some q).any t.isDirAt && path.getLast? == some skippedDirectory) = false :=
        Bool.eq_false_iff.mpr fun h => hskipped (by simpa [and_comm] using h)
      rw [hcond]
      by_cases hwithin : q.isWithin root = true
      · cases hnode : t.at? q with
        | none => exact ⟨.nothing, by simp [hwithin, hnode, Except.map], by simp, by simp [hwithin]⟩
        | some node =>
          cases node with
          | file content =>
            refine ⟨.file content, by simp [hwithin, hnode, Except.map], ?_, by simp [hwithin]⟩
            simp [hwithin, hopen]
          | dir | link =>
            exact ⟨.nothing, by simp [hwithin, hnode, Except.map], by simp, by simp [hwithin]⟩
      · refine ⟨.escaped, by simp [hwithin, Except.map], by simp [hwithin], ?_⟩
        simpa [hwithin, hopen] using hskipped
  · -- the link cannot be opened, so only the place counts
    rw [hwalk]
    by_cases hwithin : q.isWithin root = true
    · exact ⟨.nothing, by simp [hwithin, Except.map], by simp [hopen], by simp [hwithin]⟩
    · exact ⟨.escaped, by simp [hwithin, Except.map], by simp [hwithin], by simp [hwithin, hopen]⟩

/-- What a link below a directory has for the package. -/
theorem hasFile_iff_of_leadsTo (hleads : t.LeadsTo (dir ++ inner) q)
    (hkept : skippedDirectory ∉ inner.dropLast) : t.HasFile path dir inner content ↔
      q.isWithin ⟨0, dir⟩ = true ∧ t.at? q = some (.file content) ∧ t.CanOpen (path ++ inner) := by
  constructor
  · rintro ⟨-, hfile | ⟨q', hq', hrest⟩⟩
    · obtain ⟨n, target, hlink, -⟩ := hleads
      rw [linkAt?_eq_some_iff, hfile] at hlink
      cases hlink
    · rwa [← hleads.unique hq'] at hrest
  · exact fun hrest => ⟨hkept, .inr ⟨q, hleads, hrest⟩⟩

theorem hasEscaped_iff_of_leadsTo (hleads : t.LeadsTo (dir ++ inner) q)
    (hkept : skippedDirectory ∉ inner.dropLast) : t.HasEscaped path dir inner ↔
      q.isWithin ⟨0, dir⟩ = false
        ∧ ¬ (inner.getLast? = some skippedDirectory ∧ t.isDirAt q = true ∧ t.CanOpen (path ++ inner)) := by
  constructor
  · rintro ⟨-, q', hq', hrest⟩
    rwa [← hleads.unique hq'] at hrest
  · exact fun hrest => ⟨hkept, q, hleads, hrest⟩

theorem not_leadsTo (hnode : t.at? ⟨0, path⟩ = some node) (hlink : ∀ target, node ≠ .link target) :
    ¬ t.LeadsTo path q := by
  rintro ⟨n, target, htarget, -⟩
  rw [linkAt?_eq_some_iff, hnode] at htarget
  exact hlink target (Option.some.inj htarget)

/-- What an entry below a directory means for the package. -/
theorem readEntry_spec (h : t.IsTree) (hloops : t.NoLoops) (hpath : t.Resolves n .root path ⟨0, dir⟩)
    (hentry : (inner, node) ∈ t.entriesBelow ⟨0, dir⟩) : ∃ reading,
    t.readEntry ⟨0, dir⟩ (path ++ inner) node = .ok reading
      ∧ (∀ content, reading = .file content ↔ t.HasFile path dir inner content)
      ∧ (reading = .escaped ↔ t.HasEscaped path dir inner) := by
  obtain ⟨hinner, hkept, hmem⟩ := mem_entriesBelow.mp hentry
  have hnode : t.at? ⟨0, dir ++ inner⟩ = some node :=
    (h.at?_eq_some_iff (List.append_ne_nil_of_right_ne_nil dir hinner)).mpr hmem
  cases node with
  | file content =>
    have hleads {q : Place} : ¬ t.LeadsTo (dir ++ inner) q := not_leadsTo hnode fun _ => Node.noConfusion
    refine ⟨.file content, rfl, fun content' => ?_, ?_⟩
    · simp [HasFile, hkept, hnode, hleads]
    · simp [HasEscaped, hleads]
  | dir =>
    have hleads {q : Place} : ¬ t.LeadsTo (dir ++ inner) q := not_leadsTo hnode fun _ => Node.noConfusion
    refine ⟨.nothing, rfl, fun content' => ?_, ?_⟩
    · simp [HasFile, hnode, hleads]
    · simp [HasEscaped, hleads]
  | link target =>
    obtain ⟨q, hleads⟩ := hloops.leadsTo (by rw [linkAt?_eq_some_iff.mpr hnode]; rfl)
    obtain ⟨m, hq⟩ := h.resolves_of_leadsTo hpath hinner hleads
    obtain ⟨reading, hread, hfile, hescaped⟩ := readLink_spec ⟨0, dir⟩ hq
    refine ⟨reading, hread, fun content => ?_, ?_⟩
    · rw [hfile, hasFile_iff_of_leadsTo hleads hkept]
    · rw [hescaped, hasEscaped_iff_of_leadsTo hleads hkept, List.getLast?_append_of_ne_nil _ hinner]

/-! ## Reading packages -/

/-- What an entry below a directory means for the package, if that can be told. -/
def readingOf (t : Tree) (path dir : List String) (entry : List String × Node) : Reading :=
  (t.readEntry ⟨0, dir⟩ (path ++ entry.1) entry.2).toOption.getD .nothing

/-- What the entries below a directory mean for the package, with their paths in text form. -/
def readings (t : Tree) (path dir : List String) : List (String × Reading) :=
  (t.entriesBelow ⟨0, dir⟩).map fun entry => (pathText entry.1, t.readingOf path dir entry)

/-- The file that is read at a path, if it is one. -/
def fileRead : String × Reading → Option (String × ByteArray)
  | (path, .file content) => some (path, content)
  | _ => none

/-- The path of a link, if it leads out. -/
def linkRead : String × Reading → Option String
  | (path, .escaped) => some path
  | _ => none

theorem fileRead_eq_some_iff {r : String × Reading} :
    fileRead r = some (name, content) ↔ r = (name, .file content) := by
  obtain ⟨path, reading⟩ := r
  cases reading with
  | file content' => simp [fileRead]
  | escaped | nothing => simp [fileRead]

theorem linkRead_eq_some_iff {r : String × Reading} : linkRead r = some name ↔ r = (name, .escaped) := by
  obtain ⟨path, reading⟩ := r
  cases reading with
  | escaped => simp [linkRead]
  | file | nothing => simp [linkRead]

theorem HasFile.there (h : t.HasFile path dir inner content) :
    skippedDirectory ∉ inner.dropLast ∧ ∃ node, t.at? ⟨0, dir ++ inner⟩ = some node := by
  obtain ⟨hkept, hfile | ⟨q, ⟨n, target, hlink, -⟩, -⟩⟩ := h
  · exact ⟨hkept, _, hfile⟩
  · exact ⟨hkept, _, linkAt?_eq_some_iff.mp hlink⟩

theorem HasEscaped.there (h : t.HasEscaped path dir inner) :
    skippedDirectory ∉ inner.dropLast ∧ ∃ node, t.at? ⟨0, dir ++ inner⟩ = some node := by
  obtain ⟨hkept, q, ⟨n, target, hlink, -⟩, -⟩ := h
  exact ⟨hkept, _, linkAt?_eq_some_iff.mp hlink⟩

theorem IsTree.componentsOf_pathText (h : t.IsTree) (hentry : (inner, node) ∈ t.entriesBelow ⟨0, dir⟩) :
    componentsOf (pathText inner) = inner := by
  obtain ⟨hinner, -, hmem⟩ := mem_entriesBelow.mp hentry
  refine Tree.componentsOf_pathText hinner fun c hc => ?_
  exact (h.names _ hmem c (List.mem_append_right dir hc)).2.2.2.1

/-- The entries below a directory are found by the components of their paths. -/
theorem exists_mem_entriesBelow_iff (h : t.IsTree) {P : List String → Prop}
    (hthere : ∀ inner, P inner →
      skippedDirectory ∉ inner.dropLast ∧ ∃ node, t.at? ⟨0, dir ++ inner⟩ = some node) :
    (∃ entry ∈ t.entriesBelow ⟨0, dir⟩, P entry.1 ∧ pathText entry.1 = name)
      ↔ P (componentsOf name) := by
  constructor
  · rintro ⟨⟨inner, node⟩, hentry, hP, rfl⟩
    rwa [h.componentsOf_pathText hentry]
  · intro hP
    obtain ⟨hkept, node, hnode⟩ := hthere _ hP
    have hinner := componentsOf_ne_nil name
    have hmem := (h.at?_eq_some_iff (List.append_ne_nil_of_right_ne_nil dir hinner)).mp hnode
    exact ⟨_, mem_entriesBelow.mpr ⟨hinner, hkept, hmem⟩, hP, pathText_componentsOf name⟩

section

variable (h : t.IsTree) (hloops : t.NoLoops) (hpath : t.Resolves n .root path ⟨0, dir⟩)
include h hloops hpath

theorem readingOf_spec {entry : List String × Node} (hentry : entry ∈ t.entriesBelow ⟨0, dir⟩) :
    t.readEntry ⟨0, dir⟩ (path ++ entry.1) entry.2 = .ok (t.readingOf path dir entry)
      ∧ (∀ content, t.readingOf path dir entry = .file content ↔ t.HasFile path dir entry.1 content)
      ∧ (t.readingOf path dir entry = .escaped ↔ t.HasEscaped path dir entry.1) := by
  obtain ⟨reading, hread, hspec⟩ := readEntry_spec h hloops hpath hentry
  have hreading : t.readingOf path dir entry = reading := by rw [readingOf, hread]; rfl
  rw [hreading]
  exact ⟨hread, hspec⟩

theorem mem_readings_file_iff : (name, .file content) ∈ t.readings path dir
    ↔ t.HasFile path dir (componentsOf name) content := by
  rw [← exists_mem_entriesBelow_iff h fun _ => HasFile.there, readings, List.mem_map]
  refine exists_congr fun entry => and_congr_right fun hentry => ?_
  rw [Prod.mk.injEq, (readingOf_spec h hloops hpath hentry).2.1, and_comm]

theorem mem_readings_escaped_iff : (name, .escaped) ∈ t.readings path dir
    ↔ t.HasEscaped path dir (componentsOf name) := by
  rw [← exists_mem_entriesBelow_iff h fun _ => HasEscaped.there, readings, List.mem_map]
  refine exists_congr fun entry => and_congr_right fun hentry => ?_
  rw [Prod.mk.injEq, (readingOf_spec h hloops hpath hentry).2.2, and_comm]

end

/-- Every path below a directory is read once. -/
theorem IsTree.nodup_readings (h : t.IsTree) : ((t.readings path dir).map Prod.fst).Nodup := by
  have hpaths : ((t.readings path dir).map Prod.fst).map componentsOf
      = (t.entriesBelow ⟨0, dir⟩).map Prod.fst := by
    rw [readings, List.map_map, List.map_map]
    exact List.map_congr_left fun _ hentry => h.componentsOf_pathText hentry
  refine List.Nodup.of_map componentsOf ?_
  rw [hpaths]
  exact h.nodup_entriesBelow

theorem IsTree.nodup_filterMap_linkRead (h : t.IsTree) :
    ((t.readings path dir).filterMap linkRead).Nodup := by
  rw [List.Nodup, List.pairwise_filterMap]
  refine (List.pairwise_map.mp h.nodup_readings).imp fun hne name hname name' hname' heq => hne ?_
  rw [linkRead_eq_some_iff.mp hname, linkRead_eq_some_iff.mp hname', heq]

theorem IsTree.reading_unique {a b : Reading} (h : t.IsTree) (ha : (name, a) ∈ t.readings path dir)
    (hb : (name, b) ∈ t.readings path dir) : a = b :=
  (Prod.mk.inj (List.inj_on_of_nodup_map h.nodup_readings ha hb rfl)).2

/-- The package that is read, as far as the entries below the directory can be told. -/
def packageRead (t : Tree) (path dir : List String) : FileSet :=
  (FileSet.ofList ((t.readings path dir).filterMap fileRead)).withEscapedLinks
    ((t.readings path dir).filterMap linkRead)

theorem IsTree.content?_packageRead_iff (h : t.IsTree) :
    (t.packageRead path dir).content? name = some content
      ↔ (name, .file content) ∈ t.readings path dir := by
  have hfile {name : String} {content : ByteArray} :
      (name, content) ∈ (t.readings path dir).filterMap fileRead
        ↔ (name, .file content) ∈ t.readings path dir := by
    simp [List.mem_filterMap, fileRead_eq_some_iff]
  rw [packageRead, FileSet.content?_withEscapedLinks, FileSet.content?_ofList_eq_some_iff, hfile]
  intro name a b ha hb
  exact Reading.file.inj (h.reading_unique (hfile.mp ha) (hfile.mp hb))

theorem mem_escapedLinks_packageRead :
    name ∈ (t.packageRead path dir).escapedLinks ↔ (name, .escaped) ∈ t.readings path dir := by
  rw [packageRead, FileSet.mem_escapedLinks_withEscapedLinks]
  simp [List.mem_filterMap, linkRead_eq_some_iff]

/-- A package is read if every entry below its directory can be. -/
theorem readPackage_eq (hread : ∀ entry ∈ t.entriesBelow ⟨0, dir⟩,
    t.readEntry ⟨0, dir⟩ (path ++ entry.1) entry.2 = .ok (t.readingOf path dir entry)) :
    t.readPackage path ⟨0, dir⟩ = .ok (t.packageRead path dir) := by
  unfold readPackage
  rw [mapM_eq_ok (g := fun entry => (pathText entry.1, t.readingOf path dir entry)) ?readings]
  · rfl
  case readings =>
    rintro ⟨inner, node⟩ hentry
    dsimp only
    rw [hread _ hentry]
    rfl

/-- A package cannot be read where an entry below its directory cannot be. -/
theorem exists_of_readPackage_eq_error {e : Fault} (h : t.readPackage path root = .error e) :
    ∃ entry ∈ t.entriesBelow root, t.readEntry root (path ++ entry.1) entry.2 = .error e := by
  rcases bind_eq_error.mp h with hreadings | ⟨readings, -, h⟩
  · obtain ⟨entry, hentry, herror⟩ := exists_error_of_mapM hreadings
    refine ⟨entry, hentry, ?_⟩
    rcases bind_eq_error.mp herror with hread | ⟨reading, -, h⟩
    · exact hread
    · cases h
  · cases h

theorem exists_of_readPackage_eq_ok {fs : FileSet} (h : t.readPackage path root = .ok fs)
    {entry : List String × Node} (hentry : entry ∈ t.entriesBelow root) :
    ∃ reading, t.readEntry root (path ++ entry.1) entry.2 = .ok reading := by
  obtain ⟨readings, hreadings, -⟩ := bind_eq_ok.mp h
  obtain ⟨r, -, hr⟩ := mem_of_mapM hreadings hentry
  obtain ⟨reading, hread, -⟩ := bind_eq_ok.mp hr
  exact ⟨reading, hread⟩

theorem readPackage_eq_of_ok {fs : FileSet} (h : t.readPackage path ⟨0, dir⟩ = .ok fs) :
    fs = t.packageRead path dir := by
  have heq := readPackage_eq fun entry hentry => by
    obtain ⟨reading, hread⟩ := exists_of_readPackage_eq_ok h hentry
    rw [readingOf, hread]
    rfl
  exact Except.ok.inj (h.symm.trans heq)

/-- The package in a directory: the files that it has and the links that lead out of it. -/
theorem readPackage_spec (h : t.IsTree) (hloops : t.NoLoops)
    (hpath : t.Resolves n .root path ⟨0, dir⟩) : ∃ fs, t.readPackage path ⟨0, dir⟩ = .ok fs
      ∧ (∀ name content, fs.content? name = some content
          ↔ t.HasFile path dir (componentsOf name) content)
      ∧ fs.escapedLinks.Pairwise (· < ·)
      ∧ ∀ name, name ∈ fs.escapedLinks ↔ t.HasEscaped path dir (componentsOf name) := by
  refine ⟨_, readPackage_eq fun entry hentry => (readingOf_spec h hloops hpath hentry).1,
    fun name content => ?_, FileSet.pairwise_escapedLinks h.nodup_filterMap_linkRead, fun name => ?_⟩
  · rw [h.content?_packageRead_iff, mem_readings_file_iff h hloops hpath]
  · rw [mem_escapedLinks_packageRead, mem_readings_escaped_iff h hloops hpath]

end TypstLint.Tree
