import TypstLint.Proofs.Tree.Packages
import TypstLint.Registry

set_option autoImplicit false

/-! # Trees of regular files

In a tree without links (`IsCheckout`) a path leads to the entry with its components or nowhere
(`walkWith_spec`), and the package in a directory is made of the files below it (`readPackage_spec`).
Where no directory is empty (`IsFull`), the directories are what files lie below. -/

namespace TypstLint.Tree

/-- A tree of regular files and directories, as the clone of a repository is one. -/
structure IsCheckout (t : Tree) : Prop where
  nodup : (t.entries.map Prod.fst).Nodup
  ne_root : ∀ entry ∈ t.entries, entry.1 ≠ []
  names : ∀ entry ∈ t.entries, ∀ c ∈ entry.1, IsName c
  parent : ∀ entry ∈ t.entries, t.isDirAt ⟨0, entry.1.dropLast⟩ = true
  regular : ∀ entry ∈ t.entries, t.linkAt? ⟨0, entry.1⟩ = none
  /-- Version control keeps its own directory at the root, and no other directory has its name. -/
  packaged : ∀ entry ∈ t.entries, skippedDirectory ∉ entry.1.tail.dropLast

theorem isCheckout_iff {t : Tree} : t.IsCheckout ↔
    (t.entries.map Prod.fst).Nodup ∧ ∀ entry ∈ t.entries, entry.1 ≠ [] ∧ (∀ c ∈ entry.1, IsName c)
      ∧ t.isDirAt ⟨0, entry.1.dropLast⟩ = true ∧ t.linkAt? ⟨0, entry.1⟩ = none
      ∧ skippedDirectory ∉ entry.1.tail.dropLast := by
  constructor
  · rintro ⟨hnodup, hroot, hnames, hparent, hregular, hpackaged⟩
    exact ⟨hnodup, fun entry hentry => ⟨hroot entry hentry, hnames entry hentry,
      hparent entry hentry, hregular entry hentry, hpackaged entry hentry⟩⟩
  · rintro ⟨hnodup, hentries⟩
    exact
      { nodup := hnodup
        ne_root := fun entry hentry => (hentries entry hentry).1
        names := fun entry hentry => (hentries entry hentry).2.1
        parent := fun entry hentry => (hentries entry hentry).2.2.1
        regular := fun entry hentry => (hentries entry hentry).2.2.2.1
        packaged := fun entry hentry => (hentries entry hentry).2.2.2.2 }

instance (t : Tree) : Decidable t.IsCheckout := decidable_of_iff' _ isCheckout_iff

/-- The content of the file at a path. -/
def fileAt? (t : Tree) (path : List String) : Option ByteArray :=
  match t.at? ⟨0, path⟩ with
  | some (.file content) => some content
  | _ => none

/-- A tree without empty directories, as version control keeps it: there is a file at or below every
entry. -/
def IsFull (t : Tree) : Prop :=
  ∀ entry ∈ t.entries, ∃ below ∈ t.entries, entry.1 <+: below.1 ∧ (t.fileAt? below.1).isSome = true

instance (t : Tree) : Decidable t.IsFull := List.decidableBAll _ _

/-- Whether the path of components is longer than a directory tree admits. -/
def TooLong (components : List String) : Prop :=
  maxPathBytes < components.foldl (fun n c => n + c.utf8ByteSize + 1) 0

instance : DecidablePred TooLong := fun _ => inferInstanceAs (Decidable (_ < _))

variable {t : Tree} {node : Node} {path dir inner components : List String} {content : ByteArray}

/-- Few names do not make a path too long. -/
theorem not_tooLong (hnames : ∀ c ∈ components, IsName c) (hlength : components.length ≤ 15) :
    ¬ TooLong components := by
  have hbound (n : Nat) : components.foldl (fun n c => n + c.utf8ByteSize + 1) n
      ≤ n + (maxNameBytes + 1) * components.length := by
    clear hlength
    induction components generalizing n with
    | nil => simp
    | cons c rest ih =>
      have hc := (hnames c List.mem_cons_self).2.2.2.2
      have hrest := ih (fun c' hc' => hnames c' (List.mem_cons_of_mem c hc')) (n + c.utf8ByteSize + 1)
      rw [List.foldl_cons, List.length_cons, Nat.mul_add]
      omega
  have hfew := Nat.mul_le_mul_left (maxNameBytes + 1) hlength
  refine Nat.not_lt.mpr ((hbound 0).trans ?_)
  rw [Nat.zero_add]
  exact hfew.trans (by decide)

theorem fileAt?_eq_some_iff :
    t.fileAt? path = some content ↔ t.at? ⟨0, path⟩ = some (.file content) := by
  unfold fileAt?
  split
  · next h => simp [h]
  · next h => simpa using h content

theorem fileAt?_eq_none (h : ∀ entry ∈ t.entries, entry.1 ≠ path) : t.fileAt? path = none := by
  refine Option.eq_none_iff_forall_ne_some.mpr fun content hfile => ?_
  rw [fileAt?_eq_some_iff, at?] at hfile
  split at hfile
  · cases hfile
  · split at hfile
    · exact h _ (Assoc.mem_of_lookup hfile) rfl
    · cases hfile

namespace IsCheckout

theorem isTree (h : t.IsCheckout) : t.IsTree where
  nodup := h.nodup
  ne_root := h.ne_root
  names := h.names
  parent := h.parent

theorem linkAt?_eq_none (h : t.IsCheckout) {target : String} :
    t.at? ⟨0, path⟩ ≠ some (.link target) := by
  intro hlink
  have hpath : path ≠ [] := by
    rintro rfl
    cases hlink
  have hregular := h.regular _ ((h.isTree.at?_eq_some_iff hpath).mp hlink)
  rw [linkAt?, hlink] at hregular
  cases hregular

/-! ## Finding entries -/

/-- A walk arrives at the entry with the components, if there is one. -/
theorem walkWith_spec (h : t.IsCheckout) {follow : Place → List String → Except WalkError Place}
    (hnames : ∀ c ∈ components, IsName c) :
    walkWith t follow ⟨0, dir⟩ components = .ok ⟨0, dir ++ components⟩
    ∨ (∃ e, e ≠ .nameTooLong ∧ walkWith t follow ⟨0, dir⟩ components = .error e)
      ∧ t.at? ⟨0, dir ++ components⟩ = none := by
  induction components generalizing dir with
  | nil =>
    rw [List.append_nil]
    exact .inl rfl
  | cons c rest ih =>
    obtain ⟨hempty, hdot, hup, -, hlength⟩ := hnames c List.mem_cons_self
    have hc : (c.isEmpty || c == ".") = false := by simp [hempty, hdot]
    by_cases hdir : t.isDirAt ⟨0, dir⟩ = true
    · -- the component is a name, so the walk looks for an entry
      have happend : dir ++ c :: rest = dir ++ [c] ++ rest := by simp
      have hchild : t.child ⟨0, dir⟩ c = ⟨0, dir ++ [c]⟩ := rfl
      rw [walkWith, hdir, hc, beq_false_of_ne hup, if_neg (Nat.not_lt.mpr hlength), hchild, happend]
      cases hnode : t.at? ⟨0, dir ++ [c]⟩ with
      | none =>
        refine .inr ⟨⟨.notFound, by decide, rfl⟩, ?_⟩
        by_cases hrest : rest = []
        · rwa [hrest, List.append_nil]
        · refine Option.eq_none_iff_forall_ne_some.mpr fun node hfound => ?_
          have hdir := isDirAt_iff.mp (h.isTree.isDirAt_of_append hrest hfound)
          rw [hnode] at hdir
          cases hdir
      | some node =>
        have hrest : ∀ c' ∈ rest, IsName c' := fun c' hc' => hnames c' (List.mem_cons_of_mem c hc')
        cases node with
        | file content => exact ih hrest
        | dir => exact ih hrest
        | link target => exact absurd hnode h.linkAt?_eq_none
    · refine .inr ⟨⟨.notDirectory, by decide, ?_⟩, ?_⟩
      · rw [walkWith, Bool.eq_false_iff.mpr hdir]
        rfl
      · refine Option.eq_none_iff_forall_ne_some.mpr fun node hfound => hdir ?_
        exact h.isTree.isDirAt_of_append (List.cons_ne_nil c rest) hfound

theorem find_eq (h : t.IsCheckout) (hnames : ∀ c ∈ components, IsName c) :
    t.find components =
      if TooLong components then .error .nameTooLong
      else .ok ((t.at? ⟨0, components⟩).map (⟨0, components⟩, ·)) := by
  obtain ⟨follow, hwalk⟩ : ∃ follow, t.walk components =
      if TooLong components then .error .nameTooLong
      else walkWith t follow ⟨0, []⟩ components := ⟨_, rfl⟩
  rw [find, hwalk]
  by_cases hlong : TooLong components
  · rw [if_pos hlong, if_pos hlong]
  · rw [if_neg hlong, if_neg hlong]
    rcases h.walkWith_spec hnames with hok | ⟨⟨e, he, herror⟩, hnone⟩
    · rw [hok, List.nil_append]
    · rw [List.nil_append] at hnone
      rw [herror, hnone]
      cases e with
      | nameTooLong => exact absurd rfl he
      | notFound | notDirectory | loop => rfl

theorem findDir_eq (h : t.IsCheckout) (hnames : ∀ c ∈ components, IsName c) :
    t.findDir components =
      if TooLong components then .error .nameTooLong
      else .ok (if t.isDirAt ⟨0, components⟩ then some ⟨0, components⟩ else none) := by
  rw [findDir, h.find_eq hnames]
  split_ifs with hlong hdir
  · rfl
  · rw [isDirAt_iff.mp hdir]
    rfl
  · rw [isDirAt_iff] at hdir
    cases hnode : t.at? ⟨0, components⟩ with
    | none => rfl
    | some node =>
      cases node with
      | dir => exact absurd hnode hdir
      | file content => rfl
      | link target => rfl

/-- In a tree without empty directories they are what files lie below. -/
theorem isDirAt_iff_exists (h : t.IsCheckout) (hfull : t.IsFull) (hpath : path ≠ []) :
    t.isDirAt ⟨0, path⟩ = true ↔ ∃ inner ≠ [], (t.fileAt? (path ++ inner)).isSome = true := by
  constructor
  · intro hdir
    have hnode := isDirAt_iff.mp hdir
    obtain ⟨⟨_, _⟩, -, ⟨inner, rfl⟩, hfile⟩ := hfull _ ((h.isTree.at?_eq_some_iff hpath).mp hnode)
    refine ⟨inner, fun hnil => ?_, hfile⟩
    obtain ⟨content, hcontent⟩ := Option.isSome_iff_exists.mp hfile
    rw [hnil, List.append_nil, fileAt?_eq_some_iff, hnode] at hcontent
    cases hcontent
  · rintro ⟨inner, hinner, hfile⟩
    obtain ⟨content, hcontent⟩ := Option.isSome_iff_exists.mp hfile
    exact h.isTree.isDirAt_of_append hinner (fileAt?_eq_some_iff.mp hcontent)

/-! ## Reading packages -/

theorem noLoops (h : t.IsCheckout) : t.NoLoops := by
  refine noLoops_iff.mpr fun path hlink => ?_
  obtain ⟨target, htarget⟩ := Option.isSome_iff_exists.mp hlink
  exact absurd (linkAt?_eq_some_iff.mp htarget) h.linkAt?_eq_none

theorem not_leadsTo (h : t.IsCheckout) {q : Place} : ¬ t.LeadsTo path q := by
  rintro ⟨n, target, hlink, -⟩
  exact h.linkAt?_eq_none (linkAt?_eq_some_iff.mp hlink)

/-- The package in a directory has the files below it. -/
theorem hasFile_iff (h : t.IsCheckout) (hdir : dir ≠ []) (hinner : inner ≠ []) :
    t.HasFile path dir inner content ↔ t.fileAt? (dir ++ inner) = some content := by
  rw [fileAt?_eq_some_iff]
  constructor
  · rintro ⟨-, hfile | ⟨q, hleads, -⟩⟩
    · exact hfile
    · exact absurd hleads h.not_leadsTo
  · intro hfile
    refine ⟨?_, .inl hfile⟩
    obtain ⟨first, rest, rfl⟩ := List.exists_cons_of_ne_nil hdir
    have hout := h.packaged _ ((h.isTree.at?_eq_some_iff (by simp)).mp hfile)
    rw [List.cons_append, List.tail_cons, List.dropLast_append_of_ne_nil hinner] at hout
    exact fun hin => hout (List.mem_append_right _ hin)

/-- The package in a directory: the files below it. -/
theorem readPackage_spec (h : t.IsCheckout) (hdir : dir ≠ []) (hroot : t.isDirAt ⟨0, dir⟩ = true) :
    ∃ fs, t.readPackage dir ⟨0, dir⟩ = .ok fs ∧ fs.escapedLinks = []
      ∧ ∀ path, fs.content? path = t.fileAt? (dir ++ componentsOf path) := by
  have hpath : t.Resolves 0 .root ([] ++ dir) ⟨0, [] ++ dir⟩ :=
    h.isTree.resolves (isDirAt_iff.mp hroot) fun _ => Node.noConfusion
  obtain ⟨fs, hread, hfiles, -, hlinks⟩ := Tree.readPackage_spec h.isTree h.noLoops hpath
  refine ⟨fs, hread, List.eq_nil_iff_forall_not_mem.mpr fun name hname => ?_, fun path => ?_⟩
  · obtain ⟨-, q, hleads, -⟩ := (hlinks name).mp hname
    exact h.not_leadsTo hleads
  · refine Option.ext fun content => ?_
    rw [hfiles]
    exact h.hasFile_iff hdir (componentsOf_ne_nil path)

/-! ## Loading packages -/

/-- Loads the package in a directory: the overlay has the word on the paths that it names, and the tree
on all others. -/
theorem load_spec {overlay : Option Overlay} (h : t.IsCheckout) (hdir : dir ≠ [])
    (hnames : ∀ c ∈ dir, IsName c) (hshort : ¬ TooLong dir)
    (hthere : t.isDirAt ⟨0, dir⟩ = true ∨ overlay.isSome = true)
    (honce : ((overlay.getD []).map Prod.fst).Nodup) :
    ∃ fs, t.load dir overlay = .ok fs ∧ fs.escapedLinks = []
      ∧ ∀ path, fs.content? path =
        ((overlay.getD []).lookup path).getD (t.fileAt? (dir ++ componentsOf path)) := by
  have hfind := (h.findDir_eq hnames).trans (if_neg hshort)
  by_cases hroot : t.isDirAt ⟨0, dir⟩ = true
  · obtain ⟨fs, hread, hlinks, hcontent⟩ := h.readPackage_spec hdir hroot
    refine ⟨fs.overlaid (overlay.getD []), ?_, ?_, fun path => ?_⟩
    · rw [load, hfind, if_pos hroot]
      dsimp only [bind, Except.bind]
      rw [hread]
      rfl
    · rw [FileSet.escapedLinks_overlaid, hlinks]
    · rw [FileSet.content?_overlaid honce, hcontent]
  · obtain ⟨entries, rfl⟩ := Option.isSome_iff_exists.mp (hthere.resolve_left hroot)
    refine ⟨FileSet.empty.overlaid entries, ?_, ?_, fun path => ?_⟩
    · rw [load, hfind, if_neg hroot]
      rfl
    · rw [FileSet.escapedLinks_overlaid]
      rfl
    · -- there is nothing below what is no directory
      have hnone : t.fileAt? (dir ++ componentsOf path) = none := by
        refine Option.eq_none_iff_forall_ne_some.mpr fun content hfile => hroot ?_
        exact h.isTree.isDirAt_of_append (componentsOf_ne_nil path) (fileAt?_eq_some_iff.mp hfile)
      rw [hnone, Option.getD_some]
      exact FileSet.content?_overlaid honce

end IsCheckout

end TypstLint.Tree

/-! ## Loading versions

What is loaded from a registry that is a tree of regular files. -/

namespace TypstLint.Registry

open TypstLint.Tree (componentsOf IsName TooLong)

variable {t : Tree} {spec : Spec} {overlay : Option Overlay}

theorem packageDir_eq (t : Tree) (spec : Spec) :
    packageDir ⟨t, []⟩ spec = componentsOf spec.registryPath := List.nil_append _

theorem load_tooLong (h : t.IsCheckout) (hnames : ∀ c ∈ componentsOf spec.registryPath, IsName c)
    (hlong : TooLong (componentsOf spec.registryPath)) :
    Registry.load ⟨t, []⟩ spec overlay = .error .nameTooLong := by
  rw [load, packageDir_eq, h.findDir_eq hnames, if_pos hlong]
  rfl

theorem load_spec (overlay : Option Overlay) (h : t.IsCheckout)
    (hnames : ∀ c ∈ componentsOf spec.registryPath, IsName c)
    (hshort : ¬ TooLong (componentsOf spec.registryPath))
    (hthere : t.isDirAt ⟨0, componentsOf spec.registryPath⟩ = true ∨ overlay.getD [] ≠ [])
    (honce : ((overlay.getD []).map Prod.fst).Nodup) :
    ∃ fs, Registry.load ⟨t, []⟩ spec overlay = .ok (some fs) ∧ fs.escapedLinks = []
      ∧ ∀ path, fs.content? path = ((overlay.getD []).lookup path).getD
          (t.fileAt? (componentsOf spec.registryPath ++ componentsOf path)) := by
  have hsome : overlay.getD [] ≠ [] → overlay.isSome = true := by
    cases overlay with
    | none => exact fun hne => absurd rfl hne
    | some entries => exact fun _ => rfl
  obtain ⟨fs, hload, hspec⟩ := h.load_spec (Tree.componentsOf_ne_nil spec.registryPath) hnames hshort
    (hthere.imp_right hsome) honce
  refine ⟨fs, ?_, hspec⟩
  rw [load, packageDir_eq, h.findDir_eq hnames, if_neg hshort]
  dsimp only [bind, Except.bind]
  rw [hload]
  rcases hthere with hdir | hne
  · rw [if_pos hdir]
    rfl
  · rw [List.isEmpty_eq_false_iff.mpr hne, Bool.and_false]
    rfl

end TypstLint.Registry
