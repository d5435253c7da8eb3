import Mathlib.Data.List.Induction
import TypstLint.Proofs.Assoc
import TypstLint.Proofs.Text.Blank
import TypstLint.Tree.Load

set_option autoImplicit false

/-! # The entries of a tree

A path in text form and its components tell the same, as long as no component has a slash in it. In a
tree as a file system holds it (`IsTree`) every place has one entry, and the way to it leads through
directories (`isDirAt_of_append`). -/

namespace TypstLint.Tree

/-! ## Paths and their components -/

section

variable {path : String} {components : List String}

theorem toList_pathText (components : List String) :
    (pathText components).toList = ['/'].intercalate (components.map String.toList) :=
  String.toList_intercalate

theorem pathText_componentsOf (path : String) : pathText (componentsOf path) = path := by
  rw [← String.toList_inj, toList_pathText, componentsOf, List.map_map]
  have hid : String.toList ∘ String.ofList = id := funext fun _ => String.toList_ofList
  rw [hid, List.map_id]
  exact Text.intercalate_splitOn _

theorem componentsOf_inj {path' : String} (h : componentsOf path = componentsOf path') :
    path = path' := by
  rw [← pathText_componentsOf path, h, pathText_componentsOf]

theorem componentsOf_pathText (hne : components ≠ []) (h : ∀ c ∈ components, '/' ∉ c.toList) :
    componentsOf (pathText components) = components := by
  have hpieces : ∀ w ∈ components.map String.toList, '/' ∉ w := by
    intro w hw
    obtain ⟨c, hc, rfl⟩ := List.mem_map.mp hw
    exact h c hc
  rw [componentsOf, toList_pathText,
    Text.splitOn_intercalate (List.map_eq_nil_iff.not.mpr hne) hpieces, List.map_map]
  have hid : String.ofList ∘ String.toList = id := funext fun _ => String.ofList_toList
  rw [hid, List.map_id]

theorem componentsOf_ne_nil (path : String) : componentsOf path ≠ [] :=
  List.map_eq_nil_iff.not.mpr (Text.splitWhere_ne_nil _ _)

/-- The components of a path within a directory. -/
theorem componentsOf_append (dir path : String) :
    componentsOf (dir ++ "/" ++ path) = componentsOf dir ++ componentsOf path := by
  have htext : (dir ++ "/" ++ path).toList = dir.toList ++ '/' :: path.toList := by
    simp
  rw [componentsOf, htext, Text.splitOn_append, List.map_append]
  rfl

end

/-! ## Trees -/

/-- Whether a component can be the name of an entry. -/
def IsName (c : String) : Prop :=
  c ≠ "" ∧ c ≠ "." ∧ c ≠ ".." ∧ '/' ∉ c.toList ∧ c.utf8ByteSize ≤ maxNameBytes

instance : DecidablePred IsName := fun _ => inferInstanceAs (Decidable (_ ∧ _))

/-- A tree of files, directories and links as a file system holds it. -/
structure IsTree (t : Tree) : Prop where
  nodup : (t.entries.map Prod.fst).Nodup
  ne_root : ∀ entry ∈ t.entries, entry.1 ≠ []
  names : ∀ entry ∈ t.entries, ∀ c ∈ entry.1, IsName c
  parent : ∀ entry ∈ t.entries, t.isDirAt ⟨0, entry.1.dropLast⟩ = true

theorem isTree_iff {t : Tree} : t.IsTree ↔
    (t.entries.map Prod.fst).Nodup ∧ ∀ entry ∈ t.entries, entry.1 ≠ [] ∧ (∀ c ∈ entry.1, IsName c)
      ∧ t.isDirAt ⟨0, entry.1.dropLast⟩ = true := by
  constructor
  · rintro ⟨hnodup, hroot, hnames, hparent⟩
    exact ⟨hnodup, fun entry hentry =>
      ⟨hroot entry hentry, hnames entry hentry, hparent entry hentry⟩⟩
  · rintro ⟨hnodup, hentries⟩
    exact
      { nodup := hnodup
        ne_root := fun entry hentry => (hentries entry hentry).1
        names := fun entry hentry => (hentries entry hentry).2.1
        parent := fun entry hentry => (hentries entry hentry).2.2 }

instance (t : Tree) : Decidable t.IsTree := decidable_of_iff' _ isTree_iff

variable {t : Tree} {node : Node} {p : Place} {path dir inner : List String} {target : String}

/-! ## Places -/

theorem isDirAt_iff : t.isDirAt p = true ↔ t.at? p = some .dir := by
  unfold isDirAt
  split
  · next h => simp [h]
  · next h => simpa using h

theorem linkAt?_eq_some_iff : t.linkAt? p = some target ↔ t.at? p = some (.link target) := by
  unfold linkAt?
  split
  · next h => simp [h]
  · next h => simpa using h target

/-- What is no directory is an entry below the root. -/
theorem mem_entries_of_at? (hnode : t.at? p = some node) (hdir : node ≠ .dir) :
    p.above = 0 ∧ p.path ≠ [] ∧ (p.path, node) ∈ t.entries := by
  rw [at?] at hnode
  split at hnode
  · exact absurd (Option.some.inj hnode).symm hdir
  · next hpath =>
    split at hnode
    · next habove =>
      exact ⟨beq_iff_eq.mp habove, fun hnil => hpath (by rw [hnil]; rfl), Assoc.mem_of_lookup hnode⟩
    · cases hnode

/-- What is in a directory below the root is an entry. -/
theorem mem_entries_of_at?_child {c : String} (hdir : p.above = 0)
    (hnode : t.at? (t.child p c) = some node) : (p.path ++ [c], node) ∈ t.entries := by
  obtain ⟨above, path⟩ := p
  obtain rfl : above = 0 := hdir
  have hchild : t.child ⟨0, path⟩ c = ⟨0, path ++ [c]⟩ := rfl
  have hne : ¬ (path ++ [c]).isEmpty = true := by simp
  rw [hchild, at?, if_neg hne] at hnode
  exact Assoc.mem_of_lookup hnode

theorem mem_entries_of_linkAt? (hlink : t.linkAt? p = some target) :
    p.above = 0 ∧ p.path ≠ [] ∧ (p.path, .link target) ∈ t.entries :=
  mem_entries_of_at? (linkAt?_eq_some_iff.mp hlink) Node.noConfusion

/-- A directory that has a link in it lies below the root. -/
theorem eq_of_linkAt?_child {c : String} (hlink : t.linkAt? (t.child p c) = some target) :
    t.child p c = ⟨0, p.path ++ [c]⟩ ∧ p = ⟨0, p.path⟩ := by
  obtain ⟨habove, hpath, -⟩ := mem_entries_of_linkAt? hlink
  obtain ⟨above, path⟩ := p
  cases above with
  | zero => exact ⟨rfl, rfl⟩
  | succ above =>
    cases path with
    | nil =>
      rw [child] at habove hpath
      split at hpath
      · exact absurd rfl hpath
      · next hname =>
        rw [if_neg hname] at habove
        cases habove
    | cons first rest => cases habove

namespace IsTree

theorem at?_eq_some_iff (h : t.IsTree) (hpath : path ≠ []) :
    t.at? ⟨0, path⟩ = some node ↔ (path, node) ∈ t.entries := by
  rw [← Assoc.lookup_eq_some_iff_mem h.nodup]
  simp [at?, hpath]

theorem isName_of_at? (h : t.IsTree) (hnode : t.at? ⟨0, path⟩ = some node) :
    ∀ c ∈ path, IsName c := by
  by_cases hpath : path = []
  · subst hpath
    simp
  · exact h.names _ ((h.at?_eq_some_iff hpath).mp hnode)

/-- The directories on the way to an entry are there. -/
theorem isDirAt_of_append (h : t.IsTree) (hinner : inner ≠ [])
    (hnode : t.at? ⟨0, dir ++ inner⟩ = some node) : t.isDirAt ⟨0, dir⟩ = true := by
  induction inner using List.reverseRecOn generalizing node with
  | nil => exact absurd rfl hinner
  | append_singleton inner c ih =>
    rw [← List.append_assoc] at hnode
    have hmem := (h.at?_eq_some_iff (by simp)).mp hnode
    have hparent := h.parent _ hmem
    rw [List.dropLast_concat] at hparent
    by_cases hnil : inner = []
    · rwa [hnil, List.append_nil] at hparent
    · exact ih hnil (isDirAt_iff.mp hparent)

end IsTree

/-! ## Entries below a directory -/

/-- An entry as it is listed below a directory. -/
def listed (dir : List String) (entry : List String × Node) : Option (List String × Node) :=
  let inner := entry.1.drop dir.length
  if dir.isPrefixOf entry.1 && !inner.isEmpty && !inner.dropLast.contains skippedDirectory then
    some (inner, entry.2)
  else none

theorem entriesBelow_eq : t.entriesBelow ⟨0, dir⟩ = t.entries.filterMap (listed dir) := rfl

theorem listed_eq_some_iff {entry : List String × Node} : listed dir entry = some (inner, node) ↔
    inner ≠ [] ∧ skippedDirectory ∉ inner.dropLast ∧ entry = (dir ++ inner, node) := by
  obtain ⟨path, node'⟩ := entry
  constructor
  · intro hsome
    obtain ⟨hcond, heq⟩ := Option.ite_none_right_eq_some.mp hsome
    simp only [Bool.and_eq_true, List.isPrefixOf_iff_prefix] at hcond
    obtain ⟨⟨⟨rest, rfl⟩, hrest⟩, hkept⟩ := hcond
    rw [List.drop_left] at heq hrest hkept
    obtain ⟨rfl, rfl⟩ := Prod.mk.inj (Option.some.inj heq)
    exact ⟨by simpa using hrest, by simpa using hkept, rfl⟩
  · rintro ⟨hinner, hkept, heq⟩
    obtain ⟨rfl, rfl⟩ := Prod.mk.inj heq
    simp [listed, hinner, hkept]

theorem mem_entriesBelow : (inner, node) ∈ t.entriesBelow ⟨0, dir⟩ ↔
    inner ≠ [] ∧ skippedDirectory ∉ inner.dropLast ∧ (dir ++ inner, node) ∈ t.entries := by
  rw [entriesBelow_eq, List.mem_filterMap]
  constructor
  · rintro ⟨entry, hmem, hlisted⟩
    obtain ⟨hinner, hkept, rfl⟩ := listed_eq_some_iff.mp hlisted
    exact ⟨hinner, hkept, hmem⟩
  · rintro ⟨hinner, hkept, hmem⟩
    exact ⟨_, hmem, listed_eq_some_iff.mpr ⟨hinner, hkept, rfl⟩⟩

/-- Every path below a directory is listed once. -/
theorem IsTree.nodup_entriesBelow (h : t.IsTree) :
    ((t.entriesBelow ⟨0, dir⟩).map Prod.fst).Nodup := by
  rw [entriesBelow_eq, List.Nodup, List.pairwise_map, List.pairwise_filterMap]
  refine (List.pairwise_map.mp h.nodup).imp ?_
  rintro entry entry' hne ⟨inner, node⟩ hlisted ⟨inner', node'⟩ hlisted' rfl
  obtain ⟨-, -, rfl⟩ := listed_eq_some_iff.mp hlisted
  obtain ⟨-, -, rfl⟩ := listed_eq_some_iff.mp hlisted'
  exact hne rfl

end TypstLint.Tree
