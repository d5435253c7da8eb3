import TypstLint.Text.Blank
import TypstLint.Text.Case
import TypstLint.Text.Encoding

set_option autoImplicit false

/-! # File sets

A `FileSet` is the content of a package: files in the order of their paths, and the links that lead out
of the package. Every path occurs once. This is part of the structure and kept by `insertFile`, so file
sets with the same files and links are equal, in whatever order the files were added. -/

namespace TypstLint

/-! ## Files -/

/-- A file of a package. Its path starts at the root of the package. -/
structure SourceFile where
  path : String
  content : ByteArray

namespace SourceFile

/-- The text of a file, if the file is valid UTF-8. -/
def text? (f : SourceFile) : Option (List Char) := Text.Utf8.decode? f.content

/-- Whether a path is that of a Typst source. -/
def isTypstPath (path : String) : Bool := ".typ".toList.isSuffixOf path.toList

/-- Whether a file is a Typst source. -/
def isTypst (f : SourceFile) : Bool := isTypstPath f.path

/-- The number of bytes of a file. -/
def size (f : SourceFile) : Nat := f.content.size

/-- The part of a file's name from its last point on, in small letters; empty without a point. -/
def suffix (f : SourceFile) : String :=
  let name := Text.afterLast '/' f.path.toList
  if name.contains '.' then String.ofList ('.' :: Text.toLower (Text.afterLast '.' name)) else ""

end SourceFile

/-! ## File sets -/

/-- Adds a file at its place in a list that is sorted by path; a file with the path is replaced. -/
def insertFile (f : SourceFile) : List SourceFile → List SourceFile
  | [] => [f]
  | g :: rest =>
    if f.path < g.path then f :: g :: rest
    else if f.path = g.path then f :: rest
    else g :: insertFile f rest

theorem mem_insertFile {f g : SourceFile} {fs : List SourceFile} (h : g ∈ insertFile f fs) :
    g = f ∨ g ∈ fs := by
  induction fs with
  | nil => simpa [insertFile] using h
  | cons x rest ih =>
    simp only [insertFile] at h
    split at h
    · simpa using h
    · split at h
      · rcases List.mem_cons.mp h with h | h
        · exact .inl h
        · exact .inr (List.mem_cons_of_mem x h)
      · rcases List.mem_cons.mp h with h | h
        · exact .inr (h ▸ List.mem_cons_self)
        · exact (ih h).imp_right (List.mem_cons_of_mem x)

theorem sorted_insertFile (f : SourceFile) {fs : List SourceFile}
    (h : fs.Pairwise fun a b => a.path < b.path) :
    (insertFile f fs).Pairwise fun a b => a.path < b.path := by
  induction fs with
  | nil => simp [insertFile]
  | cons x rest ih =>
    obtain ⟨first, tail⟩ := List.pairwise_cons.mp h
    simp only [insertFile]
    split
    · rename_i lt
      refine List.pairwise_cons.mpr ⟨fun g hg => ?_, h⟩
      rcases List.mem_cons.mp hg with rfl | hg
      · exact lt
      · exact String.lt_trans lt (first g hg)
    · split
      · rename_i eq
        exact List.pairwise_cons.mpr ⟨fun g hg => eq ▸ first g hg, tail⟩
      · rename_i nlt ne
        refine List.pairwise_cons.mpr ⟨fun g hg => ?_, ih tail⟩
        rcases mem_insertFile hg with rfl | hg
        · refine Decidable.byContradiction fun nlt' => ne ?_
          exact String.le_antisymm (String.not_lt.mp nlt') (String.not_lt.mp nlt)
        · exact first g hg

/-- The content of a package. -/
structure FileSet where
  files : List SourceFile
  /-- The paths of links that lead out of the package, in order. -/
  escapedLinks : List String
  sorted : files.Pairwise fun a b => a.path < b.path

namespace FileSet

/-- The package without files. -/
def empty : FileSet := ⟨[], [], .nil⟩

/-- Adds a file, or replaces the one with its path. -/
def insert (fs : FileSet) (path : String) (content : ByteArray) : FileSet :=
  { fs with
    files := insertFile ⟨path, content⟩ fs.files
    sorted := sorted_insertFile _ fs.sorted }

/-- Removes the file with a path. -/
def erase (fs : FileSet) (path : String) : FileSet :=
  { fs with
    files := fs.files.filter (·.path != path)
    sorted := fs.sorted.filter _ }

/-- The package with other escaped links. -/
def withEscapedLinks (fs : FileSet) (links : List String) : FileSet :=
  { fs with escapedLinks := links.mergeSort fun a b => decide (a ≤ b) }

/-- The package of some files; of two with one path the later one counts. -/
def ofList (files : List (String × ByteArray)) : FileSet :=
  files.foldl (fun fs (path, content) => fs.insert path content) empty

/-- The file with a path. -/
def get? (fs : FileSet) (path : String) : Option SourceFile := fs.files.find? (·.path == path)

/-- Whether there is a file with a path. -/
def contains (fs : FileSet) (path : String) : Bool := fs.files.any (·.path == path)

/-- The paths of all files, in order. -/
def paths (fs : FileSet) : List String := fs.files.map (·.path)

/-- The Typst sources of a package. -/
def typstFiles (fs : FileSet) : List SourceFile := fs.files.filter (·.isTypst)

/-- Whether some file lies in a directory; slashes around its path do not matter. -/
def hasDir (fs : FileSet) (path : String) : Bool :=
  let dir := Text.trimWhile (· == '/') path.toList
  dir.isEmpty || fs.files.any fun f => (dir ++ ['/']).isPrefixOf f.path.toList

/-- How the names of license files start. -/
def licenseNames : List String := ["LICENSE", "LICENCE", "COPYING", "UNLICENSE"]

/-- Whether a path is that of a license: a file at the root whose name starts like one, in letters of
either case. -/
def isLicensePath (path : String) : Bool :=
  !path.toList.contains '/'
    && licenseNames.any fun name => name.toList.isPrefixOf (Text.toUpper path.toList)

/-- The first license file. -/
def licenseFile? (fs : FileSet) : Option SourceFile := fs.files.find? (isLicensePath ·.path)

end FileSet

end TypstLint
