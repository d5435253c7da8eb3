import TypstLint.Manifest.Basic
import TypstLint.Manifest.Reader
import TypstLint.Package.Basic
import TypstLint.Package.FileSet

set_option autoImplicit false

/-! # Loading the manifest of a package

Whatever is wrong with the manifest becomes a list of `LoadProblem`s (`load`). A manifest that can be
read is used even if files that it names are missing (`fileProblems`). These files are looked up in a
`Lookup`, because sometimes only the files of a package are known, and sometimes its directories as well. -/

/-! ## The files that a manifest names -/

namespace TypstLint.Manifest

/-- What can be asked about files: which paths there are, and, unless only files are known, whether
there are directories. -/
structure Lookup where
  contains : String → Bool
  hasDir : Option (String → Bool)

/-- The lookup in a file set. -/
def Lookup.ofFiles (fs : FileSet) : Lookup := ⟨fs.contains, some fs.hasDir⟩

/-- The problem that a path a manifest names does not exist, if `found` is false. -/
def requirePath (found : Bool) (table key what path : String) : List Problem :=
  if found then [] else [⟨table, some key, .absent what path⟩]

/-- The problems of a template's files. -/
def templateProblems (t : TemplateInfo) (files : Lookup) : List Problem :=
  requirePath (files.hasDir.all (· t.path)) "template" "path" "Template directory" t.path
    ++ requirePath (files.contains t.entrypointPath) "template" "entrypoint" "Template entrypoint"
      t.entrypointPath
    ++ t.thumbnail.toList.flatMap fun thumbnail =>
      requirePath (files.contains thumbnail) "template" "thumbnail" "Template thumbnail" thumbnail

/-- The problems of the files that a manifest names. -/
def fileProblems (m : Manifest) (files : Lookup) : List Problem :=
  requirePath (files.contains m.package.entrypoint) "package" "entrypoint" "Package entrypoint"
      m.package.entrypoint
    ++ m.template.toList.flatMap (templateProblems · files)

/-! ## Loading -/

/-- What keeps a package from having a flawless manifest. -/
inductive LoadProblem where
  | noFile
  | notUtf8
  | malformed
  | invalid (problem : Problem)
  deriving DecidableEq, Repr

namespace LoadProblem

/-- Under which rule a problem is reported. -/
def ruleId : LoadProblem → String
  | noFile | invalid _ => "manifest/invalid"
  | notUtf8 | malformed => "manifest/malformed"

/-- The wording of a problem. -/
def message : LoadProblem → String
  | noFile => s!"The package has no {manifestPath} file"
  | notUtf8 => s!"{manifestPath} is not valid UTF-8"
  | malformed => ReadError.malformed.message
  | invalid problem => problem.message

/-- The table that a problem is about. -/
def table : LoadProblem → Option String
  | invalid problem => some problem.table
  | _ => none

/-- The key that a problem is about. -/
def key : LoadProblem → Option String
  | invalid problem => problem.key
  | _ => none

/-- The problems of a text that is no manifest. -/
def ofReadError : ReadError → List LoadProblem
  | .malformed => [malformed]
  | .invalid problems => problems.map invalid

end LoadProblem

/-- What loading a manifest gives. -/
structure Loaded where
  manifest : Option Manifest
  problems : List LoadProblem
  /-- The text of the manifest, if it is valid UTF-8. -/
  text : Option (List Char)

/-- Loads the manifest of a package. -/
def load (files : FileSet) : Loaded :=
  match files.get? manifestPath with
  | none => ⟨none, [.noFile], none⟩
  | some source =>
    match source.text? with
    | none => ⟨none, [.notUtf8], none⟩
    | some text =>
      match read text with
      | .error e => ⟨none, LoadProblem.ofReadError e, some text⟩
      | .ok m => ⟨some m, (m.fileProblems (.ofFiles files)).map .invalid, some text⟩

end TypstLint.Manifest
