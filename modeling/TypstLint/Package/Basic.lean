import TypstLint.Manifest.Basic
import TypstLint.Package.FileSet
import TypstLint.Package.Spec
import TypstLint.Text.Glob

set_option autoImplicit false

/-! # Packages

A `Package` is its files, its manifest if that can be read, and the specification under which it is
checked, if there is one. The rest of the checker asks it for names and entrypoints without having to
know which of them the manifest gives (`name`, `entrypoints`), and for what is not published
(`isExcluded`). -/

namespace TypstLint

/-- The name of the manifest. -/
def manifestPath : String := "typst.toml"

/-- The name of the introduction to a package. -/
def readmePath : String := "README.md"

/-- A loaded package. -/
structure Package where
  files : FileSet
  manifest : Option Manifest
  spec : Option Spec

namespace Package

/-- The name of a package according to its manifest. -/
def name (p : Package) : Option String := p.manifest.map (·.package.name)

/-- The version of a package according to its manifest. -/
def version (p : Package) : Option String := p.manifest.map (·.package.version)

/-- The path of the file that an import of the package gives. -/
def entrypoint (p : Package) : Option String := p.manifest.map (·.package.entrypoint)

/-- The license of a package. -/
def license (p : Package) : Option String := p.manifest.bind (·.package.license)

/-- The path of the file that a new project starts from. -/
def templateEntrypoint (p : Package) : Option String :=
  (p.manifest.bind (·.template)).map TemplateInfo.entrypointPath

/-- The entrypoints of a package. -/
def entrypoints (p : Package) : List String :=
  (p.entrypoint.toList ++ p.templateEntrypoint.toList).filter (!·.isEmpty)

/-- Whether a pattern of a manifest excludes a path: as a glob, or as a directory above it. -/
def excludes (pattern path : String) : Bool :=
  let body := Text.trimWhile (· == '/') pattern.toList
  Text.Glob.isMatch (String.ofList body) path || (body ++ ['/']).isPrefixOf path.toList

/-- Whether a path is not part of the published package. -/
def isExcluded (p : Package) (path : String) : Bool :=
  p.manifest.any fun m => m.package.exclude.any (excludes · path)

/-- Whether a path lies in the directory of the template. -/
def inTemplate (p : Package) (path : String) : Bool :=
  (p.manifest.bind (·.template)).any fun t =>
    (Text.trimWhile (· == '/') t.path.toList ++ ['/']).isPrefixOf path.toList

/-- How a package is called in reports. -/
def label (p : Package) : String :=
  match p.spec, p.manifest with
  | some spec, _ => spec.render
  | none, some m => s!"{m.package.name}:{m.package.version}"
  | none, none => "<unknown package>"

end Package

end TypstLint
