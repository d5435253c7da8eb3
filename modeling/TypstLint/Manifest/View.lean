import TypstLint.Json.Value
import TypstLint.Manifest.Basic

set_option autoImplicit false

/-! # Manifests as values

What a manifest says, as a JSON value. Keys that are missing are null. -/

namespace TypstLint

open Json (Value)

/-- The description of a package. -/
def PackageInfo.toValue (p : PackageInfo) : Value :=
  .obj [("name", .str p.name), ("version", .str p.version), ("entrypoint", .str p.entrypoint),
    ("authors", .ofTexts p.authors), ("license", .ofText? p.license),
    ("description", .ofText? p.description), ("homepage", .ofText? p.homepage),
    ("repository", .ofText? p.repository), ("keywords", .ofTexts p.keywords),
    ("categories", .ofTexts p.categories), ("disciplines", .ofTexts p.disciplines),
    ("compiler", .ofText? p.compiler), ("exclude", .ofTexts p.exclude)]

/-- The description of a template, with the path of its entrypoint in the package. -/
def TemplateInfo.toValue (t : TemplateInfo) : Value :=
  .obj [("path", .str t.path), ("entrypoint", .str t.entrypoint),
    ("thumbnail", .ofText? t.thumbnail), ("entrypoint_path", .str t.entrypointPath)]

/-- A manifest. -/
def Manifest.toValue (m : Manifest) : Value :=
  .obj [("package", m.package.toValue),
    ("template", (m.template.map TemplateInfo.toValue).getD .null)]

end TypstLint
