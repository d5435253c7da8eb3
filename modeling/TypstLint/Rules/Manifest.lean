import TypstLint.Rules.Basic

set_option autoImplicit false

/-! # Rules about the manifest

The rules about what the manifest says. A diagnostic stands at the key that it is about, or at the header
of the table if the key is missing (`problemSpan`). `authorsChanged` compares with the manifest of the
version before, which is read from the registry. -/

namespace TypstLint.Rules

/-- Where a problem of the manifest is shown: at its key, or at the header of the table if the key is
missing. -/
def problemSpan (ctx : Context) (problem : Manifest.LoadProblem) : Option Text.Span :=
  problem.table.bind fun table =>
    ctx.manifestSpan table problem.key
      <|> (if problem.key.isSome then ctx.manifestSpan table none else none)

/-- The manifest has to be readable, with the required keys and files. -/
def manifestProblems : Rule :=
  .total "manifest/invalid" fun ctx =>
    ctx.manifestProblems.map fun problem =>
      { severity := .error
        ruleId := problem.ruleId
        message := problem.message
        file := manifestPath
        span := problemSpan ctx problem }

/-- An error at a key of the manifest. -/
def manifestError (ctx : Context) (ruleId message : String) (key : Option String) : Diagnostic where
  severity := .error
  ruleId
  message
  file := manifestPath
  span := ctx.manifestSpan "package" key

/-- The name and the version of the manifest have to be those of the package's directory. -/
def manifestIdentity : Rule :=
  .total "manifest/name-mismatch" fun ctx =>
    match ctx.package.spec, ctx.package.manifest, ctx.registry with
    | some spec, some m, some _ =>
      (if m.package.name == spec.name then []
        else [manifestError ctx "manifest/name-mismatch"
          s!"Unexpected package name. `{spec.name}` was expected. If you want to publish a new package, create a new directory in `packages/{spec.namespaceName}/`."
          "name"])
      ++ (if m.package.version == spec.version.render then []
        else [manifestError ctx "manifest/version-mismatch"
          s!"Unexpected version number. `{spec.version.render}` was expected. If you want to publish a new version, create a new directory in `{spec.packagePath}`."
          "version"])
    | _, _, _ => []

/-- The keys that a published package has to have, and whether they are there. -/
def publicationKeys (info : PackageInfo) : List (String × Bool) :=
  [("authors", !info.authors.isEmpty), ("license", info.license.any (!·.isEmpty)),
   ("description", info.description.any (!·.isEmpty))]

/-- A published package needs authors, a license and a description. -/
def manifestMetadata : Rule :=
  .total "manifest/missing-metadata" fun ctx =>
    match ctx.package.manifest with
    | some m =>
      if ctx.publication then
        (publicationKeys m.package).filterMap fun (key, found) =>
          if found then none
          else some (manifestError ctx "manifest/missing-metadata"
            s!"The `{key}` field is required for published packages" none)
      else []
    | none => []

/-! ## Authors

The authors of a version are compared with those of the version before it by their names alone. -/

/-- A text without the parts in angle brackets. An open bracket without a closing one stays. -/
def dropContacts (skipping : Bool) : List Char → List Char
  | [] => []
  | c :: rest =>
    if skipping then dropContacts (c != '>') rest
    else if c == '<' && rest.contains '>' then dropContacts true rest
    else c :: dropContacts false rest

/-- The name of an author in normal form: without contact, with single blanks and without case. -/
def authorName (author : String) : String :=
  String.ofList (Text.foldCase (Text.joinWith [' '] (Text.words (dropContacts false author.toList))))

/-- The different names of authors, in order. -/
def authorNames (authors : List String) : List String :=
  (((authors.map authorName).filter (!·.isEmpty)).eraseDups).mergeSort fun a b => decide (a ≤ b)

/-- The manifest of the version before the one that is checked, with that version. -/
def previousManifest (ctx : Context) : Except Fault (Option (Version × Manifest)) :=
  match ctx.package.spec, ctx.registry with
  | some spec, some r =>
    (r.previousVersion spec).map fun previous? => do
      let previous ← previous?
      let text ← r.readManifest previous
      let m ← (Manifest.read text).toOption
      return (previous.version, m)
  | _, _ => .ok none

/-- A new version should have an author in common with the version before it. -/
def authorsChanged : Rule where
  id := "authors/changed"
  evaluate ctx :=
    match ctx.package.manifest with
    | none => .ok []
    | some m =>
      (previousManifest ctx).map fun
        | none => []
        | some (version, previous) =>
          let current := authorNames m.package.authors
          let before := authorNames previous.package.authors
          if current.isEmpty || before.isEmpty || current.any before.contains then []
          else
            [{ severity := .warning
               ruleId := "authors/changed"
               message := s!"The authors declared in typst.toml are not the same as those of the previous version ({version.render})."
               file := manifestPath
               span := ctx.manifestSpan "package" (some "authors") }]

end TypstLint.Rules
