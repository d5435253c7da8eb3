import TypstLint.Readme
import TypstLint.Rules.Basic

set_option autoImplicit false

/-! # Rules about files

The rules about the license, about encoding and size of files, fonts and links, and about the
introduction. The rules that need the text of a file find nothing where it is no UTF-8; of a Typst
source, `fileEncoding` tells that. -/

namespace TypstLint.Rules

/-- A published package should hold the text of its license. -/
def licenseFile : Rule :=
  .total "files/license" fun ctx =>
    if ctx.publication && ctx.files.licenseFile?.isNone then
      [{ severity := .warning
         ruleId := "files/license"
         message := "No LICENSE file found. Most licenses require their text to be distributed with the package." }]
    else []

/-- Typst sources have to be UTF-8. -/
def fileEncoding : Rule :=
  .total "files/encoding" fun ctx =>
    (ctx.files.typstFiles.filter (·.text?.isNone)).map fun f =>
      { severity := .error
        ruleId := "files/encoding"
        message := "This file is not valid UTF-8"
        file := f.path }

/-- The number of bytes up to which a file is not large. -/
def sizeThreshold : Nat := 1024 * 1024

/-- A number of bytes in mebibytes with one place; a half goes to the even neighbour. -/
def sizeText (size : Nat) : String :=
  let scaled := size * 10
  let (whole, rest) := (scaled / sizeThreshold, scaled % sizeThreshold)
  let up := sizeThreshold < 2 * rest || (2 * rest == sizeThreshold && whole % 2 == 1)
  let tenths := if up then whole + 1 else whole
  s!"{tenths / 10}.{tenths % 10} MiB"

/-- A large file should not be part of the published package. -/
def fileSize : Rule :=
  .total "files/size" fun ctx =>
    (ctx.files.files.filter fun f => sizeThreshold < f.size && !ctx.package.isExcluded f.path).map
      fun f =>
        { severity := .warning
          ruleId := "files/size"
          message := s!"This file is quite large ({sizeText f.size}). If it is not required to use the package (i.e. it is a documentation file or part of an example), it should be added to `exclude` in your `typst.toml`."
          file := f.path }

/-- A package cannot hold fonts. -/
def fontFiles : Rule :=
  .total "files/fonts" fun ctx =>
    (ctx.files.files.filter fun f => f.suffix == ".otf" || f.suffix == ".ttf").map fun f =>
      { severity := .error
        ruleId := "files/fonts"
        message := "Font files are not allowed. Delete them and instruct your users to install them manually, in your README and/or in a documentation comment."
        file := f.path }

/-- Links must not lead out of the package. -/
def escapingLinks : Rule :=
  .total "files/symlink" fun ctx =>
    ctx.files.escapedLinks.map fun path =>
      { severity := .warning
        ruleId := "files/symlink"
        message := "This symlink points outside of the package and was ignored"
        file := some path }

/-- Typst sources have to lex. A source whose scan fails makes the rule fail. -/
def sourceIssues : Rule where
  id := "syntax/unterminated"
  evaluate ctx := do
    let found ← ctx.outlines.mapM fun (path, outline) => do
      return (← outline).issues.map fun issue =>
        { severity := .error
          ruleId := "syntax/unterminated"
          message := issue.kind.message
          file := some path
          span := some issue.span : Diagnostic }
    return found.flatten

/-! ## The introduction to a package -/

/-- The text of the introduction, if there is one and it is valid UTF-8. -/
def readmeText (ctx : Context) : Option (List Char) :=
  (ctx.files.get? readmePath).bind (·.text?)

/-- A published package needs an introduction. -/
def readmeMissing : Rule :=
  .total "readme/missing" fun ctx =>
    if ctx.publication && !ctx.files.contains readmePath then
      [{ severity := .error
         ruleId := "readme/missing"
         message := "Published packages must have a README.md file" }]
    else []

/-- The wording about an extension of Markdown. -/
def extensionMessage : Readme.Extension → String
  | .alert => "GFM alert boxes are not supported on Typst Universe."
  | .taskList => "GFM task lists are not supported on Typst Universe."

/-- Extensions of Markdown are not rendered where packages are shown. -/
def readmeExtensions : Rule :=
  .total "readme/unsupported-extension" fun ctx =>
    match readmeText ctx with
    | none => []
    | some text =>
      (Readme.extensions false (Readme.scan text).lines).map fun (found, span) =>
        { severity := .warning
          ruleId := "readme/unsupported-extension"
          message := extensionMessage found
          file := readmePath
          span }

/-- The names by which a code block is said to be Typst. -/
def typstLanguages : List String := ["typ", "typst"]

/-- The issues of a code block, at their places in the introduction. -/
def blockIssues (block : Readme.Block) : Except Fault (List Diagnostic) :=
  (Markup.scan block.body).map fun outline =>
    outline.issues.map fun issue =>
      { severity := .error
        ruleId := "readme/syntax"
        message := s!"Syntax error in README: {issue.kind.message}. If this code block is not supposed to be parsed as Typst source, please specify another language."
        file := readmePath
        span := some ⟨block.bodyStart + issue.span.start, block.bodyStart + issue.span.stop⟩ }

/-- The Typst examples of the introduction have to lex. -/
def readmeExamples : Rule where
  id := "readme/syntax"
  evaluate ctx :=
    match readmeText ctx with
    | none => .ok []
    | some text =>
      let blocks := (Readme.scan text).blocks.filter (typstLanguages.contains ·.language)
      (blocks.mapM blockIssues).map List.flatten

end TypstLint.Rules
