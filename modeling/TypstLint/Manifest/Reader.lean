import TypstLint.Manifest.Basic
import TypstLint.Package.Spec
import TypstLint.Toml.Reader

set_option autoImplicit false

/-! # Reading manifests

Every key is looked at, so that all problems of a manifest are told at once. For this, a `Checked` value
is either valid or a list of problems, and `apply` joins the problems of what it combines where `andThen`
would stop at the first. Keys that have no meaning are passed over. -/

namespace TypstLint.Manifest

/-! ## Values or problems -/

/-- A value, or the problems that keep it from being one. -/
inductive Checked (α : Type) where
  | valid (x : α)
  | invalid (problems : List Problem)

namespace Checked

/-- Applies a function to a valid value. -/
def map {α β : Type} (f : α → β) : Checked α → Checked β
  | valid x => valid (f x)
  | invalid problems => invalid problems

/-- Applies a function that was checked itself; the problems of both count. -/
def apply {α β : Type} : Checked (α → β) → Checked α → Checked β
  | valid f, x => x.map f
  | invalid problems, valid _ => invalid problems
  | invalid problems, invalid more => invalid (problems ++ more)

/-- Checks a valid value further. -/
def andThen {α β : Type} (x : Checked α) (f : α → Checked β) : Checked β :=
  match x with
  | valid x => f x
  | invalid problems => invalid problems

instance : Functor Checked where
  map f x := x.map f

instance : Seq Checked where
  seq f x := f.apply (x ())

end Checked

/-! ## Keys of a table -/

/-- A table of a manifest and its name. -/
structure Table where
  name : String
  members : List (String × Toml.Value)

namespace Table

/-- The problem of a key. -/
def problem {α : Type} (t : Table) (key : String) (cause : Cause) : Checked α :=
  .invalid [⟨t.name, some key, cause⟩]

/-- A value that has to be a text. -/
def asText (t : Table) (key : String) : Toml.Value → Checked String
  | .string s => .valid s
  | _ => t.problem key (.notText none)

/-- A key that has to be there and to be a text. -/
def text (t : Table) (key : String) : Checked String :=
  match t.members.lookup key with
  | none => t.problem key .missing
  | some v => t.asText key v

/-- A key that has to be a text if it is there. -/
def text? (t : Table) (key : String) : Checked (Option String) :=
  match t.members.lookup key with
  | none => .valid none
  | some v => (t.asText key v).map some

/-- The texts of a list, of which the first item has the number `i`. -/
def asTexts (t : Table) (key : String) (i : Nat) : List Toml.Value → Checked (List String)
  | [] => .valid []
  | v :: vs =>
    let first : Checked String :=
      match v with
      | .string s => .valid s
      | _ => t.problem key (.notText (some i))
    (first.map List.cons).apply (asTexts t key (i + 1) vs)

/-- A key that has to be a list of texts if it is there. -/
def texts (t : Table) (key : String) : Checked (List String) :=
  match t.members.lookup key with
  | none => .valid []
  | some (.array items) => t.asTexts key 0 items
  | some _ => t.problem key .notList

/-- A path inside the package, in normal form; backslashes separate as slashes do. -/
def asPath (t : Table) (key what : String) (value : String) : Checked String :=
  let path := (Text.trim value.toList).map fun c => if c == '\\' then '/' else c
  if path.isEmpty || path.head? == some '/' then t.problem key (.notRelative what)
  else
    let normal := Text.Path.normalizeChars path
    if normal == "..".toList || "../".toList.isPrefixOf normal then t.problem key (.outside what)
    else .valid (String.ofList normal)

/-- A key that has to be there and to be a path inside the package. -/
def path (t : Table) (key what : String) : Checked String :=
  (t.text key).andThen (t.asPath key what)

/-- A key that has to be a path inside the package if it is there. -/
def path? (t : Table) (key what : String) : Checked (Option String) :=
  (t.text? key).andThen fun value? =>
    match value? with
    | none => .valid none
    | some value => (t.asPath key what value).map some

/-- A key whose text has to satisfy `p`. -/
def textThat (t : Table) (key : String) (p : List Char → Bool) (cause : String → Cause) :
    Checked String :=
  (t.text key).andThen fun value =>
    if p value.toList then .valid value else t.problem key (cause value)

end Table

/-! ## Tables -/

/-- The description of the package. -/
def readPackage (members : List (String × Toml.Value)) : Checked PackageInfo :=
  let t : Table := ⟨"package", members⟩
  PackageInfo.mk <$> t.textThat "name" isPackageName .badName
    <*> t.textThat "version" isVersion .badVersion
    <*> t.path "entrypoint" "The entrypoint"
    <*> t.texts "authors" <*> t.text? "license" <*> t.text? "description" <*> t.text? "homepage"
    <*> t.text? "repository" <*> t.texts "keywords" <*> t.texts "categories"
    <*> t.texts "disciplines" <*> t.text? "compiler" <*> t.texts "exclude"

/-- The description of the template. -/
def readTemplate (members : List (String × Toml.Value)) : Checked TemplateInfo :=
  let t : Table := ⟨"template", members⟩
  TemplateInfo.mk <$> t.path "path" "The template path"
    <*> t.path "entrypoint" "The template entrypoint"
    <*> t.path? "thumbnail" "The template thumbnail"

/-- The template of a manifest, if there is one. -/
def readTemplate? (members : List (String × Toml.Value)) : Checked (Option TemplateInfo) :=
  match members.lookup "template" with
  | none => .valid none
  | some (.table inner) => (readTemplate inner).map some
  | some _ => .invalid [⟨"template", none, .notTable⟩]

/-- Reads the text of a manifest. -/
def read (text : List Char) : Except ReadError Manifest :=
  match Toml.read? text with
  | none => .error .malformed
  | some members =>
    match members.lookup "package" with
    | some (.table inner) =>
      match Manifest.mk <$> readPackage inner <*> readTemplate? members with
      | .valid m => .ok m
      | .invalid problems => .error (.invalid problems)
    | _ => .error (.invalid [⟨"package", none, .missing⟩])

end TypstLint.Manifest
