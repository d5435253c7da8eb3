import TypstLint.Text.Blank
import TypstLint.Text.Numeral

set_option autoImplicit false

/-! # Package specifications

A specification names a version of a package: `@namespace/name:version` (`Spec.parse`, `Spec.render`).
Its three parts are looked at one after the other, so the first one that is wrong makes the `SpecError`.
A `Version` is three numbers, and versions are ordered by them (`Version.le`). -/

/-! ## Versions and the grammar of specifications

A version is three numbers between points. The tests for versions, names and namespaces overlook one
line end behind the text. -/

namespace TypstLint

/-- A version of a package. -/
structure Version where
  major : Nat
  minor : Nat
  patch : Nat
  deriving DecidableEq, Repr

/-- Why a text is no specification. -/
inductive SpecError where
  | missingNamespace (value : String)
  | missingVersion (value : String)
  | badNamespace (value : String)
  | badName (value : String)
  | badVersion (value : String)
  /-- A number of the version has too many digits. -/
  | numeralTooLong (digits : Nat)
  deriving DecidableEq, Repr

/-- The wording of an error. -/
def SpecError.message : SpecError → String
  | missingNamespace value =>
    s!"`{value}` is missing a namespace (expected @namespace/name:version)"
  | missingVersion value => s!"`{value}` is missing a version (expected @namespace/name:version)"
  | badNamespace value => s!"`{value}` is not a valid package namespace"
  | badName value => s!"`{value}` is not a valid package name"
  | badVersion value => s!"`{value}` is not a valid version (expected MAJOR.MINOR.PATCH)"
  | numeralTooLong digits => Text.tooLongMessage digits

/-! ## Grammar -/

/-- A text without the one line end behind it. -/
def dropLineFeed (cs : List Char) : List Char :=
  if cs.getLast? == some '\n' then cs.dropLast else cs

/-- Whether `c` is a small ASCII letter or an ASCII digit. -/
def isNameChar (c : Char) : Bool := c.isLower || c.isDigit

/-- Whether a text starts with a small ASCII letter. -/
def startsLower (cs : List Char) : Bool := cs.head?.any Char.isLower

/-- Whether a text is a package name: small letters and digits in runs between single hyphens, the
first of them a letter. -/
def isPackageName (cs : List Char) : Bool :=
  let body := dropLineFeed cs
  startsLower body && (Text.splitOn '-' body).all fun run => !run.isEmpty && run.all isNameChar

/-- Whether a text is a namespace: a small letter, then small letters, digits and hyphens. -/
def isNamespace (cs : List Char) : Bool :=
  let body := dropLineFeed cs
  startsLower body && body.all fun c => isNameChar c || c == '-'

/-- Whether a text is a number of a version: digits, of which the first is a zero only in `0`. -/
def isVersionNumber (cs : List Char) : Bool :=
  !cs.isEmpty && cs.all Char.isDigit && (cs.head? != some '0' || cs.length == 1)

/-- The three numbers of a version, as they are written. -/
def versionParts? (cs : List Char) : Option (List Char × List Char × List Char) :=
  match Text.splitOn '.' (dropLineFeed cs) with
  | [major, minor, patch] =>
    if isVersionNumber major && isVersionNumber minor && isVersionNumber patch then
      some (major, minor, patch)
    else none
  | _ => none

/-- Whether a text is a version. -/
def isVersion (cs : List Char) : Bool := (versionParts? cs).isSome

/-- The number that digits of a version stand for. -/
def versionNumber (digits : List Char) : Except SpecError Nat :=
  if Text.maxDigits < digits.length then .error (.numeralTooLong digits.length)
  else .ok (Text.digitsValue digits)

/-! ## Versions -/

namespace Version

/-- Reads a version, around which blanks may stand. -/
def parse (value : String) : Except SpecError Version :=
  match versionParts? (Text.trim value.toList) with
  | none => .error (.badVersion value)
  | some (major, minor, patch) => do
    return ⟨← versionNumber major, ← versionNumber minor, ← versionNumber patch⟩

/-- The text of a version. -/
def render (v : Version) : String := s!"{v.major}.{v.minor}.{v.patch}"

/-- Whether a version comes before another one, or is the same. -/
def le (a b : Version) : Bool :=
  a.major < b.major
    || (a.major == b.major && (a.minor < b.minor || (a.minor == b.minor && a.patch ≤ b.patch)))

/-- Versions in ascending order. -/
def sort (vs : List Version) : List Version := vs.mergeSort le

end Version

/-! ## Specifications -/

/-- A version of a package in a namespace. -/
structure Spec where
  namespaceName : String
  name : String
  version : Version
  deriving DecidableEq, Repr

namespace Spec

/-- Reads a specification; the `@` and blanks around it may be missing. -/
def parse (value : String) : Except SpecError Spec :=
  let raw := Text.trim value.toList
  let body := if raw.head? == some '@' then raw.drop 1 else raw
  match Text.cut '/' body with
  | (_, none) => .error (.missingNamespace value)
  | (namespaceName, some rest) =>
    match Text.cut ':' rest with
    | (_, none) => .error (.missingVersion value)
    | (name, some version) =>
      if !isNamespace namespaceName then .error (.badNamespace (String.ofList namespaceName))
      else if !isPackageName name then .error (.badName (String.ofList name))
      else
        (Version.parse (String.ofList version)).map fun version =>
          ⟨String.ofList namespaceName, String.ofList name, version⟩

/-- The package of a specification, in any version. -/
def versionless (spec : Spec) : String := s!"@{spec.namespaceName}/{spec.name}"

/-- The text of a specification. -/
def render (spec : Spec) : String := s!"{spec.versionless}:{spec.version.render}"

/-- Another version of the package. -/
def withVersion (spec : Spec) (version : Version) : Spec := { spec with version }

/-- The directory of the package in a registry. -/
def packagePath (spec : Spec) : String := s!"packages/{spec.namespaceName}/{spec.name}"

/-- The directory of the version in a registry. -/
def registryPath (spec : Spec) : String := s!"{spec.packagePath}/{spec.version.render}"

end Spec

end TypstLint
