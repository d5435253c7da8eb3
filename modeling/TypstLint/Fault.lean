import TypstLint.Text.Numeral

set_option autoImplicit false

/-! # Faults

A fault ends a computation that has no answer: it is no finding about a package, but the reason why
none could be made. -/

namespace TypstLint

/-- Why a computation has no answer. -/
inductive Fault where
  /-- An escape names a number beyond 32 bits. -/
  | escapeTooLarge
  /-- A number has too many digits. -/
  | numeralTooLong (digits : Nat)
  /-- A directory does not exist. -/
  | missingDirectory
  /-- Symbolic links lead back to themselves. -/
  | linkLoop
  /-- A name is longer than a directory can hold. -/
  | nameTooLong
  /-- A directory stands where a file is to be written. -/
  | isDirectory
  /-- An option that names a file has no text. -/
  | noFileName
  /-- A field of a log record has a name that records use themselves. -/
  | reservedField (name : String)
  /-- A rule ended with an error of its own. -/
  | raised (label message : String)
  deriving DecidableEq, Repr

namespace Fault

/-- The kind of a fault. -/
def label : Fault → String
  | escapeTooLarge => "OverflowError"
  | numeralTooLong _ => "ValueError"
  | missingDirectory => "FileNotFoundError"
  | linkLoop => "RuntimeError"
  | nameTooLong => "OSError"
  | isDirectory => "IsADirectoryError"
  | noFileName => "TypeError"
  | reservedField _ => "KeyError"
  | raised label _ => label

/-- The wording of a fault; most are told by their kind alone. -/
def message : Fault → String
  | escapeTooLarge => "Python int too large to convert to C int"
  | numeralTooLong digits => Text.tooLongMessage digits
  | raised _ message => message
  | missingDirectory | linkLoop | nameTooLong | isDirectory | noFileName | reservedField _ => ""

end Fault

end TypstLint
