import TypstLint.Fault
import TypstLint.Json.Writer
import TypstLint.Text.Case
import TypstLint.Text.Lines
import TypstLint.Text.Path

set_option autoImplicit false

/-! # Log records

A record comes from a logger, has a level and a message, and may have fields that tell about a delivery.
It is written either as a line of text or as an object on a line. -/

namespace TypstLint.Log

/-! ## Levels -/

/-- How serious a record is. -/
inductive Level where
  | unset
  | debug
  | info
  | warning
  | error
  | critical
  deriving DecidableEq, Repr

namespace Level

/-- The number of a level. -/
def value : Level → Nat
  | unset => 0
  | debug => 10
  | info => 20
  | warning => 30
  | error => 40
  | critical => 50

/-- The name of a level. -/
def name : Level → String
  | unset => "NOTSET"
  | debug => "DEBUG"
  | info => "INFO"
  | warning => "WARNING"
  | error => "ERROR"
  | critical => "CRITICAL"

/-- The names that levels go by. -/
def names : List (String × Level) :=
  [("NOTSET", unset), ("DEBUG", debug), ("INFO", info), ("WARNING", warning), ("WARN", warning),
   ("ERROR", error), ("CRITICAL", critical), ("FATAL", critical)]

/-- The level with a name, which may be written in any letter case. -/
def ofName? (s : String) : Option Level := names.lookup (String.ofList (Text.toUpper s.toList))

/-- The level from which on records count if this one is set; without a level it is the one for
warnings. -/
def threshold : Level → Nat
  | unset => warning.value
  | level => level.value

end Level

/-- The message about a name that is no level. -/
def unknownLevelMessage (s : String) : String := s!"Unknown log level: {s}"

/-! ## Records -/

/-- The logger of the program, above all its loggers. -/
def mainLogger : String := "typst_package_check"

/-- The logger of deliveries. -/
def deliveryLogger : String := "typst_package_check.deliveries"

/-- The fields that are written of a record, in their order. -/
def fieldNames : List String :=
  ["event", "delivery", "repository", "sha", "state", "package", "check_run", "conclusion", "reason",
   "error"]

/-- The names that a field cannot have, because records use them themselves. -/
def reservedNames : List String :=
  ["args", "asctime", "created", "exc_info", "exc_text", "filename", "funcName", "levelname", "levelno",
   "lineno", "message", "module", "msecs", "msg", "name", "pathname", "process", "processName",
   "relativeCreated", "stack_info", "thread", "threadName"]

/-- A record. -/
structure Record where
  logger : String
  level : Level
  message : String
  fields : List (String × Json.Value) := []
  deriving Repr

namespace Record

/-- The fields of a record that are written. -/
def shownFields (r : Record) : List (String × Json.Value) :=
  fieldNames.filterMap fun name => (r.fields.lookup name).map fun v => (name, v)

/-- What is written of a record besides the time. -/
def members (r : Record) : List (String × Json.Value) :=
  [("level", .str r.level.name), ("logger", .str r.logger), ("message", .str r.message)]
    ++ r.shownFields

/-- A record as an object on a line. -/
def structured (time : String) (r : Record) : String :=
  Json.write .oneLine (.obj (("timestamp", .str time) :: r.members))

/-- A record as a line of text. -/
def plain (time : String) (r : Record) : String :=
  s!"[{time}] {r.logger} {r.level.name}: {r.message}"

end Record

/-! ## Where records go -/

/-- Where a record is written. -/
inductive Sink where
  | console
  | logFile
  | deliveryFile
  deriving DecidableEq, Repr

/-- How logging is set up. -/
structure Setup where
  level : Level
  /-- Whether every record is written as an object. -/
  structured : Bool := false
  /-- The file in which records are written as well. -/
  file : Option String := none
  deriving DecidableEq, Repr

/-- The names above the name of a logger, all of them reversed: what stands before a dot. A dot right
before another one is part of a name. -/
def namesAbove (joined : Bool) : List Char → List (List Char)
  | [] => []
  | c :: cs => if c == '.' && !joined then cs :: namesAbove true cs else namesAbove false cs

/-- Whether a logger is `parent` or below it. -/
def isBelow (parent logger : String) : Bool :=
  logger == parent || (namesAbove false logger.toList.reverse).contains parent.toList.reverse

/-- The name of a log file in a directory that holds nothing yet. -/
def fileName (path : String) : Except Fault String :=
  match Text.Path.components (Text.Path.normalizeChars path.toList) with
  | [name] =>
    if name == ['.'] || name == ['.', '.'] then .error .isDirectory
    else if 255 < (String.ofList name).utf8ByteSize then .error .nameTooLong
    else .ok (String.ofList name)
  | _ => .error .missingDirectory

namespace Setup

/-- The files with what they are for: that of all records, and that of the records about deliveries. -/
def files (s : Setup) : Except Fault (List (Sink × String)) :=
  match s.file with
  | none => .ok []
  | some path => do
    let all ← fileName path
    let deliveries ← fileName (Text.Path.withExtension path ".deliveries.log")
    return [(.logFile, all), (.deliveryFile, deliveries)]

/-- The level from which on the records of a logger count. For the loggers of other programs it is the
one for warnings. -/
def threshold (s : Setup) (logger : String) : Nat :=
  if isBelow mainLogger logger then s.level.threshold else Level.warning.value

/-- Whether a record counts. -/
def accepts (s : Setup) (r : Record) : Bool := s.threshold r.logger ≤ r.level.value

/-- Checks the fields of the records that count. -/
def check (s : Setup) (records : List Record) : Except Fault Unit :=
  let names := (records.filter s.accepts).flatMap fun r => r.fields.map (·.1)
  match names.find? reservedNames.contains with
  | some name => .error (.reservedField name)
  | none => .ok ()

/-- What is written of a record that counts. Records about deliveries are always objects, and records of
other programs are told by their message. -/
def written (s : Setup) (time : String) (r : Record) : List (Sink × String) :=
  if isBelow deliveryLogger r.logger then
    [(.console, r.structured time), (.deliveryFile, r.structured time)]
  else if isBelow mainLogger r.logger then
    let text := if s.structured then r.structured time else r.plain time
    [(.console, text), (.logFile, text)]
  else [(.console, r.message)]

/-- The lines that records leave in a sink. -/
def linesOf (s : Setup) (time : String) (records : List Record) (sink : Sink) : List String :=
  let texts := (records.filter s.accepts).flatMap fun r => (s.written time r).filter (·.1 == sink)
  texts.flatMap fun (_, text) => (Text.lineBodies (text.toList ++ ['\n'])).map String.ofList

end Setup

end TypstLint.Log
