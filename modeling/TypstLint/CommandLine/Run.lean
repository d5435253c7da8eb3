import TypstLint.Check
import TypstLint.CommandLine.Parse
import TypstLint.Config
import TypstLint.Log.Record
import TypstLint.Report.Render

set_option autoImplicit false

/-! # Running commands

A command is run in an environment, to which a file may add variables, and in a directory of a tree: all
of this is the `Host`. It prints a report, or it ends with an error (`Outcome`). -/

namespace TypstLint.CommandLine

/-- What a command is run on. -/
structure Host where
  tree : Tree
  /-- The current directory. -/
  directory : List String
  /-- What the action does: it gives the exit code. -/
  act : ActionConfig → Nat

/-- What a command leaves. -/
structure Outcome where
  exit : Nat
  output : String := ""
  /-- The message of the error that ended the command. -/
  error : Option String := none
  deriving DecidableEq, Repr

/-- The end of a command with an error. -/
def Outcome.ofError (message : String) : Outcome := { exit := 2, error := some message }

/-- What is printed for the version. -/
def versionText : String := "typst-package-check 0.1.0\n"

/-- The place that a path leads to. -/
def Host.locate (h : Host) (path : String) : List String :=
  if path.startsWith "/" then Tree.componentsOf path else h.directory ++ Tree.componentsOf path

/-! ## Environment -/

/-- Reads a line of an environment file: a name and a value with an equality sign between them. -/
def readVariable (line : List Char) : Option (String × String) :=
  match Text.cut '=' (Text.trim line) with
  | (name, some value) =>
    some (String.ofList (Text.trim name), String.ofList (Text.trim value))
  | _ => none

/-- Adds the variables in the text of a file. Those that are set already keep their values. -/
def addVariables (env : Environment) (text : List Char) : Environment :=
  let found := (Text.splitOn '\n' text).filterMap readVariable
  let added := found.foldl (fun vars (name, value) => Assoc.set vars name value) []
  env ++ added.filter fun (name, _) => (env.lookup name).isNone

/-- Why a command has no environment. -/
inductive EnvironmentError where
  | config (error : ConfigError)
  | fault (fault : Fault)
  deriving DecidableEq, Repr

/-- The environment of a command. -/
def environment (i : Invocation) (env : Environment) (h : Host) :
    Except EnvironmentError Environment :=
  match i.envFile with
  | none => .ok env
  | some .nothing => .error (.fault .noFileName)
  | some (.text path) =>
    match h.tree.find (h.locate path) with
    | .ok (some (_, .file content)) =>
      .ok (addVariables env (Text.Utf8.decodeLossy content))
    | .error _ => .error (.fault .nameTooLong)
    | .ok _ => .error (.config (.missingFile path))

/-- The name of the level from which on log records are written. -/
def levelName (i : Invocation) (env : Environment) : String :=
  match i.logLevel with
  | some (.text name) => if name.isEmpty then env.getD "LOG_LEVEL" "WARNING" else name
  | some .nothing | none => env.getD "LOG_LEVEL" "WARNING"

/-! ## Checks -/

/-- The registry in a directory. -/
def Host.registryAt (h : Host) (path : String) : Registry := ⟨h.tree, h.locate path⟩

/-- The end of a check. -/
def checkOutcome (json : Bool) (result : CheckResult) : Outcome :=
  { exit := if result.report.passed then 0 else 1
    output :=
      (if json then result.report.toJson else result.report.render (some result.package.files)) ++ "\n" }

/-- The error that a fault ends a command with, if it is one that a command tells about. -/
def faultOutcome : Fault → Except Fault Outcome
  | .numeralTooLong digits => .ok (.ofError (Fault.numeralTooLong digits).message)
  | .missingDirectory => .ok (.ofError "Package directory does not exist")
  | fault => .error fault

/-- Checks the package in the current directory. -/
def checkHere (h : Host) (env : Environment) : Except Fault CheckResult :=
  checkDirectory h.tree h.directory ((env.get? "PACKAGES_DIR").map h.registryAt)

/-- Checks a package of the registry. -/
def checkSpec (h : Host) (env : Environment) (spec : Spec) : Except Fault CheckResult :=
  checkRegistryPackage (h.registryAt (env.getD "PACKAGES_DIR" ".")) spec none true

/-- Runs a check. -/
def runCheck (h : Host) (env : Environment) (package : Option String) (json : Bool) :
    Except Fault Outcome :=
  let checked : Except SpecError (Except Fault CheckResult) :=
    match package with
    | none => .ok (checkHere h env)
    | some text => (Spec.parse text).map (checkSpec h env)
  match checked with
  | .error e => .ok (.ofError e.message)
  | .ok (.ok result) => .ok (checkOutcome json result)
  | .ok (.error fault) => faultOutcome fault

/-! ## Services -/

/-- Runs the server, whose settings are checked first. -/
def runServer (i : Invocation) (env : Environment) : Outcome :=
  match ServerConfig.ofEnvironment env with
  | .error e => .ofError e.message
  | .ok config =>
    if i.logLevel.isNone && (Log.Level.ofName? config.logLevel).isNone then
      .ofError (Log.unknownLevelMessage config.logLevel)
    else { exit := 0 }

/-- Runs the action. -/
def runAction (h : Host) (env : Environment) : Outcome :=
  match ActionConfig.ofEnvironment env with
  | .error e => .ofError e.message
  | .ok config => { exit := h.act config }

/-! ## Commands -/

/-- Runs what a command line asks for. -/
def run (i : Invocation) (env : Environment) (h : Host) : Except Fault Outcome :=
  match environment i env h with
  | .error (.config e) => .ok (.ofError e.message)
  | .error (.fault fault) => .error fault
  | .ok env =>
    let level := levelName i env
    if (Log.Level.ofName? level).isNone then .ok (.ofError (Log.unknownLevelMessage level))
    else
      match i.command with
      | .check package json => runCheck h env package json
      | .server => .ok (runServer i env)
      | .action => .ok (runAction h env)

end TypstLint.CommandLine
