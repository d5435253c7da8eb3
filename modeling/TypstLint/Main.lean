import TypstLint.CommandLine.Run
import TypstLint.Delivery.Action

set_option autoImplicit false

/-! # The program

The program reads its arguments, its environment and the part of the file system that the command looks
at, runs the command, and prints what it leaves. It has no connection to GitHub: the server only checks
its settings, and the action fails at its first question. -/

namespace TypstLint.CommandLine

/-! ## File system -/

/-- Entries, named from the root of the file system. -/
abbrev Entries := Array (List String × Node)

/-- A path from the root of the file system. -/
def absolutePath (components : List String) : String := "/" ++ "/".intercalate components

/-- The components of a path without links, if there is anything at the path. -/
def realComponents? (path : String) : IO (Option (List String)) := do
  try
    let real ← IO.FS.realPath path
    return some ((Tree.componentsOf real.toString).filter (!·.isEmpty))
  catch _ => return none

/-- The directories on the way to a place, and the one at the place itself. -/
def directoriesTo (components : List String) : Entries :=
  (Array.range components.length).map fun k => (components.take (k + 1), .dir)

/-- The link in a directory that leads to a place. -/
def linkTo (directory place : List String) : Node :=
  .link ("/".intercalate (directory.map (fun _ => "..") ++ place))

/-- What is in a directory. -/
def listDirectory (directory : List String) : IO (Array IO.FS.DirEntry) := do
  (← IO.FS.realPath (absolutePath directory)).readDir

/-- Reads all that is below a directory. Links that lead nowhere are left out. -/
partial def readBelow (directory : List String) : IO Entries := do
  (← listDirectory directory).foldlM (fun entries entry => do
    let place := directory ++ [entry.fileName]
    match (← entry.path.symlinkMetadata).type with
    | .dir =>
      if entry.fileName == Tree.skippedDirectory then return entries.push (place, .dir)
      else return entries.push (place, .dir) ++ (← readBelow place)
    | .file => return entries.push (place, .file (← IO.FS.readBinFile entry.path))
    | .symlink =>
      match ← realComponents? entry.path.toString with
      | some target => return entries.push (place, linkTo directory target)
      | none => return entries
    | .other => return entries) #[]

/-- Reads the manifests in the directories that are some levels below a directory. -/
def readManifests : Nat → List String → IO Entries
  | 0, directory => do
    let some _ ← realComponents? (absolutePath (directory ++ ["typst.toml"])) | return #[]
    let content ← IO.FS.readBinFile (absolutePath (directory ++ ["typst.toml"]))
    return #[(directory ++ ["typst.toml"], .file content)]
  | levels + 1, directory => do
    (← listDirectory directory).foldlM (fun entries entry => do
      if ← entry.path.isDir then
        let place := directory ++ [entry.fileName]
        return entries.push (place, .dir) ++ (← readManifests levels place)
      else return entries) #[]

/-- Reads the directory at a path with `read`, if there is one. -/
def readAt (read : List String → IO Entries) (path : String) : IO Entries := do
  let some place ← realComponents? path | return #[]
  if ← (← IO.FS.realPath path).isDir then return directoriesTo place ++ (← read place)
  else return #[]

/-- Reads the manifests of a registry. -/
def readRegistry (path : String) : IO Entries :=
  readAt (readManifests 3) (path ++ "/packages")

/-! ## Environment -/

/-- The variables that commands look at. -/
def variableNames : List String :=
  ["PACKAGES_DIR", "LOG_LEVEL", "HOST", "PORT", "GITHUB_INSTALLATION", "GITHUB_APP_IDENTIFIER",
   "GITHUB_WEBHOOK_SECRET", "GITHUB_PRIVATE_KEY", "GITHUB_SHA", "GITHUB_REF_NAME",
   "GITHUB_REPOSITORY", "GITHUB_WORKSPACE"]

/-- The variables that are set. -/
def readVariables : IO Environment :=
  variableNames.filterMapM fun name => do
    return (← IO.getEnv name).map fun value => (name, value)

/-- Reads the file of the environment. The command line then names it by a path without links. -/
def readEnvironmentFile (i : Invocation) : IO (Invocation × Entries) := do
  let some (.text path) := i.envFile | return (i, #[])
  let some place ← realComponents? path | return (i, #[])
  if ← (← IO.FS.realPath path).isDir then return (i, #[])
  else
    let content ← IO.FS.readBinFile path
    return ({ i with envFile := some (.text (absolutePath place)) },
      directoriesTo place.dropLast ++ #[(place, .file content)])

/-- An environment in which the directory of the registry is named by a path without links. -/
def resolveRegistry (env : Environment) : IO Environment := do
  let some path := env.get? "PACKAGES_DIR" | return env
  let some place ← realComponents? path | return env
  return Assoc.set env "PACKAGES_DIR" (absolutePath place)

/-! ## Running -/

/-- Reads what a command looks at in a directory. -/
def readFor (command : Command) (env : Environment) (directory : List String) : IO Entries := do
  match command with
  | .check none _ =>
    let entries ← readAt readBelow (absolutePath directory)
    match env.get? "PACKAGES_DIR" with
    | some path => return entries ++ (← readRegistry path)
    | none => return entries
  | .check (some text) _ =>
    match Spec.parse text with
    | .ok spec =>
      let path := env.getD "PACKAGES_DIR" (absolutePath directory)
      return (← readAt readBelow (path ++ "/" ++ spec.registryPath)) ++ (← readRegistry path)
    | .error _ => return directoriesTo directory
  | .server | .action => return directoriesTo directory

/-- GitHub where there is no connection to it. -/
def noConnection : Delivery.Remote Unit where
  answer _ s := (.error (.client (.network "There is no connection")), s)

/-- What the action does without a connection. -/
def act (config : ActionConfig) : Nat :=
  let attempt := Delivery.action config ⟨.empty, []⟩ fun _ => .error "There is no way to sign"
  Delivery.exitCode (attempt.run.run noConnection {} ()).1.1

/-- What commands are run on, for some entries. -/
def hostOf (directory : List String) (entries : Entries) : Host := ⟨{ entries := entries.toList }, directory, act⟩

/-- Prints what a command leaves, and returns the exit code. -/
def finish (outcome : Outcome) : IO UInt32 := do
  IO.print outcome.output
  if let some message := outcome.error then IO.eprintln ("Error: " ++ message)
  return UInt32.ofNat outcome.exit

/-- Runs what a command line asks for. -/
def runInvocation (i : Invocation) : IO UInt32 := do
  let directory := ((← realComponents? ".").getD [])
  let (i, file) ← readEnvironmentFile i
  match environment i (← readVariables) (hostOf directory (directoriesTo directory ++ file)) with
  | .error (.config e) => finish (.ofError e.message)
  | .error (.fault fault) => throw (IO.userError fault.message)
  | .ok env =>
    let env ← resolveRegistry env
    let entries ← readFor i.command env directory
    match run { i with envFile := none } env (hostOf directory entries) with
    | .ok outcome => finish outcome
    | .error fault => throw (IO.userError fault.message)

/-- What is printed for help. -/
def usageText : String :=
  "usage: typst-package-check [--version] [--log-level LEVEL] [--env-file FILE] COMMAND\n\n"
    ++ "commands:\n"
    ++ "  check [--json] [PACKAGE]  check a package and print the diagnostics\n"
    ++ "  server                    run the webhook server\n"
    ++ "  action                    check the commit of an action once\n"

end TypstLint.CommandLine

open TypstLint.CommandLine in
/-- Runs the program. -/
def main (args : List String) : IO UInt32 := do
  match parse args with
  | .version => IO.print versionText; return 0
  | .help => IO.print usageText; return 0
  | .mistake => IO.eprint usageText; return 2
  | .invocation i => runInvocation i
