import TypstLint.Text.Case
import TypstLint.Text.Numeral
import TypstLint.Text.Path
import TypstLint.Text.Quoted
import TypstLint.Webhook.Event

set_option autoImplicit false

/-! # Configuration

The settings of the server and of the action come from environment variables. A variable without text
counts as missing. -/

namespace TypstLint

/-- The variables of an environment. -/
abbrev Environment := List (String × String)

namespace Environment

/-- The text of a variable, if it has one. -/
def get? (env : Environment) (name : String) : Option String :=
  (env.lookup name).filter (!·.isEmpty)

/-- The text of a variable, or another one. -/
def getD (env : Environment) (name default : String) : String := (env.get? name).getD default

end Environment

/-- Why there is no configuration. -/
inductive ConfigError where
  | missing (names : List String)
  | notNumber (name value : String)
  /-- The number of a pull request has digits that are not decimal ones. -/
  | badPullNumber (value : String)
  /-- The number of a pull request has too many digits. -/
  | numeralTooLong (digits : Nat)
  | missingFile (path : String)
  deriving DecidableEq, Repr

/-- The wording of an error. -/
def ConfigError.message : ConfigError → String
  | missing names => "Missing required environment variable(s): " ++ ", ".intercalate names
  | notNumber name value => s!"{name} must be a number, got {Text.quoted value}"
  | badPullNumber value =>
    "invalid literal for int() with base 10: "
      ++ String.ofList ((Text.quoted value).toList.take 200)
  | numeralTooLong digits => Text.tooLongMessage digits
  | missingFile path => s!"Environment file {path} does not exist"

namespace Config

/-! ## Values -/

/-- Checks that none of the variables is missing. -/
def require (env : Environment) (names : List String) : Except ConfigError Unit :=
  match names.filter fun name => (env.get? name).isNone with
  | [] => .ok ()
  | missing => .error (.missing missing)

/-- The number in a variable. -/
def number (env : Environment) (name : String) (default : Int) : Except ConfigError Int :=
  match env.get? name with
  | none => .ok default
  | some value => (Text.readInt 10 value.toList).mapError fun _ => .notNumber name value

/-- A private key, in which line ends may be written as ampersands. -/
def normalizeKey (value : String) : String :=
  String.ofList (Text.trim (value.toList.map fun c => if c == '&' then '\n' else c)) ++ "\n"

/-- The number of the pull request that the name of a merge branch starts with. -/
def pullNumber (refName : String) : Except ConfigError (Option Int) :=
  match Text.cut '/' refName.toList with
  | (digits, some suffix) =>
    if String.ofList suffix == "merge" && !digits.isEmpty && digits.all Text.isDigit then
      match Text.readInt 10 digits with
      | .ok n => .ok (some n)
      | .error (.tooLong count) => .error (.numeralTooLong count)
      | .error .malformed => .error (.badPullNumber (String.ofList digits))
    else .ok none
  | (_, none) => .ok none

/-- The repository of the packages. -/
def defaultRepository : String := "typst/packages"

end Config

/-! ## Server -/

/-- The settings of the webhook server. -/
structure ServerConfig where
  packagesDir : String
  app : Int
  webhookSecret : String
  privateKey : String
  host : String
  port : Int
  logLevel : String
  deriving DecidableEq, Repr

/-- The settings of the server in an environment. -/
def ServerConfig.ofEnvironment (env : Environment) : Except ConfigError ServerConfig := do
  Config.require env
    ["PACKAGES_DIR", "GITHUB_APP_IDENTIFIER", "GITHUB_WEBHOOK_SECRET", "GITHUB_PRIVATE_KEY"]
  return {
    packagesDir := Text.Path.display (env.getD "PACKAGES_DIR" "")
    app := ← Config.number env "GITHUB_APP_IDENTIFIER" 0
    webhookSecret := env.getD "GITHUB_WEBHOOK_SECRET" ""
    privateKey := Config.normalizeKey (env.getD "GITHUB_PRIVATE_KEY" "")
    host := env.getD "HOST" "0.0.0.0"
    port := ← Config.number env "PORT" 7878
    logLevel := String.ofList (Text.toUpper (env.getD "LOG_LEVEL" "INFO").toList) }

/-! ## Action -/

/-- The settings of the action, which checks one commit. -/
structure ActionConfig where
  installation : Int
  app : Int
  privateKey : String
  headSha : String
  repository : String
  pullNumber : Option Int
  packagesDir : String
  deriving DecidableEq, Repr

namespace ActionConfig

/-- The settings of the action in an environment. -/
def ofEnvironment (env : Environment) : Except ConfigError ActionConfig := do
  Config.require env
    ["GITHUB_INSTALLATION", "GITHUB_APP_IDENTIFIER", "GITHUB_PRIVATE_KEY", "GITHUB_SHA"]
  let pullNumber ← Config.pullNumber (env.getD "GITHUB_REF_NAME" "")
  let workspace := env.getD "GITHUB_WORKSPACE" "."
  return {
    installation := ← Config.number env "GITHUB_INSTALLATION" 0
    app := ← Config.number env "GITHUB_APP_IDENTIFIER" 0
    privateKey := Config.normalizeKey (env.getD "GITHUB_PRIVATE_KEY" "")
    headSha := env.getD "GITHUB_SHA" ""
    repository := env.getD "GITHUB_REPOSITORY" Config.defaultRepository
    pullNumber
    packagesDir := Text.Path.display (env.getD "PACKAGES_DIR" workspace) }

/-- The request of the action. -/
def request (c : ActionConfig) : CheckRequest :=
  { installation := c.installation
    repository := ⟨c.repository⟩
    headSha := c.headSha
    pullNumber := c.pullNumber
    event := "action" }

end ActionConfig

end TypstLint
