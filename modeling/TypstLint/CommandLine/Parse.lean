import TypstLint.Text.Blank
import TypstLint.Text.Character

set_option autoImplicit false

/-! # Reading command lines

A command line has options, then a command, and then what belongs to the command (`parse`). Words are
told apart first (`classifyAll`) and read afterwards (`parseMain`, `parseCheck`). Asking for help or for
the version ends the reading at once, as does a mistake, apart from words that are not known: these count
as a mistake in the end. -/

/-! ## Words

A word is an option if it starts with a hyphen and names one, in full or by a beginning that no other
option has. Behind `--` every word is plain. -/

namespace TypstLint.CommandLine

/-- What a word is. -/
inductive Word where
  | plain (text : String)
  /-- An option, and the text that was given with it. -/
  | option (name : String) (value : Option String)
  /-- An option of one letter, and the rest of the word, which may hold more of them. -/
  | cluster (name : String) (letters : List Char)
  /-- A word that looks like an option. -/
  | unknown
  /-- The beginning of several options. -/
  | ambiguous
  /-- The word behind which all words are plain. -/
  | separator
  deriving DecidableEq, Repr

/-- Whether a text is a negative number, perhaps with a line feed at the end. -/
def isNegativeNumber (cs : List Char) : Bool :=
  match if cs.getLast? == some '\n' then cs.dropLast else cs with
  | '-' :: body =>
    match Text.cut '.' body with
    | (whole, some fraction) => !fraction.isEmpty && (whole ++ fraction).all isDecimal
    | (whole, none) => !whole.isEmpty && whole.all isDecimal
  | _ => false
where
  /-- Whether `c` is a decimal digit of any script. -/
  isDecimal (c : Char) : Bool := (Text.decimalDigit? c).isSome

/-- What a word may be that is no option in full. -/
def candidates (options : List String) (word : List Char) : List Word :=
  if "--".toList.isPrefixOf word then
    let (start, value) := Text.cut '=' word
    (options.filter fun o => start.isPrefixOf o.toList).map fun o =>
      .option o (value.map String.ofList)
  else
    (options.filter fun o => o.toList == word.take 2).map fun o => .cluster o (word.drop 2)

/-- What a word that starts with a hyphen is, if it is no option in full. -/
def classifyOther (options : List String) (word : String) : Word :=
  match candidates options word.toList with
  | [found] => found
  | _ :: _ :: _ => .ambiguous
  | [] =>
    if isNegativeNumber word.toList || word.toList.contains ' ' then .plain word else .unknown

/-- An option and the text behind its equality sign. -/
def withText (name : String) (text : List Char) : Word :=
  if name.startsWith "--" then .option name (some (String.ofList text)) else .cluster name text

/-- What a word is. -/
def classify (options : List String) (word : String) : Word :=
  if word == "--" then .separator
  else if word.toList.head? != some '-' || word == "-" then .plain word
  else if options.contains word then .option word none
  else
    match Text.cut '=' word.toList with
    | (name, some value) =>
      if options.contains (String.ofList name) then withText (String.ofList name) value
      else classifyOther options word
    | _ => classifyOther options word

/-- What words are; those behind a separator are plain. -/
def classifyAll (options : List String) (words : List String) : List Word :=
  let isOther := fun w => w != "--"
  let before := words.takeWhile isOther
  let after := words.dropWhile isOther
  before.map (classify options)
    ++ match after with
      | [] => []
      | _ :: rest => .separator :: rest.map .plain

/-- A command. -/
inductive Command where
  /-- Check a package of the registry, or the one in the current directory. -/
  | check (package : Option String) (json : Bool)
  | server
  | action
  deriving DecidableEq, Repr

/-- What an option is given with. -/
inductive Setting where
  | text (s : String)
  /-- Nothing, as a separator stands in the place of a text. -/
  | nothing
  deriving DecidableEq, Repr

/-- What a command line asks for. -/
structure Invocation where
  logLevel : Option Setting
  envFile : Option Setting
  command : Command
  deriving DecidableEq, Repr

/-- What a command line is. -/
inductive Parsed where
  | invocation (i : Invocation)
  | version
  | help
  | mistake
  deriving DecidableEq, Repr

/-! ## Commands -/

/-- What the words behind a command are. -/
inductive CommandWords where
  | command (c : Command)
  | help
  | mistake
  deriving DecidableEq, Repr

/-- What a request for help is, with which a text may be given by mistake. -/
def helpWords (value : Option String) : CommandWords := if value.isSome then .mistake else .help

/-- What a word is that starts with the letter of help: the letter may be repeated, and another one is a
mistake. -/
def clusterWords (letters : List Char) : CommandWords :=
  if !letters.isEmpty && letters.all (· == 'h') then .help else .mistake

/-- How far the words behind `check` are read. -/
structure CheckState where
  package : Option String := none
  json : Bool := false
  /-- Whether there is a word that is not known. -/
  extra : Bool := false
  /-- Whether the last word was the package. -/
  justRead : Bool := false

/-- Reads the words behind `check`. -/
def parseCheck (s : CheckState) : List Word → CommandWords
  | [] => if s.extra then .mistake else .command (.check s.package s.json)
  | .option name value :: rest =>
    if name == "--json" then
      if value.isSome then .mistake else parseCheck { s with json := true, justRead := false } rest
    else helpWords value
  | .cluster _ rest :: _ => clusterWords rest
  | .plain text :: rest =>
    if s.package.isSome then parseCheck { s with extra := true, justRead := false } rest
    else parseCheck { s with package := some text, justRead := true } rest
  | .unknown :: rest => parseCheck { s with extra := true, justRead := false } rest
  | .ambiguous :: _ => .mistake
  | .separator :: rest =>
    let extra := s.package.isSome && !s.justRead
    parseCheck { s with extra := s.extra || extra, justRead := false } rest

/-- Reads the words behind a command that takes none. -/
def parseNone (c : Command) (extra : Bool) : List Word → CommandWords
  | [] => if extra then .mistake else .command c
  | .option _ value :: _ => helpWords value
  | .cluster _ rest :: _ => clusterWords rest
  | .ambiguous :: _ => .mistake
  | _ :: rest => parseNone c true rest

/-- The options of `check`. -/
def checkOptions : List String := ["-h", "--help", "--json"]

/-- The options of the other commands. -/
def helpOptions : List String := ["-h", "--help"]

/-- Reads what is behind a command. -/
def parseCommand (name : String) (words : List String) : CommandWords :=
  let words (options : List String) (read : List Word → CommandWords) : CommandWords :=
    let words := classifyAll options words
    if words.contains .ambiguous then .mistake else read words
  match name with
  | "check" => words checkOptions (parseCheck {})
  | "server" => words helpOptions (parseNone .server false)
  | "action" => words helpOptions (parseNone .action false)
  | _ => .mistake

/-! ## Command lines -/

/-- The options before the command. -/
def mainOptions : List String := ["-h", "--help", "--version", "--log-level", "--env-file"]

/-- How far a command line is read. -/
structure MainState where
  logLevel : Option Setting := none
  envFile : Option Setting := none
  extra : Bool := false

/-- Gives an option a text. -/
def MainState.set (s : MainState) (name text : String) : MainState :=
  let setting := if text == "--" then Setting.nothing else .text text
  if name == "--log-level" then { s with logLevel := setting } else { s with envFile := setting }

/-- What a command line is, of which the command and what is behind it are read. -/
def MainState.finish (s : MainState) (words : CommandWords) : Parsed :=
  match words with
  | .command command =>
    if s.extra then .mistake else .invocation ⟨s.logLevel, s.envFile, command⟩
  | .help => .help
  | .mistake => .mistake

/-- Reads words up to the command. -/
def parseMain (s : MainState) : List String → Parsed
  | [] => .mistake
  | word :: rest =>
    match classify mainOptions word with
    | .plain name => s.finish (parseCommand name rest)
    | .separator | .ambiguous => .mistake
    | .unknown => parseMain { s with extra := true } rest
    | .cluster _ letters => s.finish (clusterWords letters)
    | .option name value? =>
      if name == "--version" then if value?.isSome then .mistake else .version
      else if helpOptions.contains name then s.finish (helpWords value?)
      else
        match value? with
        | some value => parseMain (s.set name value) rest
        | none =>
          match rest with
          | [] => .mistake
          | next :: rest =>
            match classify mainOptions next with
            | .plain value => parseMain (s.set name value) rest
            | _ => .mistake

/-- Reads a command line. -/
def parse (words : List String) : Parsed :=
  if (classifyAll mainOptions words).contains .ambiguous then .mistake else parseMain {} words

end TypstLint.CommandLine
