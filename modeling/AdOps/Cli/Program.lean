import AdOps.Cli.Options
import AdOps.Cli.Report
import AdOps.Service.Fixtures
import AdOps.Settings.Document

/-!
# The command line program

The program runs one message against fixtures and prints the response, or a report of the run. It
reaches its surroundings through a `World`: standard input, files, the name of a settings file, the
calendar and the clock. Its result is what it prints and the code it exits with.
-/

namespace AdOps.Cli

structure World (m : Type → Type) where
  stdin : m String
  fileText : String → m (Except String String)
  settingsFile : m (Option String)
  today : m Date
  elapsed : m String

structure Exit where
  code : Nat
  stdout : String := ""
  stderr : String := ""
deriving DecidableEq

def version : String := "adsbot 0.4.0"

def helpText : String := "\n".intercalate [
  version,
  "",
  "Run one ad-platform command against fixture backends.",
  "",
  "Usage:",
  "  adsbot [OPTIONS] [--] <command...>",
  "  adsbot [OPTIONS] --input <text>",
  "",
  "Example:",
  "  adsbot --fixtures fixtures.json -- /mgid stats all 7d /fields:id,name,spent",
  "",
  "Options:",
  "  -i, --input <text>         Command line to run. If omitted, reads remaining args",
  "                             or stdin when no args are provided.",
  "  --config <path>            Settings TOML. Default: $ADSBOT_CONFIG, else built-in.",
  "  --fixtures <path>          Backend fixtures JSON. Default: no ad networks and an",
  "                             empty tracker.",
  "  --reference <date>         Day relative windows end on, YYYY-MM-DD.",
  "                             Default: today.",
  "  --plain                    Print only the response text.",
  "  --commands                 List the commands each platform supports.",
  "  --color                    Force ANSI color output.",
  "  --no-color                 Disable ANSI color output.",
  "  -h, --help                 Show this help message.",
  "  -V, --version              Print version information.",
  "",
  "Environment:",
  "  RUST_LOG                   Log filter for stderr diagnostics. Default: warn.",
  "",
  "Exit codes:",
  "  0  Success (command errors are part of the response).",
  "  1  Settings or fixtures could not be loaded.",
  "  2  Invalid arguments or missing input.",
  ""]

/-- What is printed about options that cannot be used. -/
def OptionFailure.message : OptionFailure → String
  | .missingValue o => "error: " ++ o.word ++ " expects " ++ o.expects
  | .badReference value =>
    "error: invalid --reference '" ++ value ++ "' (expected YYYY-MM-DD)"
  | .repeatedInput => "error: input provided multiple times"
  | .unknown word => "error: unknown option '" ++ word ++ "'"
  | .noInput => "error: no input provided\n\n" ++ helpText

/-- The commands of a platform on one line, its name padded to ten characters. -/
def platformLine (p : Platform) : String :=
  p.name ++ String.ofList (List.replicate (10 - p.name.length) ' ') ++ " "
    ++ ", ".intercalate (p.verbs.map Verb.name)

/-- Lines, each with its line end. -/
def unlines (ls : List String) : String := String.join (ls.map (· ++ "\n"))

def Exit.success (stdout : String) : Exit := { code := 0, stdout }

def Exit.failed (code : Nat) (message : String) : Exit := { code, stderr := message ++ "\n" }

variable {m : Type → Type} [Monad m]

/-- The settings of the file that the options or the environment name. -/
def loadSettings (w : World m) (o : Options) : ExceptT String m Settings := do
  let path ← match o.config with
    | some path => pure (some path)
    | none => w.settingsFile
  match path with
  | none => return {}
  | some path =>
    match ← ExceptT.lift (w.fileText path) with
    | .error reason => throw ("Failed to read config file: " ++ reason)
    | .ok source =>
      match Settings.ofDocument source with
      | .ok s => return s
      | .error .unreadable => throw "Failed to parse config TOML: not a settings document"
      | .error (.invalid e) => throw e.message

def loadFixtures (w : World m) (o : Options) : ExceptT String m Fixtures := do
  match o.fixtures with
  | none => return {}
  | some path =>
    match ← ExceptT.lift (w.fileText path) with
    | .error reason => throw ("Failed to read fixtures: " ++ reason)
    | .ok source =>
      match Fixtures.parse? source with
      | some f => return f
      | none => throw "Failed to parse fixtures JSON: not fixtures"

def runMessage (w : World m) (o : Options) (message : String) : ExceptT String m String := do
  let settings ← loadSettings w o
  let fixtures ← loadFixtures w o
  let bot ← match Bot.ofSettings? settings with
    | .ok bot => pure bot
    | .error e => throw e.message
  let today ← match o.reference with
    | some day => pure day
    | none => w.today
  let (report, _) := bot.report today message fixtures.desk
  if o.plain then return report.response.text ++ "\n"
  else
    let timing := "  Total: " ++ Paint.timing.apply o.color (← w.elapsed)
    return unlines (reportLines o.color timing report)

def perform (w : World m) : Request → m Exit
  | .help => pure (.success (helpText ++ "\n"))
  | .version => pure (.success (version ++ "\n"))
  | .commands => pure (.success (unlines (Platform.all.map platformLine)))
  | .run o => do
    let message ← match o.input with
      | some text => pure text
      | none => w.stdin
    if Text.isBlankText message then return .failed 2 OptionFailure.noInput.message
    match ← (runMessage w o message).run with
    | .ok text => return .success text
    | .error reason => return .failed 1 ("error: " ++ reason)

/-- The program, started with the given words; `color` says whether the output can show colours. -/
def program (w : World m) (color : Bool) (words : List String) : m Exit :=
  match Options.read { color } words with
  | .ok request => perform w request
  | .error e => pure (.failed 2 e.message)

end AdOps.Cli
