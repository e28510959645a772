import AdOps.Calendar
import AdOps.Text.Blank

/-!
# Options of the command line program

The words that the program is started with are options up to the first word that is none, or up to
`--`; everything from there on is the message. An option that takes a value is written as two words,
`--option value`, or as one, `--option=value`.
-/

namespace AdOps.Cli

inductive ValueOption where
  | reference
  | config
  | fixtures
  | input
deriving DecidableEq

namespace ValueOption

def all : List ValueOption := [.reference, .config, .fixtures, .input]

def word : ValueOption → String
  | .reference => "--reference"
  | .config => "--config"
  | .fixtures => "--fixtures"
  | .input => "--input"

/-- The option in front of its value. -/
def lead (o : ValueOption) : String := o.word ++ "="

def expects : ValueOption → String
  | .config | .fixtures => "a path"
  | .reference | .input => "a value"

end ValueOption

structure Options where
  input : Option String := none
  config : Option String := none
  fixtures : Option String := none
  reference : Option Date := none
  color : Bool
  plain : Bool := false
deriving DecidableEq

inductive OptionFailure where
  | missingValue (o : ValueOption)
  | badReference (value : String)
  | repeatedInput
  | unknown (word : String)
  | noInput
deriving DecidableEq

inductive Request where
  | help
  | version
  | commands
  /-- Run a message. Without an input, it is read from standard input. -/
  | run (o : Options)
deriving DecidableEq

namespace Options

/-- The text without `lead` in front of it, however often it stands there. `fuel` bounds how often.
-/
def dropLead (lead : List Char) : (fuel : Nat) → List Char → List Char
  | 0, cs => cs
  | fuel + 1, cs => if lead.isPrefixOf cs then dropLead lead fuel (cs.drop lead.length) else cs

/-- The value behind `--option=`, with the lead dropped however often it is repeated. -/
def valueBehind (o : ValueOption) (word : String) : String :=
  String.ofList (dropLead o.lead.toList word.length word.toList)

def setInput (opts : Options) (text : String) : Except OptionFailure Options :=
  if opts.input.isSome then .error .repeatedInput else .ok { opts with input := some text }

def set (opts : Options) (o : ValueOption) (value : String) : Except OptionFailure Options :=
  match o with
  | .reference =>
    match Date.read? value with
    | some day => .ok { opts with reference := some day }
    | none => .error (.badReference value)
  | .config => .ok { opts with config := some value }
  | .fixtures => .ok { opts with fixtures := some value }
  | .input => opts.setInput value

inductive Word where
  | help
  | version
  | commands
  | color (on : Bool)
  | plain
  /-- An option whose value is the next word. -/
  | option (o : ValueOption)
  /-- An option with its value. -/
  | setting (o : ValueOption) (value : String)
  | stop
  | unknown
  | message

def classify (word : String) : Word :=
  match word with
  | "-h" | "--help" => .help
  | "-V" | "--version" => .version
  | "--commands" => .commands
  | "--color" => .color true
  | "--no-color" => .color false
  | "--plain" => .plain
  | "-i" => .option .input
  | "--" => .stop
  | word =>
    match ValueOption.all.find? (·.word = word) with
    | some o => .option o
    | none =>
      match ValueOption.all.find? (·.lead.toList.isPrefixOf word.toList) with
      | some o => .setting o (valueBehind o word)
      | none => if word.toList.head? = some '-' then .unknown else .message

def read (opts : Options) : List String → Except OptionFailure Request
  | [] => .ok (.run opts)
  | word :: words =>
    match classify word with
    | .help => .ok .help
    | .version => .ok .version
    | .commands => .ok .commands
    | .color on => { opts with color := on }.read words
    | .plain => { opts with plain := true }.read words
    | .setting o value => do (← opts.set o value).read words
    | .option o =>
      -- The next word is the value, even if it looks like an option.
      match words with
      | [] => .error (.missingValue o)
      | value :: words => do (← opts.set o value).read words
    | .stop =>
      let rest := " ".intercalate words
      if Text.isBlankText rest then .ok (.run opts) else (opts.setInput rest).map .run
    | .unknown => .error (.unknown word)
    | .message => (opts.setInput (" ".intercalate (word :: words))).map .run

end Options

end AdOps.Cli
