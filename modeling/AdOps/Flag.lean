import AdOps.Settings
import AdOps.Text.Split

/-!
# Flags

A flag is a word that begins with a marker, `/` or `--`, and may stand anywhere on a command line.
Its value is written behind a colon in the same word or as the next word. Each flag has a few
spellings, says which characters can be its value, and makes an argument of a value.
-/

namespace AdOps

inductive Flag where
  | fields
  | limit
  | dateRange
  | timeRange
  | ignoreErrors
  | listFields
deriving DecidableEq

namespace Flag

def all : List Flag := [.fields, .limit, .dateRange, .timeRange, .ignoreErrors, .listFields]

def name : Flag → String
  | .fields => "fields"
  | .limit => "limit"
  | .dateRange => "date_range"
  | .timeRange => "time_range"
  | .ignoreErrors => "ignore_errors"
  | .listFields => "list_fields"

def spellings : Flag → List String
  | .fields => ["fields"]
  | .limit => ["limit"]
  | .dateRange => ["date_range", "date"]
  | .timeRange => ["time_range", "time", "date_interval"]
  | .ignoreErrors => ["ignore-errors", "ignore_errors", "ie"]
  | .listFields => ["list-fields", "list_fields"]

/-- A switch takes no value. -/
def isSwitch : Flag → Bool
  | .ignoreErrors | .listFields => true
  | _ => false

/-- The flags of commands that read a time window only. -/
def isWindow : Flag → Bool
  | .dateRange | .timeRange => true
  | _ => false

def isFieldsChar (c : Char) : Bool :=
  Text.isLetter c || c.isDigit || c = '_' || c = '.' || c = ',' || c = '-'

def accepts (f : Flag) (cs : List Char) : Bool :=
  match f with
  | .fields => !cs.isEmpty && cs.all isFieldsChar
  | .limit => Text.isDigits cs
  | .dateRange => isDateRangeShape cs
  | .timeRange => Interval.isWritten cs
  | .ignoreErrors | .listFields => false

def isSpelled (f : Flag) (cs : List Char) : Bool := f.spellings.any (Text.spells · cs)

def unmark : List Char → Option (List Char)
  | '/' :: cs => some cs
  | '-' :: '-' :: cs => some cs
  | _ => none

/-- A word that begins with a marker is never a positional word. -/
def isMarked (word : String) : Bool := (unmark word.toList).isSome

/-- The argument that a written value stands for. A list without items and a number out of range
stand for none. -/
def argument? (f : Flag) (value : String) : Option Arg :=
  match f with
  | .fields =>
    let items := (Text.splitChar ',' value.toList).filter (!·.isEmpty)
    if items.isEmpty then none else some (.list (items.map String.ofList))
  | .limit => (Number.integer? value).map .integer
  | .dateRange | .timeRange => some (.text (Text.asciiLower value))
  | .ignoreErrors | .listFields => some .switch

end Flag

end AdOps
