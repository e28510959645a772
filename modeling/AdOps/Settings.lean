import AdOps.Interval

/-!
# Settings

What an operator can configure. Every setting has a default, and settings are used only after they
were validated: messages have room for a character, the word for "all" is not blank, the default
interval is an interval and the default number of results is positive.
-/

namespace AdOps

inductive FlagPolicy where
  | firstWins
  | lastWins
  | reject
deriving DecidableEq

namespace FlagPolicy

def all : List FlagPolicy := [.firstWins, .lastWins, .reject]

def name : FlagPolicy → String
  | .firstWins => "first-wins"
  | .lastWins => "last-wins"
  | .reject => "reject"

def ofName? (s : String) : Option FlagPolicy := all.find? fun p => p.name = s

end FlagPolicy

structure Settings where
  /-- The interval of a command that names none. -/
  defaultTimeInterval : String := "360d"
  /-- The word for "every campaign" or "every widget". -/
  allAlias : String := "all"
  /-- The threshold of `widgets-low-cpa` when none is given. -/
  lowCpaThreshold : Float := 5
  /-- The number of results of `widgets-top` when none is given. -/
  defaultFilterNumber : Int := 5
  /-- The greatest number of characters of one message. -/
  maxMessageSize : Nat := 2000
  flagPolicy : FlagPolicy := .lastWins
  /-- A record that cannot be joined to the tracker fails the command. -/
  strictJoin : Bool := false
deriving DecidableEq

structure InvalidSetting where
  field : String
  reason : String
deriving DecidableEq

def InvalidSetting.message (e : InvalidSetting) : String :=
  "Invalid config value for " ++ e.field ++ ": " ++ e.reason

/-- A setting that an argument can fall back to. -/
inductive Fallback where
  | timeInterval
  | lowCpaThreshold
  | filterNumber
deriving DecidableEq

namespace Settings

/-- The first setting that is refused. -/
def invalid? (s : Settings) : Option InvalidSetting :=
  if s.maxMessageSize = 0 then some ⟨"max_message_size", "must be positive"⟩
  else if Text.isBlankText s.allAlias then some ⟨"all_alias", "must not be empty"⟩
  else if (Interval.read? s.defaultTimeInterval).isNone then
    some ⟨"default_time_interval", "'" ++ s.defaultTimeInterval ++ "' is not an interval"⟩
  else if s.defaultFilterNumber ≤ 0 then some ⟨"default_filter_number", "must be positive"⟩
  else none

def Valid (s : Settings) : Prop := s.invalid? = none

instance (s : Settings) : Decidable s.Valid := inferInstanceAs (Decidable (s.invalid? = none))

/-- Every default passes its own check. -/
theorem valid_default : ({} : Settings).Valid := by decide

/-- The argument that stands in for one that was not given. -/
def fallback (s : Settings) : Fallback → Arg
  | .timeInterval => .text (Text.asciiLower s.defaultTimeInterval)
  | .lowCpaThreshold => .number s.lowCpaThreshold
  | .filterNumber => .integer s.defaultFilterNumber

end Settings

end AdOps
