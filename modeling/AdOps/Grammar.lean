import AdOps.Settings
import AdOps.Verb

/-!
# Command grammars

A grammar says how one verb is typed: the words for the verb, the slots that the positional words
fill from left to right, and whether the command reads a time window. A word goes into the first
slot it fits; a slot it does not fit is passed over if it may stay empty.
-/

namespace AdOps

inductive SlotKind where
  /-- A number, a UUID, or the configured word for "all". -/
  | identifier
  | interval
  /-- A number, with or without decimals. -/
  | threshold
  | limit
deriving DecidableEq

namespace SlotKind

/-- Digits of any script, with or without a point and further digits; or a point and digits. -/
def isThreshold (cs : List Char) : Bool :=
  let whole := cs.takeWhile Text.isDigit
  match cs.dropWhile Text.isDigit with
  | [] => !whole.isEmpty
  | '.' :: fraction => Text.isDigits fraction
  | _ => false

def isHexDigit (c : Char) : Bool := c.isDigit || ('a' ≤ c.toLower && c.toLower ≤ 'f')

/-- Five groups of 8, 4, 4, 4 and 12 hexadecimal digits, joined by hyphens. -/
def isUuid (cs : List Char) : Bool :=
  cs.length = 36
    && cs.zipIdx.all fun (c, i) =>
      if i = 8 ∨ i = 13 ∨ i = 18 ∨ i = 23 then c = '-' else isHexDigit c

def fits (kind : SlotKind) (s : Settings) (word : String) : Bool :=
  let cs := word.toList
  match kind with
  | .identifier => Text.sameIgnoringCase word s.allAlias || Text.isDigits cs || isUuid cs
  | .interval => Interval.isWritten cs
  | .threshold => isThreshold cs
  | .limit => Text.isDigits cs

/-- The argument that a word in a slot stands for. A word of digits that is no number is kept as it
is. -/
def argument (kind : SlotKind) (word : String) : Arg :=
  match kind with
  | .identifier => .text word
  | .interval => .text (Text.asciiLower word)
  | .threshold => ((Number.float? word).map .number).getD (.text word)
  | .limit => ((Number.integer? word).map .integer).getD (.text word)

end SlotKind

structure Slot where
  /-- The argument that the word becomes. -/
  name : String
  kind : SlotKind
  /-- Whether the slot may stay empty. -/
  optional : Bool := false
  /-- The setting that stands in when the slot stays empty. -/
  fallback : Option Fallback := none
deriving DecidableEq

structure Capture where
  slot : Slot
  word : String
deriving DecidableEq

/-- Fills slots with words from left to right. All words have to be taken, and only optional slots
may stay empty. -/
def fill (s : Settings) : List Slot → List String → Option (List Capture)
  | [], [] => some []
  | [], _ :: _ => none
  | slot :: slots, [] => if slot.optional then fill s slots [] else none
  | slot :: slots, word :: words =>
    if slot.kind.fits s word then (fill s slots words).map (⟨slot, word⟩ :: ·)
    else if slot.optional then fill s slots (word :: words)
    else none

structure Grammar where
  name : String
  verb : Verb
  /-- The words for the verb, in small letters. -/
  words : List String
  slots : List Slot
  /-- Whether the command reads a time window. -/
  windowed : Bool
deriving DecidableEq

namespace Grammar

def campaign : Slot := { name := "campaign_id", kind := .identifier }

def anyCampaign : Slot := { name := "campaign_id", kind := .identifier, optional := true }

def interval : Slot :=
  { name := "time_interval", kind := .interval, optional := true, fallback := some .timeInterval }

def threshold : Slot := { name := "threshold", kind := .threshold }

def anyThreshold : Slot := { name := "threshold", kind := .threshold, optional := true }

def anyWidget : Slot := { name := "widget_id", kind := .identifier, optional := true }

def anyLimit : Slot := { name := "filter_limit", kind := .limit, optional := true }

/-- The grammars, in the order in which they are tried. -/
def all : List Grammar :=
  [⟨"widgets turn on all", .widgetsTurnOnAll, ["widgets-turn-on-all"], [campaign], false⟩,
    ⟨"widgets kill longtail", .widgetsKillLongtail, ["widgets-kill-longtail"],
      [campaign, threshold, interval], true⟩,
    ⟨"widgets kill bot", .widgetsKillBot, ["widgets-kill-bot"],
      [campaign, threshold, interval], true⟩,
    ⟨"widgets high cpa", .widgetsHighCpa, ["widgets-high-cpa"],
      [campaign, threshold, interval], true⟩,
    ⟨"widgets low cpa", .widgetsLowCpa, ["widgets-low-cpa"],
      [campaign, anyThreshold, interval], true⟩,
    ⟨"widgets stats", .widgetsStats, ["widgets-stats"], [campaign, anyWidget, interval], true⟩,
    ⟨"widgets top", .widgetsTop, ["widgets-top", "top-widgets"],
      [campaign, anyLimit, interval], true⟩,
    ⟨"campaign bot traffic", .botTraffic, ["bot-traffic"], [anyCampaign, interval], true⟩,
    ⟨"traffic sources", .sources, ["sources"], [interval], true⟩,
    ⟨"campaign stats", .stats, ["stats"], [anyCampaign, interval], true⟩,
    ⟨"campaign spent", .spent, ["spent"], [anyCampaign, interval], true⟩,
    ⟨"list campaigns", .list, ["list", "camps"], [anyCampaign], false⟩]

end Grammar

/-- A fallback that only some words for a verb bring along. -/
structure VerbFallback where
  argument : String
  fallback : Fallback
  words : List String
deriving DecidableEq

def VerbFallback.all : List VerbFallback :=
  [⟨"threshold", .lowCpaThreshold, ["widgets-low-cpa"]⟩,
    ⟨"filter_limit", .filterNumber, ["widgets-top", "top-widgets"]⟩]

end AdOps
