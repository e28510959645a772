import AdOps.CommandLine.Given

/-!
# Resolving a command line

A line that fits a grammar becomes a command with a complete bag of arguments, in fixed steps: the
words as they were captured, the fallbacks of empty slots, the fallbacks of verbs, "no filter" for
identifiers that are missing or name everything, and the flags. Then the platform's own name for the
time window is added. No step replaces what an earlier one stored, except that "all" and a missing
identifier become "no filter".
-/

namespace AdOps

/-- A window name that a platform derives from the argument first present among `sources`. -/
structure WindowAlias where
  name : String
  sources : List String
  transform : Arg → Except Failure Arg

def Platform.windowAlias : Platform → WindowAlias
  | .mgid => ⟨"date_interval", ["time_range", "time_interval"], Interval.mgidName⟩
  | .zeropark => ⟨"interval", ["time_range", "time_interval"], Interval.zeroparkName⟩
  | .thrive => ⟨"time_range", ["time_interval"], Interval.thriveName⟩

structure Command where
  platform : Platform
  verb : Verb
  grammar : String
  args : Arguments

namespace Resolve

/-- The words of the head and the captured words. -/
def captured (head : Head) (captures : List Capture) : Arguments :=
  captures.foldl (fun args c => args.insert c.slot.name (c.slot.kind.argument c.word))
    ((NameMap.empty.insert "platform" (.text head.platform)).insert "command" (.text head.verb))

/-- Stores a value under a name that is absent or empty. -/
def fillIn (args : Arguments) (name : String) (value : Arg) : Arguments :=
  if args.isAbsent name then args.insert name value else args

def withSlotFallbacks (s : Settings) (slots : List Slot) (args : Arguments) : Arguments :=
  slots.foldl (fun args slot =>
    match slot.fallback with
    | some key => fillIn args slot.name (s.fallback key)
    | none => args) args

def withVerbFallbacks (s : Settings) (verb : String) (args : Arguments) : Arguments :=
  VerbFallback.all.foldl (fun args rule =>
    if rule.words.contains verb then fillIn args rule.argument (s.fallback rule.fallback)
    else args) args

def namesAll (s : Settings) (args : Arguments) (name : String) : Bool :=
  match args.text? name with
  | some word => Text.sameIgnoringCase word s.allAlias
  | none => false

/-- Turns identifiers that are missing or name everything into "no filter". -/
def withSentinels (s : Settings) (slots : List Slot) (args : Arguments) : Arguments :=
  slots.foldl (fun args slot =>
    if slot.kind = .identifier ∧ (namesAll s args slot.name ∨ args.isAbsent slot.name) then
      args.insert slot.name .all
    else args) args

def withFlags (flags args : Arguments) : Arguments :=
  flags.entries.foldl (fun args e => args.insertIfAbsent e.1 e.2) args

/-- Adds the platform's name for the window, unless there is one or nothing to derive it from. -/
def withAlias (a : WindowAlias) (args : Arguments) : Except Failure Arguments :=
  if !args.isAbsent a.name then .ok args
  else
    let sources := a.sources.filterMap fun name =>
      (args.get? name).filter fun v => !v.isEmpty && v ≠ .all
    match sources.head? with
    | none => .ok args
    | some v => (a.transform v).map (args.insert a.name)

/-- The arguments of a line before the platform is looked at. -/
def arguments (s : Settings) (head : Head) (g : Grammar) (captures : List Capture)
    (flags : Arguments) : Arguments :=
  withFlags flags <| withSentinels s g.slots <| withVerbFallbacks s head.verb <|
    withSlotFallbacks s g.slots <| captured head captures

end Resolve

namespace Command

/-- The command that a line stands for, by its head, its positional words and what its flags are
given; `invalid` is the failure if it is none. -/
def resolve (s : Settings) (invalid : Failure) (head : Head) (positionals : List String)
    (given : Flag → List Arg) : Except Failure Command := do
  let some (g, captures) := Grammar.choose? s head.verb positionals | throw invalid
  let flags ← Flag.collectAll g.flags s.flagPolicy given
  let args := Resolve.arguments s head g captures flags
  -- The platform is looked at last: a flag that is repeated against the policy is reported first.
  let some platform := Platform.ofToken? head.platform | throw invalid
  if !platform.serves g.verb then throw invalid
  let args ← Resolve.withAlias platform.windowAlias args
  return ⟨platform, g.verb, g.name, args⟩

def parse (s : Settings) (text : String) : Except Failure Command := do
  let invalid := .invalidCommand (Text.trim text)
  let some (head, rest) := Head.read? text.toList | throw invalid
  resolve s invalid head (freeWords rest) fun f => f.arguments text.toList

end Command

end AdOps
