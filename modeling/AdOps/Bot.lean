import AdOps.Handler.Campaigns
import AdOps.Handler.TrackerVerbs
import AdOps.Handler.Widgets
import AdOps.Message.Format
import AdOps.Record.Projection

/-!
# The bot

The bot turns one message into one response. A message is parsed into a command, the handler of its
verb runs against the desk, the output flags shape the outcome, and what is left is written out in
chunks. A failure at any point becomes a response too.
-/

namespace AdOps

def handlerOf (p : Platform) (v : Verb) : Handler :=
  match p, v with
  | .thrive, .list => Handler.trackerList
  | .thrive, .stats => Handler.trackerStats
  | _, .sources => Handler.trackerSources
  | _, .list => Handler.listCampaigns
  | _, .stats => Handler.campaignStats
  | _, .spent => Handler.spent
  | _, .botTraffic => Handler.botTraffic
  | _, .widgetsTop => Handler.widgetsTop
  | _, .widgetsStats => Handler.widgetsStats
  | _, .widgetsHighCpa => Handler.widgetsHighCpa
  | _, .widgetsLowCpa => Handler.widgetsLowCpa
  | _, .widgetsKillLongtail => Handler.widgetsKillLongtail
  | _, .widgetsKillBot => Handler.widgetsKillBot
  | _, .widgetsTurnOnAll => Handler.widgetsTurnOnAll

namespace Outcome

/-- Keeps the requested fields of the records, and then the first so many records. A text is left
alone. -/
def shapeBody (args : Arguments) : Body → Body
  | .records rs =>
    let kept := Record.project false ((args.list? "fields").getD []) rs
    .records <| match args.integer? "limit" with
      | some n => kept.take n.toNat
      | none => kept
  | .text s => .text s

def shape (args : Arguments) (o : Outcome) : Outcome where
  body := shapeBody args o.body
  issues := if args.switch "ignore_errors" then [] else o.issues

end Outcome

def Invocation.handle (inv : Invocation) : Action Outcome :=
  handlerOf inv.platform inv.command.verb inv

/-- Runs a command: its handler, and then the flags that shape the output. -/
def Invocation.execute (inv : Invocation) : Action Outcome := do
  return (← inv.handle).shape inv.args

/-- What goes back: the chunks of the answer, and the chunks of the issues. -/
structure Response where
  body : List String
  issues : List String
deriving DecidableEq

namespace Response

/-- The answer of a command that succeeded without anything to show. -/
def emptyHint : String :=
  "Empty Results for Given Command (Try Widening the Time-Interval for Requested Data)"

def text (r : Response) : String :=
  let body := Message.blockJoiner.intercalate r.body
  if r.issues.isEmpty then body
  else body ++ "\n\nERRORS:\n" ++ Message.blockJoiner.intercalate r.issues

def bodyChunks (max : Nat) : Body → List String
  | .records rs => Message.pack max Message.blockJoiner (rs.map Message.recordText)
  | .text s =>
    if Text.isBlankText s then [] else Message.packText max (Message.valueText (.string s))

def ofOutcome (max : Nat) (o : Outcome) : Response :=
  let issues := o.issues.map fun i => Message.recordText i.toRecord
  if o.isEmpty && issues.isEmpty then ⟨[emptyHint], []⟩
  else ⟨bodyChunks max o.body, Message.pack max Message.blockJoiner issues⟩

def failureRecord (message : String) (f : Failure) : Record :=
  NameMap.ofList [("Response", .string "ERROR"), ("Type", .string f.kind),
    ("message", .string f.message), ("command", .string (Text.trim message))]

def ofFailure (max : Nat) (message : String) (f : Failure) : Response :=
  ⟨Message.pack max Message.blockJoiner [Message.recordText (failureRecord message f)], []⟩

end Response

/-- The response to a message, and how it came about. -/
structure Report where
  message : String
  command : Option Command
  response : Response
  failure : Option Failure

/-- What answers messages: settings that were validated. -/
structure Bot where
  settings : Settings
  valid : settings.Valid

namespace Bot

def ofSettings? (s : Settings) : Except InvalidSetting Bot :=
  match h : s.invalid? with
  | none => .ok ⟨s, h⟩
  | some e => .error e

def parse (b : Bot) (message : String) : Except Failure Command := Command.parse b.settings message

def execute (b : Bot) (today : Date) (c : Command) : Action Outcome :=
  Invocation.execute ⟨c, b.settings, today⟩

def run (b : Bot) (today : Date) (message : String) : Action Outcome := do
  b.execute today (← b.parse message)

def respond (b : Bot) (message : String) : Except Failure Outcome → Response
  | .ok o => .ofOutcome b.settings.maxMessageSize o
  | .error f => .ofFailure b.settings.maxMessageSize message f

/-- Answers a message: the response, and the desk afterwards. -/
def answer (b : Bot) (today : Date) (message : String) (d : Desk) : Response × Desk :=
  let (result, d) := (b.run today message).run.run d
  (b.respond message result, d)

def report (b : Bot) (today : Date) (message : String) (d : Desk) : Report × Desk :=
  let (result, d) := (b.run today message).run.run d
  let failure := match result with
    | .ok _ => none
    | .error f => some f
  (⟨message, (b.parse message).toOption, b.respond message result, failure⟩, d)

end Bot

end AdOps
