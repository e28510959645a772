import AdOps.CommandLine.Resolve
import AdOps.Reconcile.Join
import AdOps.Service.Desk

/-!
# Invocations

A handler carries one verb out: it gets the command, the settings and today's date, runs against the
desk, and gives an outcome. What all handlers read off a command alike is collected here, above all
the time window: `/time` goes before the interval in its slot, and `/date` sets the days by itself.
-/

namespace AdOps

inductive Body where
  | records (rs : List Record)
  /-- An acknowledgement or a list of field names. -/
  | text (s : String)

/-- What a handler gives: an answer, and the issues met on the way. -/
structure Outcome where
  body : Body
  issues : List Issue := []

namespace Outcome

def records (rs : List Record) (issues : List Issue := []) : Outcome := ⟨.records rs, issues⟩

def text (s : String) : Outcome := ⟨.text s, []⟩

/-- A list of field names: sorted, each once, one per line. -/
def fieldList (fields : List String) : Outcome :=
  text ("\n".intercalate (NameSet.ofList fields).toList)

/-- Whether there is nothing to show but issues. -/
def isEmpty (o : Outcome) : Bool :=
  match o.body with
  | .records rs => rs.isEmpty
  | .text s => Text.isBlankText s

end Outcome

structure Invocation where
  command : Command
  settings : Settings
  /-- The day on which relative windows end. -/
  today : Date

namespace Invocation

def platform (inv : Invocation) : Platform := inv.command.platform

def args (inv : Invocation) : Arguments := inv.command.args

/-- The campaign asked for; none means every campaign. -/
def campaign? (inv : Invocation) : Option String := inv.args.text? "campaign_id"

/-- The campaign of a verb that acts on exactly one. -/
def campaign (inv : Invocation) : Except Failure String :=
  match inv.campaign? with
  | some id => .ok id
  | none => .error (.invalidCampaign inv.settings.allAlias)

def number (inv : Invocation) (name : String) : Except Failure Float :=
  match inv.args.number? name with
  | some x => .ok x
  | none => .error (.invalidFlag name (((inv.args.get? name).map Arg.display).getD ""))

/-- Whether the names of the fields are asked for instead of data. -/
def wantsFields (inv : Invocation) : Bool := inv.args.switch "list_fields"

def joinMode (inv : Invocation) : JoinMode := if inv.settings.strictJoin then .strict else .lenient

/-- The interval asked for, in small letters. -/
def intervalToken (inv : Invocation) : String :=
  Text.asciiLower <|
    ((inv.args.text? "time_range").orElse fun _ => inv.args.text? "time_interval").getD
      inv.settings.defaultTimeInterval

/-- The first and the last day asked for, if the interval or a range of dates has any. -/
def bounds? (inv : Invocation) : Except Failure (Option (Date × Date)) :=
  match inv.args.text? "date_range" with
  | some range =>
    match dateRange? range with
    | some days => .ok (some days)
    | none => .error (.invalidFlag "date_range" range)
  | none => .ok ((Interval.read? inv.intervalToken).bind (Interval.bounds? inv.today))

def window (inv : Invocation) : Except Failure Window := do
  let days ← inv.bounds?
  return {
    token := inv.intervalToken
    param := inv.args.text? inv.platform.windowAlias.name
    start := days.map (·.1)
    stop := days.map (·.2) }

end Invocation

abbrev Handler := Invocation → Action Outcome

namespace Handler

/-- The field that keeps the tracker's clicks next to the platform's. -/
def trackerClicks : String := "thrive_clicks"

/-- Renames the clicks of a tracker record, so that they stay apart from the platform's. -/
def renameClicks (r : Record) : Record :=
  match r.get? "clicks" with
  | some clicks => (r.erase "clicks").insert trackerClicks clicks
  | none => r

/-- A number brought into the range from 0 to 100. -/
def clampPercent (x : Float) : Float := if x < 0 then 0 else if 100 < x then 100 else x

/-- The share of the platform's clicks that the tracker never saw, in percent with two decimals.
Without clicks on the platform there is none. -/
def botShare? (r : Record) : Option Float :=
  match r.number? "clicks" with
  | some clicks =>
    if 0 < clicks then
      let seen := (r.number? trackerClicks).getD 0
      some (Number.roundHundredths (clampPercent (100 * (1 - seen / clicks))))
    else none
  | none => none

/-- The fields of `fields` that the record has, over those of `under`. -/
def withFieldsOf (r : Record) (fields : List String) (under : Record) : Record :=
  fields.foldl (fun out field =>
    match r.get? field with
    | some v => out.insert field v
    | none => out) under

end Handler

end AdOps
