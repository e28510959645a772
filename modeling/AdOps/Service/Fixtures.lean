import AdOps.Json.Reader
import AdOps.Service.Desk

/-!
# Fixtures

Fixtures are the data of all services, written as JSON. Each part may be left out. A group of parts
is an object, or an array that lists the parts in order; unknown parts, repeated parts and values
of another kind are refused.
-/

namespace AdOps

structure Fixtures where
  mgid : Option NetworkData := none
  zeropark : Option NetworkData := none
  thrive : TrackerData := {}

namespace Fixtures

/-- The parts of a group by name. -/
abbrev Parts := List (String × Json)

/-- Reads a group: an object with some of the names, each at most once, or an array of the first
parts. -/
def parts? (names : List String) : Json → Option Parts
  | .object members =>
    let given := members.map (·.1)
    if given.all names.contains ∧ given.Nodup then some members else none
  | .array items => if items.length ≤ names.length then some (names.zip items) else none
  | _ => none

def part? {α : Type} (parts : Parts) (name : String) (default : α) (read : Json → Option α) :
    Option α :=
  match Entries.find name parts with
  | none => some default
  | some v => read v

/-- Reads a record; the last of several members of one name counts. -/
def record? (v : Json) : Option Record := Record.ofJson? v.normalize

def records? (v : Json) : Option (List Record) := v.items?.bind (·.mapM record?)

/-- Reads rows by campaign; the last of several entries for one campaign counts. -/
def rows? (v : Json) : Option (NameMap (List Record)) := do
  let entries ← (← v.members?).mapM fun e => (records? e.2).map (e.1, ·)
  return .ofList entries

def network? (v : Json) : Option NetworkData := do
  let parts ← parts? ["campaigns", "campaign_stats", "widget_stats"] v
  return {
    campaigns := ← part? parts "campaigns" [] records?
    campaignStats := ← part? parts "campaign_stats" [] records?
    widgetStats := ← part? parts "widget_stats" NameMap.empty rows? }

def tracker? (v : Json) : Option TrackerData := do
  let parts ← parts? ["campaigns", "sources", "campaign_stats", "widget_stats"] v
  return {
    campaigns := ← part? parts "campaigns" [] records?
    sources := ← part? parts "sources" [] records?
    campaignStats := ← part? parts "campaign_stats" [] records?
    widgetStats := ← part? parts "widget_stats" NameMap.empty rows? }

/-- A part that may be `null`. -/
def orNull? {α : Type} (read : Json → Option α) : Json → Option (Option α)
  | .null => some none
  | v => (read v).map some

/-- Reads fixtures from a value whose objects are kept as they are written. -/
def ofJson? (v : Json) : Option Fixtures := do
  let parts ← parts? ["mgid", "zeropark", "thrive"] v
  return {
    mgid := ← part? parts "mgid" none (orNull? network?)
    zeropark := ← part? parts "zeropark" none (orNull? network?)
    thrive := ← part? parts "thrive" {} tracker? }

def parse? (source : String) : Option Fixtures := (Json.read source).bind ofJson?

/-- The desk with these data, nothing paused and nothing remembered. -/
def desk (f : Fixtures) (faults : Faults := fun _ _ => none) : Desk where
  mgid := f.mgid.map fun data => { data }
  zeropark := f.zeropark.map fun data => { data }
  tracker := { data := f.thrive }
  faults := faults

end Fixtures

end AdOps
