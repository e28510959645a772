import AdOps.Service.Network

/-!
# The tracker

The tracker holds campaigns and sources of its own, the stats of its campaigns, and per campaign
what the networks' widgets sent to it. It remembers the names of its campaigns once it has listed
them.
-/

namespace AdOps

structure TrackerData where
  campaigns : List Record := []
  sources : List Record := []
  campaignStats : List Record := []
  /-- Widget rows by tracker campaign. A row may name the platform it is about. -/
  widgetStats : NameMap (List Record) := NameMap.empty

/-- A tracker: its data, the names it remembers, and the windows it was asked for. -/
structure Tracker where
  data : TrackerData := {}
  names : NameMap String := NameMap.empty
  /-- The windows of the stats calls so far, the latest first. -/
  windows : List Window := []

namespace Tracker

def note (t : Tracker) (w : Window) : Tracker := { t with windows := w :: t.windows }

def rememberOne (names : NameMap String) (campaign : Record) : NameMap String :=
  match campaign.id?, campaign.name? with
  | some id, some name => names.insert id name
  | _, _ => names

/-- The tracker after it has listed its campaigns. -/
def remember (t : Tracker) : Tracker :=
  { t with names := t.data.campaigns.foldl rememberOne t.names }

/-- The name of a campaign, from memory if it is there, and the tracker afterwards. -/
def campaignName (t : Tracker) (id : String) : Option String × Tracker :=
  match t.names.get? id with
  | some name => (some name, t)
  | none => (t.remember.names.get? id, t.remember)

def campaignStats (t : Tracker) (campaign : Option String) : List Record :=
  rowsOf campaign t.data.campaignStats

/-- Whether a widget row is about a platform: it names no platform, or this one. -/
def isAbout (p : Platform) (row : Record) : Bool :=
  match row.text? "platform" with
  | some name => Text.sameIgnoringCase name p.name
  | none => true

def widgetStats (t : Tracker) (campaign : String) (p : Platform) : List Record :=
  (((t.data.widgetStats.get? campaign).getD []).filter (isAbout p)).map (·.erase "platform")

def campaignFields (t : Tracker) : List String :=
  (fieldNames (t.data.campaigns ++ t.data.campaignStats)).toList

def sourceFields (t : Tracker) : List String := (fieldNames t.data.sources).toList

end Tracker

end AdOps
