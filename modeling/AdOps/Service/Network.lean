import AdOps.Failure
import AdOps.NameSet
import AdOps.Record
import AdOps.Service.Window

/-!
# Ad networks

An ad network holds campaigns, their stats, and per campaign the rows of its widgets. Widgets can be
paused and resumed; a widget row shows whether the widget is paused. Only campaigns with widget rows
can be asked for widgets, paused or resumed. Windows are noted and do not change any answer.
-/

namespace AdOps

structure NetworkData where
  campaigns : List Record := []
  campaignStats : List Record := []
  widgetStats : NameMap (List Record) := NameMap.empty

/-- A network: its data, which widgets are paused, and the windows it was asked for. -/
structure Network where
  data : NetworkData
  paused : NameMap NameSet := NameMap.empty
  /-- The windows of the stats calls so far, the latest first. -/
  windows : List Window := []

def fieldNames (records : List Record) : NameSet := NameSet.ofList (records.flatMap NameMap.keys)

/-- The rows of one campaign, or all rows. -/
def rowsOf (campaign : Option String) (rows : List Record) : List Record :=
  match campaign with
  | some id => rows.filter fun r => r.id? == some id
  | none => rows

namespace Network

def pausedWidgets (n : Network) (campaign : String) : NameSet :=
  (n.paused.get? campaign).getD NameSet.empty

def note (n : Network) (w : Window) : Network := { n with windows := w :: n.windows }

/-- The failure for a campaign without widget rows. -/
def notFound (p : Platform) (campaign : String) : ServiceFailure :=
  .api p 404 ("campaign " ++ campaign ++ " not found")

def campaignStats (n : Network) (campaign : Option String) : List Record :=
  rowsOf campaign n.data.campaignStats

def withStatus (n : Network) (campaign : String) (row : Record) : Record :=
  let isPaused := row.id?.any fun id => (n.pausedWidgets campaign).contains id
  row.insert "status" (.string (if isPaused then "paused" else "active"))

def widgetStats? (n : Network) (campaign : String) : Option (List Record) :=
  (n.data.widgetStats.get? campaign).map fun rows => rows.map (n.withStatus campaign)

/-- Pauses widgets of a campaign, besides those paused already. -/
def pause? (n : Network) (campaign : String) (ids : List String) : Option Network :=
  if n.data.widgetStats.contains campaign then
    some { n with paused := n.paused.insert campaign ((n.pausedWidgets campaign).insertAll ids) }
  else none

/-- Resumes all widgets of a campaign, and tells how many were paused. -/
def resumeAll? (n : Network) (campaign : String) : Option (Nat × Network) :=
  if n.data.widgetStats.contains campaign then
    some ((n.pausedWidgets campaign).size, { n with paused := n.paused.erase campaign })
  else none

def campaignFields (n : Network) : List String :=
  (fieldNames (n.data.campaigns ++ n.data.campaignStats)).toList

def widgetFields (n : Network) : List String :=
  ((fieldNames n.data.widgetStats.values.flatten).insert "status").toList

end Network

end AdOps
