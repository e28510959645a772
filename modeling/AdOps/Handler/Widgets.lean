import AdOps.Handler.Invocation
import AdOps.Reconcile.Keyed

/-!
# Widget verbs

Every widget verb starts from the same table: the campaign's widget rows on the network, merged by
identifier with the tracker rows of the tracker campaign that the campaign's name begins with. The
table holds the network's widgets only. Some verbs select rows of the table, two pause the widgets
they select, and one resumes all widgets of the campaign.
-/

namespace AdOps.Handler

/-- The widgets of a campaign, merged with what the tracker knows of them. -/
structure WidgetTable where
  campaign : String
  rows : List Record
  issues : List Issue

/-- Merges the network's rows with the tracker's, and drops widgets that the network lacks. -/
def mergeWidgets (own tracked : List Record) : List Record :=
  let ids := own.filterMap Record.id?
  (Reconcile.mergeOn "id" .outer own (tracked.map renameClicks)).filter fun row =>
    row.id?.any ids.contains

def widgetTable (inv : Invocation) : Action WidgetTable := do
  discard <| Action.network inv.platform
  let id ← inv.campaign
  -- An unknown campaign is reported before a window that makes no sense.
  let some campaign ← Action.findCampaign inv.platform id | throw (.invalidCampaign id)
  let w ← inv.window
  let own ← Action.widgetStats inv.platform id w
  let name := campaign.name?.getD ""
  match joinKey? name, inv.joinMode with
  | some key, _ =>
    let tracked ← TrackerAction.widgetStats key inv.platform w
    return ⟨id, mergeWidgets own tracked, []⟩
  | none, .strict => throw (.unjoinable inv.platform id name)
  | none, .lenient => return ⟨id, own, [.unjoinable inv.platform id name]⟩

def widgetFieldList (inv : Invocation) (extra : List String) : Action Outcome := do
  let own ← Action.widgetFields inv.platform
  return .fieldList (own ++ [Record.cpaField, trackerClicks, "conv", "rev"] ++ extra)

def respond (table : WidgetTable) (rows : List Record) : Outcome :=
  .records (rows.map Record.withCpa) table.issues

/-! ## Selecting widgets -/

/-- Whether the row goes strictly before another: it has more conversions, or as many and a lower
cost per acquisition. -/
def ranksBefore (a b : Record) : Bool :=
  if b.conversions < a.conversions then true
  else if a.conversions < b.conversions then false
  else a.cpa?.getD 0 < b.cpa?.getD 0

/-- Puts a row behind all rows that it does not rank before, looking from the end. The rows are
given last to first. -/
def insertRanked (r : Record) : List Record → List Record
  | [] => [r]
  | last :: before =>
    if ranksBefore r last then last :: insertRanked r before else r :: last :: before

/-- The rows by rank; rows of the same rank keep their order. -/
def ranked (rows : List Record) : List Record :=
  (rows.foldl (fun acc r => insertRanked r acc) []).reverse

def topRows (limit : Nat) (rows : List Record) : List Record :=
  (ranked (rows.filter fun r => 0 < r.conversions)).take limit

def widgetsTop (inv : Invocation) : Action Outcome := do
  if inv.wantsFields then return ← widgetFieldList inv []
  let limit := ((inv.args.integer? "filter_limit").getD inv.settings.defaultFilterNumber).toNat
  let table ← widgetTable inv
  return respond table (topRows limit table.rows)

def widgetsStats (inv : Invocation) : Action Outcome := do
  if inv.wantsFields then return ← widgetFieldList inv []
  let table ← widgetTable inv
  match inv.args.text? "widget_id" with
  | none => return respond table table.rows
  | some id =>
    let rows := table.rows.filter fun r => r.id? == some id
    if rows.isEmpty then throw (.noSuchWidget id)
    return respond table rows

/-- Too expensive: the cost per acquisition of a converting widget, or the mere cost of one that
does not convert, exceeds the threshold. -/
def isHighCpa (threshold : Float) (r : Record) : Bool :=
  if 0 < r.conversions then r.cpa?.any (threshold < ·) else r.cost?.any (threshold < ·)

/-- Converting, and cheaper than the threshold. -/
def isLowCpa (threshold : Float) (r : Record) : Bool :=
  0 < r.conversions && r.cpa?.any (· < threshold)

/-- Selects rows of the table by a threshold. -/
def selectBy (select : Float → Record → Bool) (inv : Invocation) : Action Outcome := do
  if inv.wantsFields then return ← widgetFieldList inv []
  let threshold ← inv.number "threshold"
  let table ← widgetTable inv
  return respond table (table.rows.filter (select threshold))

def widgetsHighCpa : Handler := selectBy isHighCpa

def widgetsLowCpa : Handler := selectBy isLowCpa

/-! ## Pausing and resuming -/

/-- A widget that is not paused. -/
def isActive (r : Record) : Bool :=
  match r.text? "status" with
  | some status => !Text.sameIgnoringCase status "paused"
  | none => true

def pausedRow (r : Record) : Record :=
  (r.withCpa.insert "action" (.string "paused")).insert "status" (.string "paused")

/-- Pauses the widgets of some rows and answers with these rows. -/
def pause (inv : Invocation) (table : WidgetTable) (targets : List Record) : Action Outcome := do
  let ids := targets.filterMap Record.id?
  if !ids.isEmpty then
    Action.pauseWidgets inv.platform table.campaign ids
  return .records (targets.map pausedRow) table.issues

/-- An active widget that cost less than the threshold. -/
def longtailTarget? (threshold : Float) (r : Record) : Option Record :=
  if isActive r && r.cost?.getD 0 < threshold then some r else none

/-- An active widget whose bot share reaches the threshold, with its bot share. -/
def botTarget? (threshold : Float) (r : Record) : Option Record :=
  if isActive r then
    match botShare? r with
    | some share =>
      if threshold ≤ share then some (r.insert "bot_traffic" (Json.ofFloat share)) else none
    | none => none
  else none

/-- Pauses the rows of the table that a threshold selects. -/
def killBy (target? : Float → Record → Option Record) (fields : List String) (inv : Invocation) :
    Action Outcome := do
  if inv.wantsFields then return ← widgetFieldList inv fields
  let threshold ← inv.number "threshold"
  let table ← widgetTable inv
  pause inv table (table.rows.filterMap (target? threshold))

def widgetsKillLongtail : Handler := killBy longtailTarget? ["action"]

def widgetsKillBot : Handler := killBy botTarget? ["action", "bot_traffic"]

def widgetsTurnOnAll (inv : Invocation) : Action Outcome := do
  discard <| Action.network inv.platform
  if inv.wantsFields then return .fieldList []
  let id ← inv.campaign
  if (← Action.findCampaign inv.platform id).isNone then throw (.invalidCampaign id)
  let count ← Action.resumeAllWidgets inv.platform id
  return .text ("Resumed " ++ Number.integerText (Int.ofNat count) ++ " widgets in campaign " ++ id)

end AdOps.Handler
