import AdOps.Handler.Invocation

/-!
# Verbs of the tracker

The tracker lists its campaigns and sources and shows the stats of its campaigns. Stats rows without
a name get the name of their campaign.
-/

namespace AdOps.Handler

def trackerList (inv : Invocation) : Action Outcome := do
  if inv.wantsFields then return .fieldList (← TrackerAction.campaignFields)
  let campaigns ← TrackerAction.listCampaigns
  match inv.campaign? with
  | none => return .records campaigns
  | some id =>
    let found := campaigns.filter fun c => c.id? == some id
    if found.isEmpty then throw (.invalidCampaign id)
    return .records found

def trackerSources (inv : Invocation) : Action Outcome := do
  if inv.wantsFields then return .fieldList (← TrackerAction.sourceFields)
  let w ← inv.window
  return .records (← TrackerAction.listSources w)

/-- A stats row with the name of its campaign, if it has none of its own. -/
def withCampaignName (r : Record) : Action Record := do
  match r.name?, r.id? with
  | none, some id =>
    match ← TrackerAction.campaignName id with
    | some name => return r.insert "name" (.string name)
    | none => return r
  | _, _ => return r

def trackerStats (inv : Invocation) : Action Outcome := do
  if inv.wantsFields then
    return .fieldList ((← TrackerAction.campaignFields) ++ [Record.cpaField])
  let w ← inv.window
  let rows ← TrackerAction.campaignStats inv.campaign? w
  let named ← rows.mapM withCampaignName
  return .records (named.map Record.withCpa)

end AdOps.Handler
