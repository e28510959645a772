import AdOps.Handler.Invocation

/-!
# Campaign verbs of the networks

`list` shows campaigns as the network has them; `stats`, `spent` and `bot-traffic` show their stats,
by themselves or joined with the tracker's. A campaign that is asked for by its identifier has to
exist.
-/

namespace AdOps.Handler

/-- The campaigns of a network, or the ones with the identifier asked for. -/
def listCampaigns (inv : Invocation) : Action Outcome := do
  discard <| Action.network inv.platform
  if inv.wantsFields then
    return .fieldList (← Action.campaignFields inv.platform)
  let campaigns ← Action.listCampaigns inv.platform
  match inv.campaign? with
  | none => return .records campaigns
  | some id =>
    let found := campaigns.filter fun c => c.id? == some id
    if found.isEmpty then throw (.invalidCampaign id)
    return .records found

/-- The network's stats of what is asked for. A single campaign without stats has to exist. -/
def checkedStats (inv : Invocation) (w : Window) : Action (List Record) := do
  let stats ← Action.campaignStats inv.platform inv.campaign? w
  match inv.campaign? with
  | some id =>
    -- A campaign may lack stats, but only one that the network lists.
    if stats.isEmpty then
      if (← Action.findCampaign inv.platform id).isNone then throw (.invalidCampaign id)
  | none => pure ()
  return stats

def joinedStats (inv : Invocation) : Action Joined := do
  let w ← inv.window
  let stats ← checkedStats inv w
  let tracked ← TrackerAction.campaignStats none w
  Reconcile.join (tracked.map renameClicks) inv.platform inv.joinMode stats

def campaignStats (inv : Invocation) : Action Outcome := do
  discard <| Action.network inv.platform
  if inv.wantsFields then
    let own ← Action.campaignFields inv.platform
    let tracked ← TrackerAction.campaignFields
    return .fieldList (own ++ tracked ++ [Record.cpaField])
  let joined ← joinedStats inv
  return .records (joined.records.map Record.withCpa) joined.issues

/-- What a campaign spent, with its identifier and name, if it spent anything. -/
def spentRow? (r : Record) : Option Record :=
  match r.cost? with
  | some cost =>
    if 0 < cost then
      some (withFieldsOf r ["id", "name"] (NameMap.empty.insert "spent" (Json.ofFloat cost)))
    else none
  | none => none

def spent (inv : Invocation) : Action Outcome := do
  discard <| Action.network inv.platform
  if inv.wantsFields then return .fieldList ["id", "name", "spent"]
  let w ← inv.window
  let stats ← checkedStats inv w
  return .records (stats.filterMap spentRow?)

/-- The bot share of a campaign, with what it was computed from, if it has one. -/
def botRow? (r : Record) : Option Record :=
  (botShare? r).map fun share =>
    withFieldsOf r ["id", "name", "clicks", trackerClicks]
      (NameMap.empty.insert "bot_traffic" (Json.ofFloat share))

def botTraffic (inv : Invocation) : Action Outcome := do
  if inv.wantsFields then
    return .fieldList ["id", "name", "clicks", trackerClicks, "bot_traffic"]
  let joined ← joinedStats inv
  return .records (joined.records.filterMap botRow?) joined.issues

end AdOps.Handler
