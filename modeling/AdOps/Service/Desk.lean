import AdOps.Service.Tracker

/-!
# The desk

The desk is everything a command can reach: the networks that are configured, the tracker, and the
faults that their calls run into. An `Action` runs against a desk, changes it, and answers or
fails; what it changed before it failed stays changed. A call that runs into a fault fails before
it touches the service.
-/

namespace AdOps

inductive Call where
  | listCampaigns
  | listSources
  | campaignStats
  | widgetStats
  | pauseWidgets
  | resumeAllWidgets
  | campaignName
  | campaignFields
  | widgetFields
  | sourceFields
deriving DecidableEq

inductive Fault where
  /-- The call breaks down, with a message or without. -/
  | crash (message : Option String)
  | refusal (cause : ServiceFailure)
deriving DecidableEq

abbrev Faults := Platform → Call → Option Fault

/-- What a command runs against. -/
structure Desk where
  mgid : Option Network := none
  zeropark : Option Network := none
  tracker : Tracker := {}
  faults : Faults := fun _ _ => none

/-- A run against a desk. -/
abbrev Action (α : Type) := ExceptT Failure (StateM Desk) α

namespace Desk

/-- The network of a platform, if it is configured. The tracker is no network. -/
def network? (d : Desk) : Platform → Option Network
  | .mgid => d.mgid
  | .zeropark => d.zeropark
  | .thrive => none

/-- Puts a network in place of the one before. -/
def setNetwork (d : Desk) (p : Platform) (n : Network) : Desk :=
  match p with
  | .mgid => { d with mgid := some n }
  | .zeropark => { d with zeropark := some n }
  | .thrive => d

def platforms (d : Desk) : List Platform := Platform.all.filter fun p => (d.network? p).isSome

end Desk

namespace Fault

def crashed (message : Option String) : Failure := .internal (message.getD "handler panicked")

end Fault

namespace Action

def enter (p : Platform) (call : Call) : Action Unit := do
  match (← get).faults p call with
  | none => return ()
  | some (.crash message) => throw (Fault.crashed message)
  | some (.refusal cause) => throw (.service cause)

/-- Runs into the fault of a call that cannot be refused. -/
def enterUnrefused (p : Platform) (call : Call) : Action Unit := do
  match (← get).faults p call with
  | some (.crash message) => throw (Fault.crashed message)
  | _ => return ()

def network (p : Platform) : Action Network := do
  match (← get).network? p with
  | some n => return n
  | none => throw (.service (.notConfigured p))

/-! ## Calls to a network

A call looks for its network and enters before it does anything, so one that fails there leaves the
desk alone. -/

def listCampaigns (p : Platform) : Action (List Record) := do
  let n ← network p
  enter p .listCampaigns
  return n.data.campaigns

/-- Looks a campaign up among those the network lists. -/
def findCampaign (p : Platform) (id : String) : Action (Option Record) := do
  return (← listCampaigns p).find? fun c => c.id? == some id

def campaignStats (p : Platform) (campaign : Option String) (w : Window) :
    Action (List Record) := do
  let n ← network p
  enter p .campaignStats
  modify (·.setNetwork p (n.note w))
  return n.campaignStats campaign

def widgetStats (p : Platform) (campaign : String) (w : Window) : Action (List Record) := do
  let n ← network p
  enter p .widgetStats
  modify (·.setNetwork p (n.note w))
  match n.widgetStats? campaign with
  | some rows => return rows
  | none => throw (.service (Network.notFound p campaign))

def pauseWidgets (p : Platform) (campaign : String) (ids : List String) : Action Unit := do
  let n ← network p
  enter p .pauseWidgets
  match n.pause? campaign ids with
  | some n => modify (·.setNetwork p n)
  | none => throw (.service (Network.notFound p campaign))

/-- Resumes all widgets of a campaign, and tells how many were paused. -/
def resumeAllWidgets (p : Platform) (campaign : String) : Action Nat := do
  let n ← network p
  enter p .resumeAllWidgets
  match n.resumeAll? campaign with
  | some (count, n) =>
    modify (·.setNetwork p n)
    return count
  | none => throw (.service (Network.notFound p campaign))

def campaignFields (p : Platform) : Action (List String) := do
  let n ← network p
  enterUnrefused p .campaignFields
  return n.campaignFields

def widgetFields (p : Platform) : Action (List String) := do
  let n ← network p
  enterUnrefused p .widgetFields
  return n.widgetFields

end Action

/-! ## Calls to the tracker

The tracker notes the window of a call before the call can run into a fault. -/

namespace TrackerAction

def enter (call : Call) : Action Unit := Action.enter .thrive call

def note (w : Window) : Action Unit := modify fun d => { d with tracker := d.tracker.note w }

def tracker : Action Tracker := return (← get).tracker

def listCampaigns : Action (List Record) := do
  enter .listCampaigns
  modify fun d => { d with tracker := d.tracker.remember }
  return (← tracker).data.campaigns

def listSources (w : Window) : Action (List Record) := do
  note w
  enter .listSources
  return (← tracker).data.sources

def campaignStats (campaign : Option String) (w : Window) : Action (List Record) := do
  note w
  enter .campaignStats
  return (← tracker).campaignStats campaign

def widgetStats (campaign : String) (p : Platform) (w : Window) : Action (List Record) := do
  note w
  enter .widgetStats
  return (← tracker).widgetStats campaign p

def campaignName (id : String) : Action (Option String) := do
  enter .campaignName
  let (name, t) := (← tracker).campaignName id
  modify fun d => { d with tracker := t }
  return name

def campaignFields : Action (List String) := do
  Action.enterUnrefused .thrive .campaignFields
  return (← tracker).campaignFields

def sourceFields : Action (List String) := do
  Action.enterUnrefused .thrive .sourceFields
  return (← tracker).sourceFields

end TrackerAction

end AdOps
