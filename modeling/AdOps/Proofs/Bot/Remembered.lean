import AdOps.Proofs.Bot.History
import AdOps.Proofs.Service.Remembering

/-!
# What the tracker's memory shows

The tracker lists its campaigns when a name is asked for that it does not remember, and answers from
memory from then on. Its memory only ever holds what the campaigns say, so no call shows whether it
was used before: a stats row without a name gets the name that the campaigns give it, on a fresh
desk and on a used one.

* **`fst_on_withCampaignName`** — the name that a stats row gets.
* **`fst_on_trackerStats`** — the stats of the tracker, row by row.
* **`recalls_inquired`** — what the memory holds, and what shows of it, after any calls.
-/

namespace AdOps

namespace Handler

open AdOps.Action

/-- A stats row with the name that the campaigns give it, if it has none of its own. -/
def namedBy (campaigns : List Record) (r : Record) : Record :=
  match r.name?, r.id?.bind (Tracker.lastName? campaigns) with
  | none, some name => r.insert "name" (.string name)
  | _, _ => r

variable {d : Desk}

/-- **The name that a stats row gets** is its own, or the one that the campaigns give it. A row
without an identifier stays without a name. -/
theorem fst_on_withCampaignName (hd : d.tracker.Faithful)
    (hfault : d.fault? .thrive .campaignName = none) (r : Record) :
    ((withCampaignName r).on d).1 = .ok (namedBy d.tracker.data.campaigns r) := by
  unfold withCampaignName namedBy
  rcases r.name? with _ | _
  · rcases r.id? with _ | id
    · rfl
    -- A faithful memory gives the same name as the campaigns.
    · have hname : ((TrackerAction.campaignName id).on d).1 =
          .ok (Tracker.lastName? d.tracker.data.campaigns id) := by
        rw [TrackerAction.on_campaignName, hfault, ← Tracker.campaignName_eq hd]
      show ((TrackerAction.campaignName id >>= fun name? => _).on d).1 = _
      rw [on_bind_of_fst hname, Option.bind_some]
      cases Tracker.lastName? d.tracker.data.campaigns id <;> rfl
  · rfl

/-- **The stats of the tracker**, each row with the name that the campaigns give it. -/
theorem fst_on_trackerStats (hd : d.tracker.Faithful)
    (hfaults : ∀ call, d.fault? .thrive call = none) {inv : Invocation}
    (hdata : inv.wantsFields = false) {w : Window} (hw : inv.window = .ok w) :
    ((trackerStats inv).on d).1 =
      .ok (.records ((d.tracker.campaignStats inv.campaign?).map fun r =>
        Record.withCpa (namedBy d.tracker.data.campaigns r))) := by
  -- The rows are read first, and the names are asked for row by row.
  have hrows : ((TrackerAction.campaignStats inv.campaign? w).on d).1 =
      .ok (d.tracker.campaignStats inv.campaign?) := by
    rw [TrackerAction.on_campaignStats, hfaults]
  -- The rows are named on the desk on which the window of the call is noted.
  have hnoted := (TrackerAction.reads_campaignStats inv.campaign? w).alike_on (.refl hd)
  have hname : ∀ r d', Desk.Alike d' d →
      ((withCampaignName r).on d').1 = .ok (namedBy d.tracker.data.campaigns r) := by
    intro r d' halike
    have hsame := ((reads_withCampaignName r).steady d' d halike).1
    rw [hsame, fst_on_withCampaignName hd (hfaults _)]
  unfold trackerStats
  rw [hdata, if_neg Bool.false_ne_true, hw, on_bind_ok (on_lift _ d), on_bind_of_fst hrows,
    on_bind_of_fst (Reads.fst_on_mapM reads_withCampaignName hname _ hnoted), on_pure, List.map_map]
  rfl

end Handler

/-! ## After any calls

Calls to the tracker leave desks that are alike to the fresh one, since all they change is its
memory. Everything below is read off from that, and off the memory being nothing or all of the
names. -/

/-- The desk has a memory of these campaigns that shows in nothing but how soon it answers. -/
structure Desk.Recalls (f : Fixtures) (faults : Faults) (d : Desk) : Prop where
  /-- The tracker answers what the campaigns say, unless the call runs into a fault. -/
  name : ∀ id, ∃ name?, Tracker.Named f.thrive.campaigns id name? ∧
    ((TrackerAction.campaignName id).on d).1 =
      match (f.desk faults).fault? .thrive .campaignName with
      | some e => .error e
      | none => .ok name?
  settled : d.tracker.names = NameMap.empty ∨
    ∀ id, Tracker.Named f.thrive.campaigns id (d.tracker.names.get? id)
  kept : ∀ asked id name, d.tracker.names.get? id = some name →
    (d.inquired asked).tracker.names.get? id = some name
  stats : ∀ inv : Invocation, inv.platform = .thrive → inv.command.verb = .stats →
    inv.wantsFields = false → ∀ w, inv.window = .ok w →
      (∀ call, (f.desk faults).fault? .thrive call = none) →
        (inv.handle.on d).1 =
          .ok (.records (((f.desk faults).tracker.campaignStats inv.campaign?).map fun r =>
            Record.withCpa (Handler.namedBy f.thrive.campaigns r)))
  answers : ∀ (b : Bot) (today : Date) (message : String),
    ((b.run today message).on d).1 = ((b.run today message).on (f.desk faults)).1

/-- **The memory of the tracker is transparent and only grows.** For any data and any faults, and
after any calls to the tracker, whatever they came to: the name of a campaign is the one that the
last campaign with its identifier and a name gives; what is remembered is nothing or all of these
names, and stays as it is; and every message, a request for stats above all, has the result that it
has on a fresh desk. -/
theorem recalls_inquired (f : Fixtures) (faults : Faults) (asked : List Inquiry) :
    Desk.Recalls f faults ((f.desk faults).inquired asked) := by
  have hfresh : (f.desk faults).tracker.Settled := .inl rfl
  have hsettled := Desk.settled_inquired hfresh asked
  have halike := Desk.alike_inquired (.refl hfresh.faithful) asked
  -- Alike desks have the same data and the same faults.
  have hdata : ((f.desk faults).inquired asked).tracker.data = f.thrive := halike.tracker_data
  have hfault : ∀ p call, ((f.desk faults).inquired asked).fault? p call =
      (f.desk faults).fault? p call := by
    intro p call
    show ((f.desk faults).inquired asked).lasting.fault? p call = _
    rw [halike.lasting_eq]
    rfl
  constructor
  case name =>
    intro id
    refine ⟨_, Tracker.named_lastName? _ id, ?_⟩
    rw [TrackerAction.on_campaignName, hfault]
    cases (f.desk faults).fault? .thrive .campaignName with
    | some e => rfl
    | none =>
      show Except.ok _ = Except.ok _
      rw [Tracker.campaignName_eq hsettled.faithful, hdata]
  case settled =>
    apply hsettled.imp_right
    intro hwhole id
    rw [hwhole id, hdata]
    exact Tracker.named_lastName? _ id
  case kept =>
    -- More calls only add to the memory.
    intro more id name hname
    exact Desk.get?_names_inquired hsettled hname more
  case stats =>
    intro inv hp hverb hfields w hw hfaults
    -- Asking for the tracker's stats is running this handler.
    have hhandle : inv.handle = Handler.trackerStats inv := by
      show handlerOf inv.platform inv.command.verb inv = _
      rw [hp, hverb]
      rfl
    rw [hhandle, Handler.fst_on_trackerStats hsettled.faithful
      (fun call => (hfault _ call).trans (hfaults call)) hfields hw]
    unfold Tracker.campaignStats
    rw [hdata]
    rfl
  case answers =>
    intro b today message
    exact (b.steady_run today message _ _ halike).1

end AdOps
