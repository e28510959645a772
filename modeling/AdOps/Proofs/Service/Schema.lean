import AdOps.Proofs.Record.Fields
import AdOps.Proofs.Service.Calls

/-!
# Schemas of the services

A service lists the names of its fields without being asked for data, so a list of fields can be put
together for any command. What the calls for data give on a desk, and on every desk alike to it, has
fields of the lists only.

* **`on_campaignFields`**, **`on_widgetFields`** — the lists are given unless their calls break
  down.
* **`givesOn_campaignStats`**, **`givesOn_widgetStats`** — the rows of a network have listed fields.
-/

namespace AdOps

namespace Desk

/-- The calls that list fields do not break down. They cannot be refused. -/
def ListsFields (d : Desk) : Prop :=
  ∀ p, ∀ call ∈ [Call.campaignFields, .widgetFields, .sourceFields], ∀ message,
    d.faults p call ≠ some (.crash message)

/-- The fields that a network lists for its campaigns, none where no network is configured. -/
def campaignFields (d : Desk) (p : Platform) : List String :=
  ((d.network? p).map Network.campaignFields).getD []

/-- The fields that a network lists for its widgets, none where no network is configured. -/
def widgetFields (d : Desk) (p : Platform) : List String :=
  ((d.network? p).map Network.widgetFields).getD []

/-- The campaign of a network with an identifier. -/
def campaign? (d : Desk) (p : Platform) (id : String) : Option Record :=
  (d.network? p).bind fun n => n.data.campaigns.find? fun c => c.id? == some id

/-- The tracker campaign that a campaign of a network is linked to. -/
def link? (d : Desk) (p : Platform) (id : String) : Option String :=
  (d.campaign? p id).bind fun c => joinKey? (c.name?.getD "")

theorem campaignFields_eq {d : Desk} {p : Platform} {n : Network} (h : d.network? p = some n) :
    d.campaignFields p = n.campaignFields := by
  unfold campaignFields
  rw [h]
  rfl

theorem widgetFields_eq {d : Desk} {p : Platform} {n : Network} (h : d.network? p = some n) :
    d.widgetFields p = n.widgetFields := by
  unfold widgetFields
  rw [h]
  rfl

end Desk

variable {name : String}

theorem mem_fieldNames {records : List Record} {name : String} :
    name ∈ fieldNames records ↔ ∃ r ∈ records, name ∈ r.keys := by
  unfold fieldNames
  rw [NameSet.mem_ofList, List.mem_flatMap]

/-- The fields that a network lists are those of its campaigns and of their stats. -/
theorem Network.mem_campaignFields {n : Network} :
    name ∈ n.campaignFields ↔
      ∃ r, (r ∈ n.data.campaigns ∨ r ∈ n.data.campaignStats) ∧ name ∈ r.keys := by
  unfold campaignFields
  simp only [← List.mem_append]
  exact mem_fieldNames

/-- The fields that the tracker lists are those of its campaigns and of their stats. -/
theorem Tracker.mem_campaignFields {t : Tracker} :
    name ∈ t.campaignFields ↔
      ∃ r, (r ∈ t.data.campaigns ∨ r ∈ t.data.campaignStats) ∧ name ∈ r.keys := by
  unfold campaignFields
  simp only [← List.mem_append]
  exact mem_fieldNames

/-- The rows of one campaign are among all rows. -/
theorem mem_of_rowsOf {campaign : Option String} {rows : List Record} {r : Record}
    (h : r ∈ rowsOf campaign rows) : r ∈ rows := by
  cases campaign with
  | none => exact h
  | some id => exact (List.mem_filter.1 h).1

theorem Tracker.fieldsIn_campaignStats (t : Tracker) (campaign : Option String) :
    FieldsIn (· ∈ t.campaignFields) (t.campaignStats campaign) :=
  fun r hr _ h => mem_campaignFields.2 ⟨r, .inr (mem_of_rowsOf hr), h⟩

/-- A campaign with a name has a field for it. -/
theorem Tracker.name_mem_campaignFields {t : Tracker} {id text : String}
    (h : lastName? t.data.campaigns id = some text) : "name" ∈ t.campaignFields := by
  obtain ⟨c, hc, hname⟩ := List.exists_of_findSome?_eq_some h
  obtain ⟨-, hname⟩ := Option.ite_none_right_eq_some.1 hname
  refine mem_campaignFields.2 ⟨c, .inl (List.mem_reverse.1 hc), NameMap.mem_keys_iff.2 ?_⟩
  rw [Record.name?_eq_some_iff.1 hname]
  rfl

/-- The rows of a network have fields that it lists, the status included. -/
theorem Network.fieldsIn_widgetStats {n : Network} {campaign : String} {rows : List Record}
    (hrows : n.widgetStats? campaign = some rows) : FieldsIn (· ∈ n.widgetFields) rows := by
  intro r hr name h
  obtain ⟨own, hown, rfl⟩ := Option.map_eq_some_iff.1 hrows
  obtain ⟨row, hrow, rfl⟩ := List.mem_map.1 hr
  refine NameSet.mem_insert.2 ?_
  rcases NameMap.mem_keys_insert.1 h with hstatus | hmem
  · exact .inl hstatus
  · exact .inr (mem_fieldNames.2 ⟨row, List.mem_flatten.2 ⟨own, NameMap.mem_values_of_get? hown,
      hrow⟩, hmem⟩)

namespace Action

variable {d : Desk} {p : Platform}

/-! ## Lists of fields

The calls for lists can break down and cannot be refused. Where they do not break down they give the
lists and leave the desk as it was. -/

/-- The calls that list fields enter. -/
theorem on_enterUnrefused_of_listsFields (h : d.ListsFields) {call : Call}
    (hcall : call ∈ [Call.campaignFields, .widgetFields, .sourceFields]) :
    (enterUnrefused p call).on d = (.ok (), d) := by
  rw [on_enterUnrefused]
  cases hfault : d.faults p call with
  | none => rfl
  | some fault =>
    cases fault with
    | refusal cause => rfl
    | crash message => exact absurd hfault (h p call hcall message)

theorem on_network_of_some {n : Network} (hn : d.network? p = some n) :
    (network p).on d = (.ok n, d) := by
  rw [on_network, hn]

theorem on_discard_network {n : Network} (hn : d.network? p = some n) :
    (discard (network p)).on d = (.ok (), d) := by
  show (network p >>= fun _ => pure ()).on d = _
  rw [on_bind_ok (on_network_of_some hn)]
  rfl

theorem on_campaignFields (h : d.ListsFields) {n : Network} (hn : d.network? p = some n) :
    (campaignFields p).on d = (.ok (d.campaignFields p), d) := by
  unfold campaignFields
  rw [on_bind_ok (on_network_of_some hn),
    on_bind_ok (on_enterUnrefused_of_listsFields h (by simp)), Desk.campaignFields_eq hn]
  rfl

theorem on_widgetFields (h : d.ListsFields) {n : Network} (hn : d.network? p = some n) :
    (widgetFields p).on d = (.ok (d.widgetFields p), d) := by
  unfold widgetFields
  rw [on_bind_ok (on_network_of_some hn),
    on_bind_ok (on_enterUnrefused_of_listsFields h (by simp)), Desk.widgetFields_eq hn]
  rfl

end Action

namespace TrackerAction

open AdOps.Action

theorem on_campaignFields {d : Desk} (h : d.ListsFields) :
    campaignFields.on d = (.ok d.tracker.campaignFields, d) := by
  unfold campaignFields
  rw [on_bind_ok (on_enterUnrefused_of_listsFields h (by simp))]
  rfl

theorem on_sourceFields {d : Desk} (h : d.ListsFields) :
    sourceFields.on d = (.ok d.tracker.sourceFields, d) := by
  unfold sourceFields
  rw [on_bind_ok (on_enterUnrefused_of_listsFields h (by simp))]
  rfl

end TrackerAction

/-! ## Rows

A call that reads gives on alike desks what it gives on this one, so it is enough to look at the
rows here. Each of them is one that the service has, perhaps with a status. -/

namespace Action

variable {d : Desk} {p : Platform}

/-- What goes on with a network that is configured. -/
theorem givesOn_network_bind {α : Type} (f : Network → Action α) :
    GivesOn d (fun _ => ∃ n, d.network? p = some n) (network p >>= f) := by
  intro d₁ a d' halike hon
  obtain ⟨n, d₂, hn, -⟩ := on_bind_eq_ok.1 hon
  rw [on_network] at hn
  cases hnet : d₁.network? p with
  | some n =>
    obtain ⟨n', hn', -⟩ := Desk.network?_of_lasting_eq halike.lasting_eq hnet
    exact ⟨n', hn'⟩
  | none =>
    rw [hnet] at hn
    exact absurd (Prod.mk.inj hn).1 (by simp)

theorem givesOn_network : GivesOn d (fun _ => ∃ n, d.network? p = some n) (discard (network p)) :=
  givesOn_network_bind _

theorem givesOn_listCampaigns :
    GivesOn d (FieldsIn (· ∈ d.campaignFields p)) (listCampaigns p) := by
  refine .of_reads (reads_listCampaigns p) fun rs d' hon r hr name hname => ?_
  obtain ⟨n, hn, rfl⟩ := campaigns_of_listCampaigns hon
  rw [Desk.campaignFields_eq hn]
  exact Network.mem_campaignFields.2 ⟨r, .inl hr, hname⟩

/-- **The stats rows of a network have fields that it lists.** -/
theorem givesOn_campaignStats (campaign : Option String) (w : Window) :
    GivesOn d (FieldsIn (· ∈ d.campaignFields p)) (campaignStats p campaign w) := by
  refine .of_reads (reads_campaignStats p campaign w) fun rs d' hon r hr name hname => ?_
  rw [on_campaignStats] at hon
  obtain ⟨n, hn, hrows, -⟩ := Desk.through_eq_ok hon
  obtain rfl := Except.ok.inj hrows
  rw [Desk.campaignFields_eq (Desk.network?_of_reach hn)]
  exact Network.mem_campaignFields.2 ⟨r, .inr (mem_of_rowsOf hr), hname⟩

/-- **The widget rows of a network have fields that it lists.** -/
theorem givesOn_widgetStats (campaign : String) (w : Window) :
    GivesOn d (FieldsIn (· ∈ d.widgetFields p)) (widgetStats p campaign w) := by
  refine .of_reads (reads_widgetStats p campaign w) fun rs d' hon => ?_
  obtain ⟨n, hn, hrows⟩ := widgetStats?_of_widgetStats hon
  rw [Desk.widgetFields_eq hn]
  exact Network.fieldsIn_widgetStats hrows

/-- **Looking for a campaign finds the one that the network has.** -/
theorem givesOn_findCampaign (id : String) :
    GivesOn d (fun c => c = d.campaign? p id) (findCampaign p id) := by
  refine .of_reads (reads_findCampaign p id) fun c d' hon => ?_
  obtain ⟨n, hn, rfl⟩ := find?_of_findCampaign hon
  unfold Desk.campaign?
  rw [hn]
  rfl

end Action

namespace TrackerAction

open AdOps.Action

variable {d : Desk}

/-- A call of the tracker that gives what it has for a window. -/
theorem givesOn_noted {call : Call} {w : Window} {f : Tracker → List Record}
    (hreads : Reads (note w >>= fun _ => enter call >>= fun _ => tracker >>= fun t => pure (f t)))
    (hf : f (d.tracker.note w) = f d.tracker) :
    GivesOn d (fun rs => rs = f d.tracker)
      (note w >>= fun _ => enter call >>= fun _ => tracker >>= fun t => pure (f t)) := by
  refine .of_reads hreads fun rs d' hon => ?_
  obtain ⟨_, d₁, hnote, hon⟩ := on_bind_eq_ok.1 hon
  obtain ⟨_, d₂, henter, hon⟩ := on_bind_eq_ok.1 hon
  -- The call entered, so the desk is the one on which the window was noted.
  rw [show enter call = Action.enter .thrive call from rfl, on_enter] at henter
  obtain ⟨-, rfl⟩ := Prod.mk.inj henter
  obtain ⟨-, rfl⟩ := Prod.mk.inj (show (Except.ok (), { d with tracker := d.tracker.note w }) =
    (Except.ok (), d₁) from hnote)
  rw [on_tracker_bind] at hon
  obtain ⟨rfl, -⟩ := on_pure_eq_ok hon
  exact hf

theorem givesOn_listSources (w : Window) :
    GivesOn d (fun rs => rs = d.tracker.data.sources) (listSources w) :=
  givesOn_noted (reads_listSources w) rfl

theorem givesOn_campaignStats (campaign : Option String) (w : Window) :
    GivesOn d (fun rs => rs = d.tracker.campaignStats campaign) (campaignStats campaign w) :=
  givesOn_noted (reads_campaignStats campaign w) rfl

theorem givesOn_widgetStats (campaign : String) (p : Platform) (w : Window) :
    GivesOn d (fun rs => rs = d.tracker.widgetStats campaign p) (widgetStats campaign p w) :=
  givesOn_noted (reads_widgetStats campaign p w) rfl

theorem givesOn_listCampaigns :
    GivesOn d (fun rs => rs = d.tracker.data.campaigns) listCampaigns := by
  refine .of_reads reads_listCampaigns fun rs d' hon => ?_
  obtain ⟨_, d₁, henter, hon⟩ := on_bind_eq_ok.1 hon
  rw [show enter .listCampaigns = Action.enter .thrive .listCampaigns from rfl, on_enter] at henter
  obtain ⟨-, rfl⟩ := Prod.mk.inj henter
  exact (on_pure_eq_ok hon).1.symm

/-- The name of a campaign is one that the campaigns have, as long as the tracker is faithful. -/
theorem givesOn_campaignName (hfaithful : d.tracker.Faithful) (id : String) :
    GivesOn d (fun name => name = Tracker.lastName? d.tracker.data.campaigns id)
      (campaignName id) := by
  refine .of_reads (reads_campaignName id) fun name d' hon => ?_
  obtain ⟨_, d₁, henter, hon⟩ := on_bind_eq_ok.1 hon
  rw [show enter .campaignName = Action.enter .thrive .campaignName from rfl, on_enter] at henter
  obtain ⟨-, rfl⟩ := Prod.mk.inj henter
  rw [← Tracker.campaignName_eq hfaithful]
  exact (Except.ok.inj (Prod.mk.inj hon).1).symm

end TrackerAction

end AdOps
