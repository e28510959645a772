import AdOps.Proofs.CommandLine.Listing
import AdOps.Proofs.Handler.Acting
import AdOps.Proofs.Service.Schema

/-!
# Listed fields and shown fields

A command that asks for fields lists them without looking at data, and the same command without
that shows rows. Each verb puts its list and its rows together separately. The rows have listed
fields, except where the tracker's data come in: the stats of a network's campaigns list the
tracker's fields by the tracker's own names, so the renamed clicks are missing, and the widget verbs
do not ask the tracker for its fields at all (`Command.Unlisted`).

* **`mem_keys_renameClicks`** — the tracker's clicks go by another name, and nothing else does.
* **`givesOn_joinedStats`** — the fields of the rows that stats start from.
* **`tells_campaignStats`**, **`tells_trackerStats`** — what stats list, and what they show besides.
-/

namespace AdOps

/-- The verb shows rows of the table of widgets. -/
def Verb.ShowsWidgets (v : Verb) : Prop :=
  v ∈ [.widgetsTop, .widgetsStats, .widgetsHighCpa, .widgetsLowCpa, .widgetsKillLongtail,
    .widgetsKillBot]

/-- A field that a command can show although it is not on its list. -/
inductive Command.Unlisted (c : Command) (d : Desk) : String → Prop where
  /-- The clicks of the tracker, next to the stats of a network's campaigns. -/
  | clicks {row : Record} (hplatform : c.platform ≠ .thrive) (hverb : c.verb = .stats)
      (hrow : row ∈ d.tracker.campaignStats none) (hclicks : "clicks" ∈ row.keys) :
      Unlisted c d Handler.trackerClicks
  /-- What the tracker has of the widgets of a linked campaign, except for its clicks. -/
  | widget {id key name : String} {row : Record} (hverb : c.verb.ShowsWidgets)
      (hid : c.args.text? "campaign_id" = some id) (hlink : d.link? c.platform id = some key)
      (hrow : row ∈ d.tracker.widgetStats key c.platform) (hname : name ∈ row.keys)
      (hother : name ≠ "clicks") : Unlisted c d name

/-- The field is on a list, or can be shown although it is not. -/
def Command.Known (c : Command) (d : Desk) (names : List String) (name : String) : Prop :=
  name ∈ names ∨ c.Unlisted d name

/-- The invocation that asks for the fields. -/
def Invocation.listing (inv : Invocation) : Invocation :=
  { inv with command := inv.command.listing }

/-- It asks for fields. -/
theorem Invocation.wantsFields_listing (inv : Invocation) : inv.listing.wantsFields = true := by
  show Arguments.switch (inv.args.insert "list_fields" .switch) "list_fields" = true
  unfold Arguments.switch
  rw [NameMap.get?_insert, if_pos rfl]
  rfl

/-- Every field of the records of an outcome has the property. -/
def Outcome.Shows (S : String → Prop) (o : Outcome) : Prop :=
  ∀ rs, o.body = .records rs → FieldsIn S rs

namespace Outcome

variable {S : String → Prop}

/-- An outcome of records shows the fields of these. -/
theorem shows_records {rs : List Record} {issues : List Issue}
    (h : FieldsIn S rs) : (records rs issues).Shows S := by
  intro rs' hbody
  obtain rfl := Body.records.inj hbody
  exact h

theorem shows_text (s : String) : (text s).Shows S :=
  fun _ hbody => absurd hbody (by simp [text])

end Outcome

namespace Handler

open AdOps.Action

/-! ## Rows that are made ready for an answer

Between the services and an answer rows are renamed, cut down and given derived values. Each lemma
says which fields a row has then. -/

section rows

variable {name : String} {r : Record}

/-- **The tracker's clicks go by another name**, and nothing else does. -/
theorem mem_keys_renameClicks :
    name ∈ (renameClicks r).keys ↔
      (name = trackerClicks ∧ "clicks" ∈ r.keys) ∨ (name ≠ "clicks" ∧ name ∈ r.keys) := by
  unfold renameClicks
  cases hclicks : r.get? "clicks" with
  | some clicks =>
    have hmem : "clicks" ∈ r.keys := NameMap.mem_keys_iff.2 (by rw [hclicks]; rfl)
    simp only [NameMap.mem_keys_insert, NameMap.mem_keys_erase, hmem, and_true]
  | none =>
    have hmem : "clicks" ∉ r.keys := by simp [NameMap.mem_keys_iff, hclicks]
    simp only [hmem, and_false, false_or]
    exact ⟨fun h => ⟨fun heq => hmem (heq ▸ h), h⟩, fun h => h.2⟩

/-- A row of a spending campaign or of one with a bot share: its name for that and some own fields.
-/
theorem mem_keys_derived {fields : List String} {field : String} {value : Json}
    (h : name ∈ (withFieldsOf r fields (NameMap.empty.insert field value)).keys) :
    name ∈ fields ++ [field] := by
  rcases mem_keys_withFieldsOf h with hmem | hunder
  · exact List.mem_append_left _ hmem
  · rcases NameMap.mem_keys_insert.1 hunder with rfl | hnone
    · exact List.mem_append_right _ List.mem_cons_self
    · exact absurd hnone NameMap.not_mem_keys_empty

/-- A row of a spending campaign. -/
theorem mem_keys_spentRow {row : Record} (h : spentRow? r = some row) (hname : name ∈ row.keys) :
    name ∈ ["id", "name", "spent"] := by
  unfold spentRow? at h
  split at h
  · obtain ⟨-, h⟩ := Option.ite_none_right_eq_some.1 h
    obtain rfl := Option.some.inj h
    exact mem_keys_derived hname
  · exact absurd h (by simp)

/-- A row of a campaign with a share of bots. -/
theorem mem_keys_botRow {row : Record} (h : botRow? r = some row) (hname : name ∈ row.keys) :
    name ∈ ["id", "name", "clicks", trackerClicks, "bot_traffic"] := by
  obtain ⟨share, -, rfl⟩ := Option.map_eq_some_iff.1 h
  exact mem_keys_derived hname

end rows

/-! ## What a verb lists and what it shows

Both commands run on the same desk, and what the listing says of that desk has to cover what the
other command shows. So for each verb the list is computed and the fields of the rows are bounded by
it, or by what the tables of the tracker hold besides. -/

/-- On a desk the handler lists fields for the command that asks for them, where it shows rows for
the command itself. The rows have no other fields, apart from the unlisted ones. -/
def Tells (handler : Handler) (inv : Invocation) (d : Desk) : Prop :=
  ∀ o d' rs, (handler inv).on d = (.ok o, d') → o.body = .records rs →
    inv.wantsFields = false ∧ ∃ names, (handler inv.listing).on d = (.ok (.fieldList names), d) ∧
      FieldsIn (inv.command.Known d names) rs

section verbs

variable {inv : Invocation} {d : Desk}

/-- A list that is given whenever fields are asked for, and rows of listed fields otherwise. The
list may need something of the desk that every success tells. -/
theorem Tells.of {handler : Handler} (names : List String) {q : Prop}
    (hfaithful : d.tracker.Faithful) (hq : GivesOn d (fun _ => q) (handler inv))
    (hlist : q → ∀ inv' : Invocation, inv'.platform = inv.platform → inv'.wantsFields = true →
      (handler inv').on d = (.ok (.fieldList names), d))
    (hshows : q → inv.wantsFields = false →
      GivesOn d (Outcome.Shows (inv.command.Known d names)) (handler inv)) :
    Tells handler inv d := by
  intro o d' rs hon hbody
  have hq' : q := hq d o d' (.refl hfaithful) hon
  cases hdata : inv.wantsFields with
  | true =>
    -- A list of fields is a text.
    rw [hlist hq' inv rfl hdata] at hon
    obtain ⟨ho, -⟩ := Prod.mk.inj hon
    rw [← Except.ok.inj ho] at hbody
    exact absurd hbody (by simp [Outcome.fieldList, Outcome.text])
  | false =>
    exact ⟨rfl, names, hlist hq' inv.listing rfl inv.wantsFields_listing,
      hshows hq' hdata d o d' (.refl hfaithful) hon rs hbody⟩

/-- Nothing is needed of the desk. -/
theorem givesOn_true {α : Type} (x : Action α) : GivesOn d (fun _ => True) x :=
  fun _ _ _ _ _ => trivial

/-! ## Campaign verbs

Fields of the rows of a network are listed by the network. A joined row has fields of the tracker as
well, after the clicks have been renamed, which the list knows nothing about. -/

/-- Of the campaigns that were listed, those with an identifier have no other fields. -/
theorem givesOn_found {S : String → Prop} (campaign? : Option String) {campaigns : List Record}
    (h : FieldsIn S campaigns) :
    GivesOn d (Outcome.Shows S) (match campaign? with
      | none => pure (Outcome.records campaigns)
      | some id =>
        if (campaigns.filter fun c => c.id? == some id).isEmpty then
          throw (Failure.invalidCampaign id) >>= fun (_ : PUnit) =>
            pure (Outcome.records (campaigns.filter fun c => c.id? == some id))
        else pure (Outcome.records (campaigns.filter fun c => c.id? == some id))) := by
  have hfilter : ∀ id, (Outcome.records (campaigns.filter fun c => c.id? == some id)).Shows S :=
    fun id => Outcome.shows_records (h.sub List.filter_sublist.subset)
  cases campaign? with
  | none => exact .pure (Outcome.shows_records h)
  | some id =>
    show GivesOn d _ (if (campaigns.filter fun c => c.id? == some id).isEmpty then _ else _)
    split
    · exact .after (Reads.throw _) fun _ => .pure (hfilter id)
    · exact .pure (hfilter id)

/-- Listing campaigns shows listed fields only. -/
theorem tells_listCampaigns (hd : d.ListsFields) (hfaithful : d.tracker.Faithful) :
    Tells listCampaigns inv d := by
  refine .of (d.campaignFields inv.platform) hfaithful givesOn_network.first ?_ fun _ hdata => ?_
  · rintro ⟨n, hn⟩ inv' hp hfields
    unfold listCampaigns
    rw [hp, hfields, on_bind_ok (on_discard_network hn), if_pos rfl,
      on_bind_ok (on_campaignFields hd hn)]
    rfl
  · unfold listCampaigns
    rw [hdata]
    exact .after (reads_network _) fun _ =>
      .bind (Action.reads_listCampaigns _) Action.givesOn_listCampaigns fun campaigns h =>
        givesOn_found inv.campaign? (h.mono fun _ => .inl)

/-- Statistics of a network have the fields that it lists. -/
theorem givesOn_checkedStats (w : Window) :
    GivesOn d (FieldsIn (· ∈ d.campaignFields inv.platform)) (checkedStats inv w) := by
  refine .bind (Action.reads_campaignStats _ _ w) (Action.givesOn_campaignStats _ w)
    fun stats h => ?_
  cases inv.campaign? with
  | none => exact .pure h
  | some id =>
    show GivesOn d _ (if stats.isEmpty then _ else _)
    split
    · refine .after (reads_findCampaign _ id) fun found => ?_
      split
      · exact .after (Reads.throw _) fun _ => .pure h
      · exact .pure h
    · exact .pure h

/-- A joined row has fields that the network or the tracker lists, and the tracker's clicks by their
other name. -/
theorem givesOn_joinedStats :
    GivesOn d (fun joined => FieldsIn (fun name =>
        name ∈ d.campaignFields inv.platform ∨ name ∈ d.tracker.campaignFields ∨
          (name = trackerClicks ∧ ∃ t ∈ d.tracker.campaignStats none, "clicks" ∈ t.keys))
      joined.records) (joinedStats inv) := by
  refine .after (Reads.lift _) fun w => .bind (reads_checkedStats inv w) (givesOn_checkedStats w)
    fun stats hstats => .bind (TrackerAction.reads_campaignStats none w)
      (TrackerAction.givesOn_campaignStats none w) fun tracked htracked => ?_
  subst htracked
  intro d₁ joined d' _ hon r hr name hname
  obtain ⟨hjoin, -⟩ := on_lift_eq_ok hon
  rcases Reconcile.mem_join hjoin hr with hmem | ⟨l, hl, t, ht, rfl⟩
  · exact .inl (hstats r hmem name hname)
  · rcases Record.mem_keys_joined.1 hname with hown | htracker
    · exact .inl (hstats l hl name hown)
    · obtain ⟨t', ht', rfl⟩ := List.mem_map.1 ht
      rcases mem_keys_renameClicks.1 htracker with ⟨rfl, hclicks⟩ | ⟨-, hmem⟩
      · exact .inr (.inr ⟨rfl, t', ht', hclicks⟩)
      · exact .inr (.inl (Tracker.fieldsIn_campaignStats _ none t' ht' name hmem))

/-- **Stats of a network's campaigns** list the fields of both services and the cost of an action,
and show the renamed clicks besides. -/
theorem tells_campaignStats (hd : d.ListsFields) (hfaithful : d.tracker.Faithful)
    (hverb : inv.command.verb = .stats) : Tells campaignStats inv d := by
  refine .of (d.campaignFields inv.platform ++ d.tracker.campaignFields ++ [Record.cpaField])
    hfaithful givesOn_network.first ?_ fun hnet hdata => ?_
  · rintro ⟨n, hn⟩ inv' hp hfields
    unfold campaignStats
    rw [hp, hfields, on_bind_ok (on_discard_network hn), if_pos rfl,
      on_bind_ok (on_campaignFields hd hn), on_bind_ok (TrackerAction.on_campaignFields hd)]
    rfl
  · unfold campaignStats
    rw [hdata]
    refine .after (reads_network _) fun _ =>
      .bind (reads_joinedStats inv) givesOn_joinedStats fun joined h => .pure ?_
    -- The tracker is no network.
    have hplatform : inv.platform ≠ .thrive := by
      obtain ⟨n, hn⟩ := hnet
      intro heq
      rw [heq] at hn
      exact absurd hn (by simp [Desk.network?])
    refine Outcome.shows_records (.withCpa (h.mono fun name hname => ?_) ?_)
    · rcases hname with hown | htracker | ⟨rfl, t, ht, hclicks⟩
      · exact .inl (List.mem_append_left _ (List.mem_append_left _ hown))
      · exact .inl (List.mem_append_left _ (List.mem_append_right _ htracker))
      · exact .inr (.clicks hplatform hverb ht hclicks)
    · exact .inl (List.mem_append_right _ List.mem_cons_self)

/-- Spending campaigns show the three fields that are listed. -/
theorem tells_spent (hfaithful : d.tracker.Faithful) : Tells spent inv d := by
  refine .of ["id", "name", "spent"] hfaithful givesOn_network.first ?_ fun _ hdata => ?_
  · rintro ⟨n, hn⟩ inv' hp hfields
    unfold spent
    rw [hp, hfields, on_bind_ok (on_discard_network hn)]
    rfl
  · unfold spent
    rw [hdata]
    refine .after (reads_network _) fun _ => .after (Reads.lift _) fun w =>
      .after (reads_checkedStats inv w) fun stats => .pure ?_
    refine Outcome.shows_records fun r hr name hname => ?_
    obtain ⟨row, -, hrow⟩ := List.mem_filterMap.1 hr
    exact .inl (mem_keys_spentRow hrow hname)

/-- Campaigns with a share of bots show the five fields that are listed. -/
theorem tells_botTraffic (hfaithful : d.tracker.Faithful) : Tells botTraffic inv d := by
  refine .of ["id", "name", "clicks", trackerClicks, "bot_traffic"] hfaithful (givesOn_true _) ?_
    fun _ hdata => ?_
  · rintro - inv' hp hfields
    unfold botTraffic
    rw [hfields]
    rfl
  · unfold botTraffic
    rw [hdata]
    refine .after (reads_joinedStats inv) fun joined => .pure ?_
    refine Outcome.shows_records fun r hr name hname => ?_
    obtain ⟨row, -, hrow⟩ := List.mem_filterMap.1 hr
    exact .inl (mem_keys_botRow hrow hname)

/-! ## Verbs of the tracker

The tracker lists its fields by its own names, and here its rows keep them. -/

/-- Listing the tracker's campaigns shows listed fields only. -/
theorem tells_trackerList (hd : d.ListsFields) (hfaithful : d.tracker.Faithful) :
    Tells trackerList inv d := by
  refine .of d.tracker.campaignFields hfaithful (givesOn_true _) ?_ fun _ hdata => ?_
  · rintro - inv' hp hfields
    unfold trackerList
    rw [hfields, if_pos rfl, on_bind_ok (TrackerAction.on_campaignFields hd)]
    rfl
  · unfold trackerList
    rw [hdata]
    refine .bind TrackerAction.reads_listCampaigns TrackerAction.givesOn_listCampaigns
      fun campaigns h => ?_
    subst h
    exact givesOn_found inv.campaign? fun r hr name hname =>
      .inl (Tracker.mem_campaignFields.2 ⟨r, .inl hr, hname⟩)

/-- Listing its sources shows listed fields only. -/
theorem tells_trackerSources (hd : d.ListsFields) (hfaithful : d.tracker.Faithful) :
    Tells trackerSources inv d := by
  refine .of d.tracker.sourceFields hfaithful (givesOn_true _) ?_ fun _ hdata => ?_
  · rintro - inv' hp hfields
    unfold trackerSources
    rw [hfields, if_pos rfl, on_bind_ok (TrackerAction.on_sourceFields hd)]
    rfl
  · unfold trackerSources
    rw [hdata]
    refine .after (Reads.lift _) fun w => .bind (TrackerAction.reads_listSources w)
      (TrackerAction.givesOn_listSources w) fun sources h => .pure ?_
    subst h
    exact Outcome.shows_records fun r hr name hname => .inl (mem_fieldNames.2 ⟨r, hr, hname⟩)

/-- A row that got the name of its campaign has no field that it lacked, or one for a name that some
campaign has. -/
theorem givesOn_withCampaignName (hfaithful : d.tracker.Faithful) (r : Record) :
    GivesOn d (fun named => ∀ name ∈ named.keys, name ∈ r.keys ∨ name ∈ d.tracker.campaignFields)
      (withCampaignName r) := by
  unfold withCampaignName
  split
  · next id _ _ =>
    refine .bind (TrackerAction.reads_campaignName id)
      (TrackerAction.givesOn_campaignName hfaithful id) fun found hfound => ?_
    cases found with
    | none => exact .pure fun _ hname => .inl hname
    | some text =>
      refine .pure fun name hname => ?_
      rcases NameMap.mem_keys_insert.1 hname with rfl | hmem
      · exact .inr (Tracker.name_mem_campaignFields hfound.symm)
      · exact .inl hmem
  · exact .pure fun _ hname => .inl hname

/-- **Stats of the tracker** show listed fields only: a name that is filled in is the name of some
campaign. -/
theorem tells_trackerStats (hd : d.ListsFields) (hfaithful : d.tracker.Faithful) :
    Tells trackerStats inv d := by
  refine .of (d.tracker.campaignFields ++ [Record.cpaField]) hfaithful (givesOn_true _) ?_
    fun _ hdata => ?_
  · rintro - inv' hp hfields
    unfold trackerStats
    rw [hfields, if_pos rfl, on_bind_ok (TrackerAction.on_campaignFields hd)]
    rfl
  · unfold trackerStats
    rw [hdata]
    refine .after (Reads.lift _) fun w => .bind (TrackerAction.reads_campaignStats _ w)
      (TrackerAction.givesOn_campaignStats _ w) fun rows hrows => ?_
    subst hrows
    -- Each row has the fields of the tracker's statistics, and maybe a name.
    have hnamed : ∀ r ∈ d.tracker.campaignStats inv.campaign?, GivesOn d
        (fun named => ∀ name ∈ named.keys, name ∈ d.tracker.campaignFields) (withCampaignName r) :=
      fun r hr => (givesOn_withCampaignName hfaithful r).mono fun named h name hname =>
        (h name hname).elim (Tracker.fieldsIn_campaignStats _ _ r hr name) id
    refine .bind (Reads.mapM reads_withCampaignName _) (.mapM reads_withCampaignName hnamed)
      fun named (h : FieldsIn (· ∈ d.tracker.campaignFields) named) => .pure ?_
    exact Outcome.shows_records (.withCpa
      (h.mono fun _ hname => .inl (List.mem_append_left _ hname))
      (.inl (List.mem_append_right _ List.mem_cons_self)))

end verbs

end Handler

end AdOps
