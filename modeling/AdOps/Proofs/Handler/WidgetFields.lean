import AdOps.Proofs.Handler.Fields

/-!
# The fields of widgets

All widget verbs list the same fields and start from the same table. A row of the table has fields
that the network lists for its widgets, the tracker's clicks by their other name, and whatever the
tracker has of the widget besides. Only the last are missing from the list.

* **`givesOn_widgetTable`** — the fields of the table of widgets.
* **`Tells.of_table`** — a verb that goes on with the table.
* **`tells_handle`** — of every command: what it lists, and which fields it can show besides.
-/

namespace AdOps.Handler

open AdOps.Action

/-! ## Rows of widgets

What a widget verb does with a row of the table adds fields of its own at most, and the table itself
is merged from two sources. -/

section rows

variable {name : String} {r : Record}

/-- A row that is reported as paused has its two marks and the cost of an action besides. -/
theorem mem_keys_pausedRow (h : name ∈ (pausedRow r).keys) :
    name = "status" ∨ name = "action" ∨ name = Record.cpaField ∨ name ∈ r.keys := by
  unfold pausedRow at h
  rcases NameMap.mem_keys_insert.1 h with hstatus | h
  · exact .inl hstatus
  · rcases NameMap.mem_keys_insert.1 h with haction | h
    · exact .inr (.inl haction)
    · exact .inr (.inr (Record.mem_keys_withCpa h))

/-- The verb for the long tail selects rows as they are. -/
theorem longtailTarget?_eq_some {threshold : Float} {row : Record}
    (h : longtailTarget? threshold r = some row) : row = r := by
  obtain ⟨-, h⟩ := Option.ite_none_right_eq_some.1 h
  exact (Option.some.inj h).symm

/-- The verb for bots adds the share of bots. -/
theorem mem_keys_botTarget {threshold : Float} {row : Record}
    (h : botTarget? threshold r = some row) (hname : name ∈ row.keys) :
    name = "bot_traffic" ∨ name ∈ r.keys := by
  unfold botTarget? at h
  split at h
  · split at h
    · obtain ⟨-, h⟩ := Option.ite_none_right_eq_some.1 h
      obtain rfl := Option.some.inj h
      exact NameMap.mem_keys_insert.1 hname
    · exact absurd h (by simp)
  · exact absurd h (by simp)

/-- A merged row has the fields of a row of the network, and those of a tracker row with its clicks
renamed. -/
theorem mem_keys_mergeWidgets {own tracked : List Record} {row : Record}
    (hrow : row ∈ mergeWidgets own tracked) (h : name ∈ row.keys) :
    (∃ l ∈ own, name ∈ l.keys) ∨ name = trackerClicks ∨
      ∃ t ∈ tracked, name ∈ t.keys ∧ name ≠ "clicks" := by
  rcases mergeWidgets_cases hrow with hown | ⟨l, hl, t, ht, -, -, rfl⟩
  · exact .inl ⟨row, hown, h⟩
  · rcases Reconcile.mem_keys_combine.1 h with hname | hname
    · exact .inl ⟨l, hl, hname⟩
    · rcases mem_keys_renameClicks.1 hname with ⟨hclicks, -⟩ | ⟨hother, hmem⟩
      · exact .inr (.inl hclicks)
      · exact .inr (.inr ⟨t, ht, hmem, hother⟩)

end rows

section verbs

variable {inv : Invocation} {d : Desk}

/-! ## The table

The table is followed from call to call with what each of them gives: the rows of the network have
listed fields, and those of the tracker any at all. Which of the tracker's rows may come in is told
by the link of the campaign. -/

/-- **A row of the table has fields that the network lists**, the tracker's clicks by their other
name, and what the tracker has of the widgets besides. -/
theorem givesOn_widgetTable (hverb : inv.command.verb.ShowsWidgets) :
    GivesOn d (fun table => FieldsIn (fun name => name ∈ d.widgetFields inv.platform ∨
      name = trackerClicks ∨ inv.command.Unlisted d name) table.rows) (widgetTable inv) := by
  unfold widgetTable
  refine .after (reads_network _) fun _ => .bind (Reads.lift _) (.lift _) fun id hid =>
    .bind (reads_findCampaign _ id) (givesOn_findCampaign id) fun found hfound => ?_
  cases found with
  | none => exact .throw _
  | some campaign =>
    refine .after (Reads.lift _) fun w => .bind (reads_widgetStats _ id w)
      (givesOn_widgetStats id w) fun own hown => ?_
    dsimp only
    -- Only with a link can the tracker's fields come in.
    cases hkey : joinKey? (campaign.name?.getD "") with
    | some key =>
      refine .bind (TrackerAction.reads_widgetStats key _ w)
        (TrackerAction.givesOn_widgetStats key _ w) fun tracked htracked => .pure ?_
      subst htracked
      have hlink : d.link? inv.platform id = some key := by
        unfold Desk.link?
        rw [← hfound]
        exact hkey
      intro row hrow name hname
      rcases mem_keys_mergeWidgets hrow hname with
        ⟨l, hl, hmem⟩ | hclicks | ⟨t, ht, hmem, hother⟩
      · exact .inl (hown l hl name hmem)
      · exact .inr (.inl hclicks)
      · exact .inr (.inr (.widget hverb (campaign?_of_campaign hid) hlink ht hmem hother))
    | none =>
      cases inv.joinMode with
      | strict => exact .throw _
      | lenient => exact .pure (hown.mono fun _ => .inl)

/-- The fields that a widget verb lists: those of the network's widgets, those of the merge with the
tracker that are known beforehand, and its own. -/
def widgetNames (d : Desk) (p : Platform) (extra : List String) : List String :=
  d.widgetFields p ++ [Record.cpaField, trackerClicks, "conv", "rev"] ++ extra

/-- What a widget verb lists on a desk with its network. -/
theorem on_widgetFieldList (hd : d.ListsFields) {n : Network}
    (hn : d.network? inv.platform = some n) (extra : List String) :
    (widgetFieldList inv extra).on d =
      (.ok (.fieldList (widgetNames d inv.platform extra)), d) := by
  unfold widgetFieldList
  rw [on_bind_ok (Action.on_widgetFields hd hn)]
  rfl

/-! ## Verbs that go on with the table

All of them list the same names, up to some of their own, make the table, and then choose rows of
it. So each verb says no more than which steps come before the table and what it does with the rows.
-/

/-- A verb that lists the fields of widgets, and otherwise makes the table of widgets and goes on
with it. What comes before the table only reads. -/
theorem Tells.of_table {α : Type} {handler : Handler} (extra : List String) (pre : Action α)
    (k : α → WidgetTable → Action Outcome) (hd : d.ListsFields) (hfaithful : d.tracker.Faithful)
    (hverb : inv.command.verb.ShowsWidgets)
    (hlist : ∀ inv' : Invocation, inv'.wantsFields = true →
      handler inv' = widgetFieldList inv' extra)
    (hdata : inv.wantsFields = false → handler inv = pre >>= fun a => widgetTable inv >>= k a)
    (hpre : Reads pre)
    (hk : (∃ n, d.network? inv.platform = some n) → ∀ a table,
      FieldsIn (inv.command.Known d (widgetNames d inv.platform extra)) table.rows → GivesOn d
        (Outcome.Shows (inv.command.Known d (widgetNames d inv.platform extra))) (k a table)) :
    Tells handler inv d := by
  have hnet : GivesOn d (fun _ => ∃ n, d.network? inv.platform = some n) (handler inv) := by
    cases hfields : inv.wantsFields with
    | true =>
      rw [hlist inv hfields]
      exact .first (givesOn_network_bind _)
    | false =>
      rw [hdata hfields]
      exact .after hpre fun _ => .first givesOn_network.first
  refine .of (widgetNames d inv.platform extra) hfaithful hnet ?_ fun hn hfields => ?_
  · rintro ⟨n, hn⟩ inv' hp hfields
    rw [hlist inv' hfields, on_widgetFieldList hd (hp ▸ hn), hp]
  · rw [hdata hfields]
    refine .after hpre fun a => .bind (reads_widgetTable inv) (givesOn_widgetTable hverb)
      fun table hrows => hk hn a table (hrows.mono fun name hname => ?_)
    rcases hname with hown | rfl | hunlisted
    · exact .inl (List.mem_append_left _ (List.mem_append_left _ hown))
    · exact .inl (List.mem_append_left _ (List.mem_append_right _ (by simp)))
    · exact .inr hunlisted

theorem cpa_mem_widgetNames (d : Desk) (p : Platform) (extra : List String) :
    Record.cpaField ∈ widgetNames d p extra :=
  List.mem_append_left _ (List.mem_append_right _ List.mem_cons_self)

/-- Rows of the table are shown with their cost per acquisition, which is listed. -/
theorem shows_respond {extra : List String} {table : WidgetTable} {rows : List Record}
    (h : FieldsIn (inv.command.Known d (widgetNames d inv.platform extra)) table.rows)
    (hsub : rows ⊆ table.rows) :
    (respond table rows).Shows (inv.command.Known d (widgetNames d inv.platform extra)) :=
  Outcome.shows_records ((h.sub hsub).withCpa (.inl (cpa_mem_widgetNames d inv.platform extra)))

/-- To insert a row adds this row only. -/
theorem mem_insertRanked {r row : Record} {rows : List Record} (h : row ∈ insertRanked r rows) :
    row = r ∨ row ∈ rows := by
  induction rows with
  | nil => exact .inl (List.mem_singleton.1 h)
  | cons last before ih =>
    rw [insertRanked] at h
    split at h
    · rcases List.mem_cons.1 h with rfl | h
      · exact .inr List.mem_cons_self
      · exact (ih h).imp id (List.mem_cons_of_mem _)
    · exact List.mem_cons.1 h

/-- Ranked rows are the rows that were there. -/
theorem mem_foldl_insertRanked {row : Record} {rows acc : List Record}
    (h : row ∈ rows.foldl (fun acc r => insertRanked r acc) acc) : row ∈ rows ∨ row ∈ acc := by
  induction rows generalizing acc with
  | nil => exact .inr h
  | cons r rows ih =>
    rcases ih h with hmem | hacc
    · exact .inl (List.mem_cons_of_mem _ hmem)
    · rcases mem_insertRanked hacc with rfl | hmem
      · exact .inl List.mem_cons_self
      · exact .inr hmem

/-- The best rows are rows of the table. -/
theorem topRows_subset (limit : Nat) (rows : List Record) : topRows limit rows ⊆ rows := by
  intro row h
  have hranked : row ∈ ranked (rows.filter fun r => 0 < r.conversions) := List.mem_of_mem_take h
  rcases mem_foldl_insertRanked (List.mem_reverse.1 hranked) with hmem | hnone
  · exact (List.mem_filter.1 hmem).1
  · exact absurd hnone List.not_mem_nil

section table

variable (hd : d.ListsFields) (hfaithful : d.tracker.Faithful)
  (hverb : inv.command.verb.ShowsWidgets)

include hd hfaithful hverb

/-- The best widgets have fields of the table. -/
theorem tells_widgetsTop : Tells widgetsTop inv d := by
  refine .of_table [] (pure ())
    (fun _ table => pure (respond table (topRows
      ((inv.args.integer? "filter_limit").getD inv.settings.defaultFilterNumber).toNat table.rows)))
    hd hfaithful hverb ?_ ?_ (.pure _) ?_
  · intro inv' hfields
    unfold widgetsTop
    rw [hfields]
    rfl
  · intro hdata
    unfold widgetsTop
    rw [hdata]
    rfl
  · exact fun _ _ table h => .pure (shows_respond h (topRows_subset _ _))

/-- So do all widgets, or the one that is asked for. -/
theorem tells_widgetsStats : Tells widgetsStats inv d := by
  have hlist : ∀ inv' : Invocation, inv'.wantsFields = true →
      widgetsStats inv' = widgetFieldList inv' [] := fun inv' hfields => by
    unfold widgetsStats
    rw [hfields]
    rfl
  cases hid : inv.args.text? "widget_id" with
  | none =>
    refine .of_table [] (pure ()) (fun _ table => pure (respond table table.rows)) hd hfaithful
      hverb hlist (fun hdata => ?_) (.pure _) fun _ _ _ h =>
        .pure (shows_respond h (List.Subset.refl _))
    unfold widgetsStats
    rw [hdata, hid]
    rfl
  | some id =>
    refine .of_table [] (pure ())
      (fun _ table =>
        if (table.rows.filter fun r => r.id? == some id).isEmpty then
          throw (.noSuchWidget id) >>= fun (_ : PUnit) =>
            pure (respond table (table.rows.filter fun r => r.id? == some id))
        else pure (respond table (table.rows.filter fun r => r.id? == some id)))
      hd hfaithful hverb hlist (fun hdata => ?_) (.pure _) fun _ _ table h => ?_
    · unfold widgetsStats
      rw [hdata, hid]
      rfl
    · have hfilter := shows_respond h
        (List.filter_sublist (p := fun r => r.id? == some id) (l := table.rows)).subset
      show GivesOn d _ (if (table.rows.filter fun r => r.id? == some id).isEmpty then _ else _)
      split
      · exact .after (Reads.throw _) fun _ => .pure hfilter
      · exact .pure hfilter

/-- So do the widgets that are selected by a threshold. -/
theorem tells_selectBy (select : Float → Record → Bool) : Tells (selectBy select) inv d := by
  refine .of_table [] (liftM (inv.number "threshold"))
    (fun threshold table => pure (respond table (table.rows.filter (select threshold))))
    hd hfaithful hverb ?_ ?_ (.lift _) ?_
  · intro inv' hfields
    unfold selectBy
    rw [hfields]
    rfl
  · intro hdata
    unfold selectBy
    rw [hdata]
    rfl
  · exact fun _ _ table h => .pure (shows_respond h List.filter_sublist.subset)

/-- A verb that pauses widgets lists its marks, and what else the rows that it selects can have. -/
theorem tells_killBy {target? : Float → Record → Option Record} {extra : List String}
    (haction : "action" ∈ extra)
    (htarget : ∀ threshold r row, target? threshold r = some row →
      ∀ name ∈ row.keys, name ∈ r.keys ∨ name ∈ extra) :
    Tells (killBy target? extra) inv d := by
  refine .of_table extra (liftM (inv.number "threshold"))
    (fun threshold table => pause inv table (table.rows.filterMap (target? threshold)))
    hd hfaithful hverb ?_ (fun hdata => killBy_of_data hdata) (.lift _) ?_
  · intro inv' hfields
    unfold killBy
    rw [hfields]
    rfl
  · rintro ⟨n, hn⟩ threshold table h d₁ o d' - hon
    obtain ⟨rfl, -⟩ := pause_eq_ok hon
    have hstatus : "status" ∈ d.widgetFields inv.platform := by
      rw [Desk.widgetFields_eq hn]
      exact NameSet.mem_insert.2 (.inl rfl)
    have hextra : ∀ name ∈ extra, inv.command.Known d (widgetNames d inv.platform extra) name :=
      fun name hname => .inl (List.mem_append_right _ hname)
    have htargets : FieldsIn (inv.command.Known d (widgetNames d inv.platform extra))
        (table.rows.filterMap (target? threshold)) :=
      h.filterMap fun r row heq name hname =>
        (htarget threshold r row heq name hname).imp id (hextra name)
    refine Outcome.shows_records (htargets.map fun r name hname => ?_)
    rcases mem_keys_pausedRow hname with rfl | rfl | rfl | hmem
    · exact .inr (.inl (List.mem_append_left _ (List.mem_append_left _ hstatus)))
    · exact .inr (hextra _ haction)
    · exact .inr (.inl (cpa_mem_widgetNames d _ extra))
    · exact .inl hmem

end table

/-- The verb that resumes widgets answers with a text. -/
theorem tells_widgetsTurnOnAll (hfaithful : d.tracker.Faithful) : Tells widgetsTurnOnAll inv d := by
  refine .of [] hfaithful givesOn_network.first ?_ fun _ hdata => ?_
  · rintro ⟨n, hn⟩ inv' hp hfields
    unfold widgetsTurnOnAll
    rw [hp, hfields, on_bind_ok (on_discard_network hn)]
    rfl
  · rw [widgetsTurnOnAll_of_data hdata]
    refine .after (reads_network _) fun _ => .after (Reads.lift _) fun id =>
      .after (reads_findCampaign _ id) fun found => ?_
    split
    · exact .throw _
    · intro d₁ o d' _ hon
      obtain ⟨count, d₂, -, hon⟩ := on_bind_eq_ok.1 hon
      obtain ⟨rfl, -⟩ := on_pure_eq_ok hon
      exact Outcome.shows_text _

/-! ## All verbs

The table of verbs gives each handler, and its lemma is looked up by the verb. -/

/-- **Every command lists the fields of its rows**, apart from the unlisted ones. -/
theorem tells_handle (inv : Invocation) (hd : d.ListsFields) (hfaithful : d.tracker.Faithful) :
    Tells (handlerOf inv.platform inv.command.verb) inv d := by
  suffices h : ∀ v, inv.command.verb = v → Tells (handlerOf inv.platform v) inv d from h _ rfl
  intro v
  apply handlerOf_cases (motive := fun v handler => inv.command.verb = v → Tells handler inv d)
  case list => exact fun _ => tells_listCampaigns hd hfaithful
  case trackerList => exact fun _ => tells_trackerList hd hfaithful
  case stats => exact tells_campaignStats hd hfaithful
  case trackerStats => exact fun _ => tells_trackerStats hd hfaithful
  case sources => exact fun _ => tells_trackerSources hd hfaithful
  case spent => exact fun _ => tells_spent hfaithful
  case botTraffic => exact fun _ => tells_botTraffic hfaithful
  case widgetsTop => exact fun h => tells_widgetsTop hd hfaithful (by simp [h, Verb.ShowsWidgets])
  case widgetsStats =>
    exact fun h => tells_widgetsStats hd hfaithful (by simp [h, Verb.ShowsWidgets])
  case widgetsHighCpa =>
    exact fun h => tells_selectBy hd hfaithful (by simp [h, Verb.ShowsWidgets]) isHighCpa
  case widgetsLowCpa =>
    exact fun h => tells_selectBy hd hfaithful (by simp [h, Verb.ShowsWidgets]) isLowCpa
  case widgetsKillLongtail =>
    exact fun h => tells_killBy hd hfaithful (by simp [h, Verb.ShowsWidgets]) (by simp)
      fun _ _ _ heq _ hname => .inl (longtailTarget?_eq_some heq ▸ hname)
  case widgetsKillBot =>
    exact fun h => tells_killBy hd hfaithful (by simp [h, Verb.ShowsWidgets]) (by simp)
      fun _ _ _ heq _ hname => (mem_keys_botTarget heq hname).symm.imp id (by simp +contextual)
  case widgetsTurnOnAll => exact fun _ => tells_widgetsTurnOnAll hfaithful

end verbs

end AdOps.Handler
