import Mathlib.Data.List.Perm.Basic
import AdOps.Bot
import AdOps.Proofs.Handler.Table
import AdOps.Proofs.Handler.Window
import AdOps.Proofs.Reconcile.Merge
import AdOps.Proofs.Service.Fresh
import AdOps.Proofs.Service.Schema

/-!
# The table holds the network's widgets

The outer merge of a campaign's widgets adds rows that the tracker alone has, and the filter behind
it drops these and no others. What is left are the network's rows that have an identifier, each by
itself or combined with what the tracker has of the widget first. So a widget can be asked for
exactly if the network has it.

* **`mergeWidgets_eq`** — the merge without the rows of the tracker alone.
* **`perm_mergeWidgets`** — no widget is lost, doubled or invented.
* **`widgetRow_of_mem`** — what each row of the table is made of.
* **`on_widgetTable`** — the table, where the calls for it get through.
* **`table_of_network`** — the table, and which widgets do not exist.
-/

namespace AdOps

namespace Reconcile

variable {key : String} {right : List Record} {l row : Record} {s : Share}

/-- The share of a record keeps the text of its key. -/
theorem LeftShare.exists_text (h : LeftShare key right l s) (hrow : row ∈ s.common ++ s.alone) :
    ∃ text, l.text? key = some text ∧ row.text? key = some text := by
  cases h with
  | keyless => exact absurd hrow List.not_mem_nil
  | common hkey _ _ _ hcombined =>
    obtain rfl := List.mem_singleton.1 hrow
    rw [isCombined_iff.1 hcombined]
    exact ⟨_, hkey, text?_combine_key hkey _⟩
  | alone hkey =>
    obtain rfl := List.mem_singleton.1 hrow
    exact ⟨_, hkey, hkey⟩

/-- The share of a record has a row if the record has a key, and none otherwise. -/
theorem LeftShare.filterMap_text (h : LeftShare key right l s) :
    (s.common ++ s.alone).filterMap (·.text? key) = (l.text? key).toList := by
  have htext : ∀ row ∈ s.common ++ s.alone, ∃ text, l.text? key = some text ∧
      row.text? key = some text := fun _ hrow => h.exists_text hrow
  cases h with
  | keyless hkey => rw [hkey]; rfl
  | common =>
    obtain ⟨text, hl, hrow⟩ := htext _ List.mem_cons_self
    simp [hl, hrow]
  | alone hkey => simp [hkey]

end Reconcile

namespace Handler

open AdOps.Action AdOps.Reconcile

/-! ## Rows of the table

The merge gives each row of the network a share, by its key, and adds what is alone on the right.
The filter keeps the rows whose identifier the network has: all of a share, and nothing that is
alone on the right. So the table is made of the shares, and each share has one row or, without an
identifier, none. -/

/-- A row of the table: a row of the network that the tracker has nothing of, or a row of the
network combined with the first row that the tracker has of the widget. -/
inductive WidgetRow (own tracked : List Record) : Record → Prop where
  | unchanged {l : Record} {id : String} (hl : l ∈ own) (hid : l.id? = some id)
      (hnone : ∀ t ∈ tracked, t.id? ≠ some id) : WidgetRow own tracked l
  | combined {l t row : Record} {id : String} {before after : List Record} (hl : l ∈ own)
      (hid : l.id? = some id) (htracked : tracked = before ++ t :: after)
      (hfirst : ∀ u ∈ before, u.id? ≠ some id) (ht : t.id? = some id)
      (hrow : IsCombined "id" l (renameClicks t) row) : WidgetRow own tracked row

/-- A renamed row keeps its identifier. -/
theorem text?_renameClicks (t : Record) : (renameClicks t).text? "id" = t.id? := by
  apply Record.text?_congr
  unfold renameClicks
  cases t.get? "clicks" with
  | none => rfl
  | some v =>
    show (NameMap.insert _ trackerClicks v).get? "id" = _
    rw [NameMap.get?_insert, if_neg (by decide), NameMap.get?_erase, if_neg (by decide)]

section rows

variable (own tracked : List Record)

/-- What a row of the network adds to the table. -/
abbrev widgetShare (l : Record) : Share := shareOf "id" (tracked.map renameClicks) l

/-- **The merge without the rows that the tracker alone has.** -/
theorem mergeWidgets_eq :
    mergeWidgets own tracked =
      (own.flatMap fun l => (widgetShare tracked l).common) ++
        own.flatMap fun l => (widgetShare tracked l).alone := by
  have hshares : ∀ l ∈ own, ∀ row ∈ (widgetShare tracked l).common ++ (widgetShare tracked l).alone,
      row.id?.any (own.filterMap Record.id?).contains = true := by
    intro l hl row hrow
    obtain ⟨id, hlid, hid⟩ := (leftShare_shareOf _ _ l).exists_text hrow
    rw [show row.id? = some id from hid]
    exact List.contains_iff_mem.2 (List.mem_filterMap.2 ⟨l, hl, hlid⟩)
  -- Both parts of the shares go through the filter unchanged.
  have hkeep : ∀ f : Share → List Record, (∀ s, ∀ row ∈ f s, row ∈ s.common ++ s.alone) →
      (own.flatMap fun l => f (widgetShare tracked l)).filter
          (fun row => row.id?.any (own.filterMap Record.id?).contains) =
        own.flatMap fun l => f (widgetShare tracked l) := by
    intro f hf
    refine List.filter_eq_self.2 fun row hrow => ?_
    obtain ⟨l, hl, hmem⟩ := List.mem_flatMap.1 hrow
    exact hshares l hl row (hf _ row hmem)
  -- A row that is alone on the right has an identifier that no row of the network has.
  have hdrop : ((tracked.map renameClicks).filter (isAlone "id" own)).filter
      (fun row => row.id?.any (own.filterMap Record.id?).contains) = [] := by
    refine List.filter_eq_nil_iff.2 fun row hrow hown => ?_
    obtain ⟨text, htext, hnone⟩ := isAlone_iff.1 (List.mem_filter.1 hrow).2
    rw [show row.id? = some text from htext] at hown
    obtain ⟨l, hl, hlid⟩ := List.mem_filterMap.1 (List.contains_iff_mem.1 hown)
    exact hnone l hl hlid
  unfold mergeWidgets
  rw [mergeOn_outer, List.filter_append, List.filter_append, hdrop, List.append_nil,
    hkeep Share.common fun _ _ => List.mem_append_left _,
    hkeep Share.alone fun _ _ => List.mem_append_right _]

/-- **No widget is lost, doubled or invented.** -/
theorem perm_mergeWidgets :
    ((mergeWidgets own tracked).filterMap Record.id?).Perm (own.filterMap Record.id?) := by
  -- A share has the identifier of its row once.
  have hids : ∀ l, ((widgetShare tracked l).common ++ (widgetShare tracked l).alone).filterMap
      Record.id? = l.id?.toList := fun l => (leftShare_shareOf _ _ l).filterMap_text
  rw [mergeWidgets_eq]
  refine ((List.flatMap_append_perm own _ _).filterMap Record.id?).trans (.of_eq ?_)
  rw [List.filterMap_flatMap, List.filterMap_eq_flatMap_toList Record.id? own]
  exact List.flatMap_congr fun l _ => hids l

/-- The rows of a share are rows of the table as described. -/
theorem widgetRow_of_leftShare {l row : Record} {s : Share} (hl : l ∈ own)
    (h : LeftShare "id" (tracked.map renameClicks) l s) (hrow : row ∈ s.common ++ s.alone) :
    WidgetRow own tracked row := by
  -- By the kind of the share; the tracker's rows have been renamed, which leaves the identifiers.
  cases h with
  | keyless => exact absurd hrow List.not_mem_nil
  | common hkey hright hfirst hr hcombined =>
    obtain rfl := List.mem_singleton.1 hrow
    obtain ⟨before, rest, rfl, rfl, hrest⟩ := List.map_eq_append_iff.1 hright
    obtain ⟨t, after, rfl, rfl, rfl⟩ := List.map_eq_cons_iff.1 hrest
    refine .combined hl hkey rfl (fun u hu => ?_) ((text?_renameClicks t).symm.trans hr) hcombined
    rw [← text?_renameClicks u]
    exact hfirst _ (List.mem_map_of_mem hu)
  | alone hkey hnone =>
    obtain rfl := List.mem_singleton.1 hrow
    refine .unchanged hl hkey fun t ht => ?_
    rw [← text?_renameClicks t]
    exact hnone _ (List.mem_map_of_mem ht)

/-- **What each row of the table is made of.** -/
theorem widgetRow_of_mem {row : Record} (h : row ∈ mergeWidgets own tracked) :
    WidgetRow own tracked row := by
  rw [mergeWidgets_eq] at h
  rcases List.mem_append.1 h with h | h
  · obtain ⟨l, hl, hrow⟩ := List.mem_flatMap.1 h
    exact widgetRow_of_leftShare own tracked hl (leftShare_shareOf _ _ l)
      (List.mem_append_left _ hrow)
  · obtain ⟨l, hl, hrow⟩ := List.mem_flatMap.1 h
    exact widgetRow_of_leftShare own tracked hl (leftShare_shareOf _ _ l)
      (List.mem_append_right _ hrow)

end rows

/-! ## The table

Three calls go into the table, or two without a link. Where all of them get through, what they give
is determined by the desk, and so is the table. -/

/-- The calls for a table get through, and the command has a window. -/
structure Answered {inv : Invocation} {d : Desk} (s : WidgetSource inv d) : Prop where
  listed : d.fault? inv.platform .listCampaigns = none
  shown : d.fault? inv.platform .widgetStats = none
  tracked : s.key?.isSome = true → d.fault? .thrive .widgetStats = none
  window : ∃ w, inv.window = .ok w

variable {inv : Invocation} {d : Desk} {s : WidgetSource inv d}

/-- The table that the network's rows make, with the tracker's where the campaign is linked. -/
def tableOf (s : WidgetSource inv d) : WidgetTable :=
  match s.key? with
  | some key => ⟨s.id, mergeWidgets s.rows (d.tracker.widgetStats key inv.platform), []⟩
  | none => ⟨s.id, s.rows, [.unjoinable inv.platform s.id (s.campaign.name?.getD "")]⟩

/-- A campaign that is named is the campaign of the command. -/
theorem campaign_of_campaign? {id : String} (h : inv.campaign? = some id) :
    inv.campaign = .ok id := by
  unfold Invocation.campaign
  rw [h]

/-- **The table, where the calls for it get through.** Without a link it takes a lenient join. -/
theorem on_widgetTable (h : Answered s) (hmode : s.key? = none → inv.joinMode = .lenient) :
    ∃ d', (widgetTable inv).on d = (.ok (tableOf s), d') := by
  obtain ⟨w, hw⟩ := h.window
  have hfound : (findCampaign inv.platform s.id).on d = (.ok (some s.campaign), d) := by
    rw [on_findCampaign, Desk.reach_of_network? s.network_eq h.listed]
    exact congrArg (fun found => (Except.ok found, d)) s.campaign_eq
  have hshown : (widgetStats inv.platform s.id w).on d =
      (.ok s.rows, d.setNetwork inv.platform (s.network.note w)) := by
    rw [on_widgetStats]
    unfold Desk.through Network.Step.widgetStats
    rw [Desk.reach_of_network? s.network_eq h.shown]
    simp only [s.rows_eq]
  unfold widgetTable
  rw [on_bind_ok (on_discard_network s.network_eq), campaign_of_campaign? s.id_eq,
    on_bind_ok (on_lift _ d), on_bind_ok hfound, hw]
  dsimp only
  rw [on_bind_ok (on_lift _ d), on_bind_ok hshown]
  unfold WidgetSource.key? at hmode
  unfold tableOf WidgetSource.key?
  -- Without a link the table is the network's rows and an issue.
  cases hkey : joinKey? (s.campaign.name?.getD "") with
  | none =>
    rw [hmode hkey]
    exact ⟨_, rfl⟩
  | some key =>
    have htracked := TrackerAction.on_widgetStats key inv.platform w
      (d.setNetwork inv.platform (s.network.note w))
    -- The call before left the faults alone.
    have hfault : (d.setNetwork inv.platform (s.network.note w)).fault? .thrive .widgetStats =
        none := by
      unfold Desk.fault?
      rw [Desk.faults_setNetwork]
      exact h.tracked (by rw [WidgetSource.key?, hkey]; rfl)
    rw [hfault, Desk.tracker_setNetwork] at htracked
    dsimp only
    rw [on_bind_of_fst htracked]
    exact ⟨_, rfl⟩

/-! ## Asking for a widget

The command looks the widget up by its identifier in the table, and the table has the identifiers
that the network has. -/

/-- The verb has one handler on all platforms. -/
theorem handle_of_widgetsStats (h : inv.command.verb = .widgetsStats) :
    inv.handle = widgetsStats inv := by
  unfold Invocation.handle
  rw [h]
  cases inv.platform <;> rfl

/-- **A command that asks for a widget** looks for it in the table. -/
theorem on_execute_widgetsStats {widget : String} (hverb : inv.command.verb = .widgetsStats)
    (hdata : inv.wantsFields = false) (hwidget : inv.args.text? "widget_id" = some widget)
    {table : WidgetTable} {d' : Desk} (h : (widgetTable inv).on d = (.ok table, d')) :
    inv.execute.on d =
      (if widget ∈ table.rows.filterMap Record.id? then
        .ok ((respond table (table.rows.filter fun r => r.id? == some widget)).shape inv.args)
      else .error (.noSuchWidget widget), d') := by
  have hempty : (table.rows.filter fun r => r.id? == some widget).isEmpty = true ↔
      ¬ widget ∈ table.rows.filterMap Record.id? := by
    simp
  have heq : widgetsStats inv = widgetTable inv >>= fun table =>
      if (table.rows.filter fun r => r.id? == some widget).isEmpty then
        throw (.noSuchWidget widget) >>= fun (_ : PUnit) =>
          pure (respond table (table.rows.filter fun r => r.id? == some widget))
      else pure (respond table (table.rows.filter fun r => r.id? == some widget)) := by
    unfold widgetsStats
    rw [hdata, hwidget]
    rfl
  unfold Invocation.execute
  rw [handle_of_widgetsStats hverb, heq]
  -- The rows of the widget are the answer; without any the command fails by its name.
  by_cases hmem : widget ∈ table.rows.filterMap Record.id?
  · rw [if_pos hmem, on_bind_ok ((on_bind_ok h _).trans _)]
    · rfl
    · rw [if_neg fun hnone => hempty.1 hnone hmem]
      rfl
  · rw [if_neg hmem, on_bind_error ((on_bind_ok h _).trans _)]
    rw [if_pos (hempty.2 hmem)]
    rfl

/-- Rows that all have an identifier, by their identifiers. -/
theorem map_id?_eq {rows : List Record} (h : ∀ row ∈ rows, ∃ id, row.id? = some id) :
    rows.map Record.id? = (rows.filterMap Record.id?).map some := by
  induction rows with
  | nil => rfl
  | cons row rows ih =>
    obtain ⟨⟨id, hid⟩, hrows⟩ := List.forall_mem_cons.1 h
    rw [List.map_cons, List.filterMap_cons_some hid, List.map_cons, ih hrows, hid]

/-- Each row of the table has an identifier. -/
theorem WidgetRow.exists_id {own tracked : List Record} {row : Record}
    (h : WidgetRow own tracked row) : ∃ id, row.id? = some id := by
  cases h with
  | unchanged _ hid => exact ⟨_, hid⟩
  | combined _ hid _ _ _ hrow =>
    rw [isCombined_iff.1 hrow]
    exact ⟨_, text?_combine_key hid _⟩

/-- Merged or not, the table has the identifiers that the network has. -/
theorem perm_tableOf (s : WidgetSource inv d) :
    ((tableOf s).rows.filterMap Record.id?).Perm (s.rows.filterMap Record.id?) := by
  unfold tableOf
  cases s.key? with
  | none => exact .refl _
  | some key => exact perm_mergeWidgets _ _

/-- **The table of a widget verb holds the network's widgets.** Where the calls for it get through:

* The table of a linked campaign has the identifiers of the network's rows, each as often as it
  stands there, and each of its rows is one of these rows, as it is if the tracker has nothing of the
  widget, and else combined with the first row that the tracker has of it.
* The table of a campaign without a link, where joins are lenient, is the network's rows as they are,
  with one issue.
* A command that asks for a widget fails for the want of it exactly if the network has no row with
  its identifier, where joins are lenient. -/
theorem table_of_network {inv : Invocation} {d : Desk} (s : WidgetSource inv d) (h : Answered s) :
    (∀ key, s.key? = some key → ∃ table d', (widgetTable inv).on d = (.ok table, d') ∧
      (table.rows.map Record.id?).Perm ((s.rows.filterMap Record.id?).map some) ∧
      ∀ row ∈ table.rows, WidgetRow s.rows (d.tracker.widgetStats key inv.platform) row) ∧
    (s.key? = none → inv.joinMode = .lenient → ∃ d', (widgetTable inv).on d =
      (.ok ⟨s.id, s.rows, [.unjoinable inv.platform s.id (s.campaign.name?.getD "")]⟩, d')) ∧
    ∀ widget, inv.joinMode = .lenient → inv.command.verb = .widgetsStats →
      inv.wantsFields = false → inv.args.text? "widget_id" = some widget →
        ((∃ id d', inv.execute.on d = (.error (.noSuchWidget id), d')) ↔
          ∀ r ∈ s.rows, r.id? ≠ some widget) := by
  refine ⟨fun key hkey => ?_, fun hkey hmode => ?_, fun widget hmode hverb hdata hwidget => ?_⟩
  · obtain ⟨d', hon⟩ := on_widgetTable h fun hnone => absurd (hkey.symm.trans hnone) (by simp)
    have htable : (tableOf s).rows =
        mergeWidgets s.rows (d.tracker.widgetStats key inv.platform) := by
      unfold tableOf
      rw [hkey]
    have hrows : ∀ row ∈ (tableOf s).rows,
        WidgetRow s.rows (d.tracker.widgetStats key inv.platform) row := fun row hrow =>
      widgetRow_of_mem _ _ (htable ▸ hrow)
    refine ⟨_, d', hon, ?_, hrows⟩
    rw [map_id?_eq fun row hrow => (hrows row hrow).exists_id]
    exact (perm_tableOf s).map some
  · obtain ⟨d', hon⟩ := on_widgetTable h fun _ => hmode
    unfold tableOf at hon
    rw [hkey] at hon
    exact ⟨d', hon⟩
  · obtain ⟨d', hon⟩ := on_widgetTable h fun _ => hmode
    rw [on_execute_widgetsStats hverb hdata hwidget hon]
    by_cases hmem : widget ∈ (tableOf s).rows.filterMap Record.id?
    · rw [if_pos hmem]
      obtain ⟨r, hr, hid⟩ := List.mem_filterMap.1 ((perm_tableOf s).mem_iff.1 hmem)
      exact iff_of_false (by simp) fun hnone => hnone r hr hid
    · rw [if_neg hmem]
      exact iff_of_true ⟨widget, d', rfl⟩ fun r hr hid =>
        hmem ((perm_tableOf s).mem_iff.2 (List.mem_filterMap.2 ⟨r, hr, hid⟩))

/-! A linked campaign that has one widget twice and a row without an identifier, and a tracker that
knows of another widget: that one cannot be asked for. -/

namespace Foreign

def campaign : Record := NameMap.ofList [("id", .int 1), ("name", .string "7 Spring")]

def widget : Record := NameMap.ofList [("id", .int 501), ("clicks", .int 5)]

def nameless : Record := NameMap.ofList [("clicks", .int 2)]

def network : Network where
  data :=
    { campaigns := [campaign]
      widgetStats := NameMap.ofList [("1", [widget, nameless, widget])] }

def desk : Desk where
  mgid := some network
  tracker := { data := { widgetStats := NameMap.ofList [("7",
    [NameMap.ofList [("id", .string "501"), ("clicks", .int 4)],
      NameMap.ofList [("id", .int 502), ("clicks", .int 9)]])] } }

def invocation : Invocation where
  command := (Command.parse {} "/mgid widgets-stats 1 502").toOption.get (by decide +kernel)
  settings := {}
  today := ⟨15747, by decide⟩

def source : WidgetSource invocation desk where
  network := network
  id := "1"
  campaign := campaign
  rows := [widget, nameless, widget].map (network.withStatus "1")
  network_eq := rfl
  id_eq := by decide +kernel
  campaign_eq := rfl
  rows_eq := rfl

end Foreign

/-- The table has the network's widget twice, and the tracker's other widget does not exist for it.
-/
theorem table_of_network_foreign :
    Foreign.source.key? = some "7" ∧
      (∃ table d', (widgetTable Foreign.invocation).on Foreign.desk = (.ok table, d') ∧
        (table.rows.map Record.id?).Perm [some "501", some "501"]) ∧
      ∃ id d', Foreign.invocation.execute.on Foreign.desk = (.error (.noSuchWidget id), d') := by
  have hcommand : Foreign.invocation.args.text? "date_range" = none ∧
      Foreign.invocation.joinMode = .lenient ∧ Foreign.invocation.command.verb = .widgetsStats ∧
      Foreign.invocation.wantsFields = false ∧
      Foreign.invocation.args.text? "widget_id" = some "502" := by
    decide +kernel
  obtain ⟨hdays, hmode, hverb, hdata, hwidget⟩ := hcommand
  have hanswered : Answered Foreign.source := ⟨rfl, rfl, fun _ => rfl, exists_window hdays⟩
  obtain ⟨hlinked, -, hasked⟩ := table_of_network Foreign.source hanswered
  have hkey : Foreign.source.key? = some "7" := by decide +kernel
  have hids : (Foreign.source.rows.filterMap Record.id?).map some = [some "501", some "501"] := by
    decide +kernel
  obtain ⟨table, d', hon, hperm, -⟩ := hlinked "7" hkey
  rw [hids] at hperm
  refine ⟨hkey, ⟨table, d', hon, hperm⟩,
    (hasked "502" hmode hverb hdata hwidget).2 fun r hr hid => ?_⟩
  have hmem : some "502" ∈ (Foreign.source.rows.filterMap Record.id?).map some :=
    List.mem_map_of_mem (List.mem_filterMap.2 ⟨r, hr, hid⟩)
  rw [hids] at hmem
  exact absurd hmem (by decide)

end Handler

end AdOps
