import AdOps.Proofs.Handler.Reading
import AdOps.Proofs.Reconcile.Keyed

/-!
# The table of a widget verb

A widget verb that gets as far as its table has found the network, the campaign and the campaign's
widget rows (`WidgetSource`), and its table was made of these. Each row of the table stands for a
row of the network: it has the identifier and the status of that row.

* **`widgetTable_eq_ok`** — what a table that was put together is made of.
* **`mem_mergeWidgets`** — a merged row has an identifier, and identifier and status of an own row.
* **`not_mem_paused_of_isActive`** — an active row of the table is not among the paused widgets.
-/

namespace AdOps

/-- What a widget verb finds on a network: the campaign it asks for, and its widget rows. -/
structure WidgetSource (inv : Invocation) (d : Desk) where
  network : Network
  id : String
  campaign : Record
  rows : List Record
  network_eq : d.network? inv.platform = some network
  id_eq : inv.campaign? = some id
  campaign_eq : network.data.campaigns.find? (fun c => c.id? == some id) = some campaign
  rows_eq : network.widgetStats? id = some rows

def WidgetSource.key? {inv : Invocation} {d : Desk} (s : WidgetSource inv d) : Option String :=
  joinKey? (s.campaign.name?.getD "")

/-- The widget rows of the network are what a table is made of: merged with tracker rows where the
campaign is linked, and as they are where it is not. -/
def WidgetSource.Makes {inv : Invocation} {d : Desk} (s : WidgetSource inv d)
    (table : Handler.WidgetTable) : Prop :=
  table.campaign = s.id ∧
    if s.key?.isSome then ∃ tracked, table.rows = Handler.mergeWidgets s.rows tracked
    else table.rows = s.rows

namespace Handler

open AdOps.Action

/-- The campaign that a command is about was named in it. -/
theorem campaign?_of_campaign {inv : Invocation} {id : String} (h : inv.campaign = .ok id) :
    inv.campaign? = some id := by
  unfold Invocation.campaign at h
  cases hc : inv.campaign? with
  | some c =>
    rw [hc] at h
    exact congrArg some (Except.ok.inj h)
  | none =>
    rw [hc] at h
    exact absurd h (by simp)

/-- **A table that was put together is made of what the network has.** -/
theorem widgetTable_eq_ok {inv : Invocation} {d d' : Desk} {table : WidgetTable}
    (h : (widgetTable inv).on d = (.ok table, d')) : ∃ s : WidgetSource inv d, s.Makes table := by
  unfold widgetTable at h
  rw [on_bind_eq_ok] at h
  obtain ⟨_, d₁, h₁, h⟩ := h
  rw [on_bind_eq_ok] at h
  obtain ⟨id, d₂, h₂, h⟩ := h
  obtain ⟨hid, rfl⟩ := on_lift_eq_ok h₂
  rw [on_bind_eq_ok] at h
  obtain ⟨found, d₃, h₃, h⟩ := h
  cases found with
  | none => exact absurd h on_throw_ne_ok
  | some campaign =>
    rw [on_bind_eq_ok] at h
    obtain ⟨w, d₄, h₄, h⟩ := h
    obtain ⟨-, rfl⟩ := on_lift_eq_ok h₄
    rw [on_bind_eq_ok] at h
    obtain ⟨own, d₅, h₅, h⟩ := h
    -- Only windows were noted so far, so what was found is on the network of the first desk.
    obtain ⟨n₁, hn₁, hfound⟩ := find?_of_findCampaign h₃
    obtain ⟨n₃, hn₃, hrows⟩ := widgetStats?_of_widgetStats h₅
    have hd₁ : d₁.lasting = d.lasting := (reads_network _).lasting_eq h₁
    have hd₃ : d₃.lasting = d₁.lasting := (reads_findCampaign _ id).lasting_eq h₃
    obtain ⟨n, hn, hlast₁⟩ := Desk.network?_of_lasting_eq hd₁ hn₁
    obtain ⟨n', hn', hlast₃⟩ := Desk.network?_of_lasting_eq (hd₃.trans hd₁) hn₃
    obtain rfl : n = n' := Option.some.inj (hn.symm.trans hn')
    have hdata : n.data = n₁.data := show n.lasting.data = n₁.lasting.data by rw [hlast₁]
    have hstats : n.widgetStats? id = n₃.widgetStats? id :=
      show n.lasting.widgetStats? id = n₃.lasting.widgetStats? id by rw [hlast₃]
    refine ⟨⟨n, id, campaign, own, hn, campaign?_of_campaign hid, hdata ▸ hfound,
      hstats.trans hrows⟩, ?_⟩
    unfold WidgetSource.Makes WidgetSource.key?
    show table.campaign = id ∧ if (joinKey? (campaign.name?.getD "")).isSome then _ else _
    -- With a link the rows are merged; without one they are taken as they are, if joins are
    -- lenient.
    cases hkey : joinKey? (campaign.name?.getD "") with
    | some key =>
      simp only [hkey] at h
      rw [on_bind_eq_ok] at h
      obtain ⟨tracked, d₆, -, h⟩ := h
      obtain ⟨rfl, -⟩ := on_pure_eq_ok h
      exact ⟨rfl, tracked, rfl⟩
    | none =>
      simp only [hkey] at h
      cases hmode : inv.joinMode with
      | strict =>
        simp only [hmode] at h
        exact absurd h on_throw_ne_ok
      | lenient =>
        simp only [hmode] at h
        obtain ⟨rfl, -⟩ := on_pure_eq_ok h
        exact ⟨rfl, rfl⟩

/-! ## The rows of a table

A row was given its status by the network, from what is paused. A merge keeps the text of a status,
since only numbers are added, and it keeps the key. So the status of a row in the table tells
whether its widget is paused. -/

/-- The row has the identifier of an own row, and its status if that is a string. -/
structure StandsFor (row own : Record) : Prop where
  id_eq : row.id? = own.id?
  status : ∀ s, own.get? "status" = some (.string s) → row.get? "status" = some (.string s)

theorem StandsFor.refl (row : Record) : StandsFor row row := ⟨rfl, fun _ h => h⟩

theorem id?_withStatus (n : Network) (campaign : String) (row : Record) :
    Record.id? (n.withStatus campaign row) = row.id? :=
  Record.text?_insert_of_ne (by decide) row _

/-- A row that the network gives says of a paused widget that it is paused. -/
theorem status_of_mem_paused {n : Network} {campaign id : String} {row : Record}
    (hid : row.id? = some id) (h : id ∈ n.pausedWidgets campaign) :
    (n.withStatus campaign row).get? "status" = some (.string "paused") := by
  have hcontains : (n.pausedWidgets campaign).contains id = true := List.contains_iff_mem.2 h
  unfold Network.withStatus
  rw [NameMap.get?_insert, if_pos rfl, hid]
  simp [hcontains]

/-- A row that says that it is paused is not active. -/
theorem isActive_eq_false {row : Record} (h : row.get? "status" = some (.string "paused")) :
    isActive row = false := by
  have htext : row.text? "status" = some "paused" := by
    unfold Record.text?
    rw [h]
    rfl
  have hsame : Text.sameIgnoringCase "paused" "paused" = true := by decide
  unfold isActive
  rw [htext]
  simp [hsame]

/-- **A merged row is a row of the network, or one combined with a row of the tracker.** -/
theorem mergeWidgets_cases {own tracked : List Record} {row : Record}
    (h : row ∈ mergeWidgets own tracked) :
    row ∈ own ∨ ∃ l ∈ own, ∃ t ∈ tracked, ∃ text, l.id? = some text ∧
      row = Reconcile.combine "id" l (renameClicks t) := by
  obtain ⟨hmem, hown⟩ := List.mem_filter.1 h
  rcases Reconcile.mem_mergeOn_outer hmem with
    ⟨l, hl, r, hr, text, htext, rfl⟩ | ⟨hleft, -⟩ | ⟨text, htext, hnone⟩
  · obtain ⟨t, ht, rfl⟩ := List.mem_map.1 hr
    exact .inr ⟨l, hl, t, ht, text, htext, rfl⟩
  · exact .inl hleft
  · -- A row that only the tracker has cannot have an identifier of the network's.
    obtain ⟨id, hid, hcontains⟩ := (Option.any_eq_true _ _).1 hown
    obtain ⟨l, hl, hlid⟩ := List.mem_filterMap.1 (List.contains_iff_mem.1 hcontains)
    have heq : text = id := Option.some.inj (htext.symm.trans hid)
    exact absurd (show l.text? "id" = some text by rw [heq]; exact hlid) (hnone l hl)

/-- **A merged row has an identifier, and stands for a row of the network.** -/
theorem mem_mergeWidgets {own tracked : List Record} {row : Record}
    (h : row ∈ mergeWidgets own tracked) :
    row.id?.isSome ∧ ∃ l ∈ own, StandsFor row l := by
  obtain ⟨id, hid, -⟩ := (Option.any_eq_true _ _).1 (List.mem_filter.1 h).2
  refine ⟨by rw [hid]; rfl, ?_⟩
  rcases mergeWidgets_cases h with hown | ⟨l, hl, t, -, text, htext, rfl⟩
  · exact ⟨row, hown, .refl row⟩
  · refine ⟨l, hl, ?_, fun s hs => Reconcile.get?_combine_string hs _⟩
    show Record.text? _ "id" = l.text? "id"
    rw [Reconcile.text?_combine_key htext]
    exact htext.symm

/-- **Every row of a table stands for a row of the network.** -/
theorem exists_standsFor {inv : Invocation} {d : Desk} {s : WidgetSource inv d}
    {table : WidgetTable} (h : s.Makes table) {row : Record} (hrow : row ∈ table.rows) :
    ∃ l ∈ s.rows, StandsFor row l := by
  obtain ⟨-, hrows⟩ := h
  split at hrows
  · obtain ⟨tracked, heq⟩ := hrows
    rw [heq] at hrow
    exact (mem_mergeWidgets hrow).2
  · rw [hrows] at hrow
    exact ⟨row, hrow, .refl row⟩

/-- **An active row of a table is not the row of a paused widget.** -/
theorem not_mem_paused_of_isActive {inv : Invocation} {d : Desk} {s : WidgetSource inv d}
    {table : WidgetTable} (h : s.Makes table) {row : Record} (hrow : row ∈ table.rows)
    (hactive : isActive row = true) {id : String} (hid : row.id? = some id) :
    id ∉ d.paused inv.platform s.id := by
  intro hpaused
  obtain ⟨l, hl, hstands⟩ := exists_standsFor h hrow
  obtain ⟨rows, -, hown⟩ := Option.map_eq_some_iff.1 s.rows_eq
  rw [← hown] at hl
  obtain ⟨r, -, rfl⟩ := List.mem_map.1 hl
  -- The row of the network has the identifier, so for a paused widget it says so.
  have hrid : r.id? = some id := by rw [← id?_withStatus, ← hstands.id_eq, hid]
  rw [Desk.paused_eq s.network_eq] at hpaused
  have hstatus := hstands.status "paused" (status_of_mem_paused hrid hpaused)
  rw [isActive_eq_false hstatus] at hactive
  exact absurd hactive (by simp)

end Handler
end AdOps
