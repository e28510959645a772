import AdOps.Proofs.Handler.Acting
import AdOps.Proofs.Record.Fields

/-!
# What a kill verb reports

A kill verb answers with the rows it selected, each marked as paused, and sends their identifiers to
the network. A row without an identifier is reported all the same, although nothing of it can be
paused. The rows of a campaign that is linked to the tracker all have identifiers, so there the
report is true; of a campaign without a link it is true as long as no row without an identifier is
selected.

* **`newly_paused_iff`** — the newly paused widgets are those that the reported rows identify.
* **`reports_iff`** — when exactly the report of a kill verb is true.
-/

namespace AdOps

/-- What a kill verb selects by its threshold. Other verbs select nothing to pause. -/
def Verb.target? : Verb → Option (Float → Record → Option Record)
  | .widgetsKillLongtail => some Handler.longtailTarget?
  | .widgetsKillBot => some Handler.botTarget?
  | _ => none

/-- A report of paused widgets is true: every row says that its widget was paused, has an identifier,
and identifies a widget that is paused now and was not before; and there are no other such
widgets. -/
structure ReportsPaused (rows : List Record) (before after : NameSet) : Prop where
  marked : ∀ r ∈ rows,
    r.get? "action" = some (.string "paused") ∧ r.get? "status" = some (.string "paused")
  fresh : ∀ r ∈ rows, ∃ id, r.id? = some id ∧ id ∈ after ∧ id ∉ before
  complete : ∀ id, (id ∈ after ∧ id ∉ before) ↔ ∃ r ∈ rows, r.id? = some id

namespace Handler

open AdOps.Action

/-! ## The selected rows

The two verbs select by different thresholds, but alike in what matters to a report: they take rows
of active widgets only, and they add to a row without touching its identifier. Everything below
holds of any selection with these two properties. -/

/-- What is selected are rows of active widgets, and they keep their identifiers. -/
def Selects (target? : Float → Record → Option Record) : Prop :=
  ∀ threshold r r', target? threshold r = some r' → isActive r = true ∧ r'.id? = r.id?

/-- The verb for the long tail selects so. -/
theorem selects_longtailTarget? : Selects longtailTarget? := by
  intro threshold r r' h
  unfold longtailTarget? at h
  split at h
  · next hsel =>
    obtain rfl := Option.some.inj h
    exact ⟨(Bool.and_eq_true_iff.1 hsel).1, rfl⟩
  · exact absurd h (by simp)

/-- The verb for bots selects so; it adds the share of bots to the row. -/
theorem selects_botTarget? : Selects botTarget? := by
  intro threshold r r' h
  unfold botTarget? at h
  split at h
  · next hactive =>
    split at h
    · split at h
      · obtain rfl := Option.some.inj h
        exact ⟨hactive, Record.text?_insert_of_ne (by decide) r _⟩
      · exact absurd h (by simp)
    · exact absurd h (by simp)
  · exact absurd h (by simp)

/-- Whatever a verb selects by, it selects so. -/
theorem selects_of_target? {v : Verb} {target? : Float → Record → Option Record}
    (h : v.target? = some target?) : Selects target? := by
  cases v with
  | widgetsKillLongtail => exact Option.some.inj h ▸ selects_longtailTarget?
  | widgetsKillBot => exact Option.some.inj h ▸ selects_botTarget?
  | _ => exact absurd h (by simp [Verb.target?])

/-- The handler of a verb that selects is `killBy`. -/
theorem handle_of_target? {inv : Invocation} {target? : Float → Record → Option Record}
    (h : inv.command.verb.target? = some target?) : ∃ fields, inv.handle = killBy target? fields inv := by
  have hhandle : inv.handle = handlerOf inv.platform inv.command.verb inv := rfl
  rw [hhandle]
  cases hv : inv.command.verb with
  | widgetsKillLongtail =>
    rw [hv] at h
    obtain rfl := Option.some.inj h
    exact ⟨["action"], by cases inv.platform <;> rfl⟩
  | widgetsKillBot =>
    rw [hv] at h
    obtain rfl := Option.some.inj h
    exact ⟨["action", "bot_traffic"], by cases inv.platform <;> rfl⟩
  | _ =>
    rw [hv] at h
    exact absurd h (by simp [Verb.target?])

/-! ## The reported rows

A selected row is active, so its widget was not paused before. A reported row has the identifier of
the selected one. So the identifiers of the report, those that are sent, and those of the newly
paused widgets are the same; and the one thing that can be missing is the identifier itself. -/

/-- A reported row has the identifier of the selected one. -/
theorem id?_pausedRow (r : Record) : Record.id? (pausedRow r) = r.id? := by
  unfold pausedRow Record.id?
  rw [Record.text?_insert_of_ne (by decide), Record.text?_insert_of_ne (by decide)]
  exact r.id?_withCpa

/-- A reported row is marked as paused. -/
theorem marked_pausedRow (r : Record) :
    (pausedRow r).get? "action" = some (.string "paused") ∧
      (pausedRow r).get? "status" = some (.string "paused") := by
  unfold pausedRow
  constructor
  · rw [NameMap.get?_insert, if_neg (by decide), NameMap.get?_insert, if_pos rfl]
  · rw [NameMap.get?_insert, if_pos rfl]

/-- The identifiers that are sent are those of the reported rows. -/
theorem mem_ids_iff {targets : List Record} {id : String} :
    id ∈ targets.filterMap Record.id? ↔ ∃ r ∈ targets.map pausedRow, r.id? = some id := by
  rw [List.mem_filterMap]
  constructor
  · rintro ⟨r, hr, hid⟩
    exact ⟨pausedRow r, List.mem_map_of_mem hr, by rw [id?_pausedRow, hid]⟩
  · rintro ⟨_, hmem, hid⟩
    obtain ⟨r, hr, rfl⟩ := List.mem_map.1 hmem
    exact ⟨r, hr, by rw [← id?_pausedRow, hid]⟩

section report

variable {inv : Invocation} {d : Desk} {s : WidgetSource inv d} {table : WidgetTable}
  {target? : Float → Record → Option Record}

/-- The widget of a selected row was not paused before. -/
theorem not_mem_paused_of_selected (hmakes : s.Makes table) (hsel : Selects target?)
    {threshold : Float} {r : Record} (hr : r ∈ table.rows.filterMap (target? threshold)) {id : String}
    (hid : r.id? = some id) : id ∉ d.paused inv.platform s.id := by
  obtain ⟨row, hrow, htarget⟩ := List.mem_filterMap.1 hr
  obtain ⟨hactive, hsame⟩ := hsel threshold row r htarget
  exact not_mem_paused_of_isActive hmakes hrow hactive (by rw [← hsame, hid])

/-- **The newly paused widgets are those that the reported rows identify.** -/
theorem newly_paused_iff (hmakes : s.Makes table) (hsel : Selects target?) (threshold : Float)
    (id : String) :
    (id ∈ (d.paused inv.platform s.id).insertAll
          ((table.rows.filterMap (target? threshold)).filterMap Record.id?) ∧
        id ∉ d.paused inv.platform s.id) ↔
      ∃ r ∈ (table.rows.filterMap (target? threshold)).map pausedRow, r.id? = some id := by
  rw [NameSet.mem_insertAll, ← mem_ids_iff]
  -- What is paused afterwards was sent, or it was paused before.
  constructor
  · rintro ⟨hids | hold, hnew⟩
    · exact hids
    · exact absurd hold hnew
  · intro hids
    obtain ⟨r, hr, hid⟩ := List.mem_filterMap.1 hids
    refine ⟨.inl hids, ?_⟩
    exact not_mem_paused_of_selected hmakes hsel hr hid

/-- Every selected row has an identifier exactly if the campaign is linked or no row without one is
selected. -/
theorem forall_selected_isSome_iff (hmakes : s.Makes table) (hsel : Selects target?)
    (threshold : Float) :
    (∀ r ∈ table.rows.filterMap (target? threshold), r.id?.isSome) ↔
      s.key?.isSome ∨ ∀ r ∈ s.rows, r.id? = none → target? threshold r = none := by
  obtain ⟨-, hrows⟩ := hmakes
  by_cases hkey : s.key?.isSome
  · rw [if_pos hkey] at hrows
    -- Merged rows have identifiers, so both sides hold.
    obtain ⟨tracked, heq⟩ := hrows
    refine ⟨fun _ => .inl hkey, fun _ r hr => ?_⟩
    obtain ⟨row, hrow, htarget⟩ := List.mem_filterMap.1 hr
    rw [heq] at hrow
    rw [(hsel threshold row r htarget).2]
    exact (mem_mergeWidgets hrow).1
  · -- The table holds the network's rows as they are.
    rw [if_neg hkey] at hrows
    rw [hrows]
    constructor
    · refine fun hall => .inr fun r hr hnone => ?_
      cases htarget : target? threshold r with
      | none => rfl
      | some r' =>
        have hsome := hall r' (List.mem_filterMap.2 ⟨r, hr, htarget⟩)
        rw [(hsel threshold r r' htarget).2, hnone] at hsome
        exact absurd hsome (by simp)
    · rintro (hlinked | hall) r' hr'
      · exact absurd hlinked hkey
      · obtain ⟨r, hr, htarget⟩ := List.mem_filterMap.1 hr'
        rw [(hsel threshold r r' htarget).2]
        cases hid : r.id? with
        | some id => rfl
        | none =>
          rw [hall r hr hid] at htarget
          exact absurd htarget (by simp)

end report

/-- **When the report of a kill verb is true.** Whatever it reports is marked as paused; what the
reported rows identify is paused now and was not before, and nothing else was paused newly. But that
every reported row identifies a widget at all holds exactly if the campaign's name links it to the
tracker, or no row without an identifier is selected. -/
theorem reports_iff {inv : Invocation} {d d' : Desk} {o : Outcome}
    {target? : Float → Record → Option Record} (hkill : inv.command.verb.target? = some target?)
    (hdata : inv.wantsFields = false) (h : inv.handle.on d = (.ok o, d')) :
    ∃ rows threshold, ∃ s : WidgetSource inv d,
      o.body = .records rows ∧ inv.number "threshold" = .ok threshold ∧
        (∀ r ∈ rows,
          r.get? "action" = some (.string "paused") ∧ r.get? "status" = some (.string "paused")) ∧
        (∀ id, (id ∈ d'.paused inv.platform s.id ∧ id ∉ d.paused inv.platform s.id) ↔
          ∃ r ∈ rows, r.id? = some id) ∧
        (ReportsPaused rows (d.paused inv.platform s.id) (d'.paused inv.platform s.id) ↔
          s.key?.isSome ∨ ∀ r ∈ s.rows, r.id? = none → target? threshold r = none) := by
  have hsel : Selects target? := selects_of_target? hkill
  obtain ⟨fields, heq⟩ := handle_of_target? hkill
  rw [heq] at h
  obtain ⟨threshold, table, s, hnumber, hmakes, rfl, hpaused⟩ := killBy_eq_ok hdata h
  have hafter : d'.paused inv.platform s.id =
      (d.paused inv.platform s.id).insertAll
        ((table.rows.filterMap (target? threshold)).filterMap Record.id?) := by
    rw [hpaused]
    exact if_pos ⟨rfl, rfl⟩
  have hmarked : ∀ r ∈ (table.rows.filterMap (target? threshold)).map pausedRow,
      r.get? "action" = some (.string "paused") ∧ r.get? "status" = some (.string "paused") := by
    intro _ hmem
    obtain ⟨r, -, rfl⟩ := List.mem_map.1 hmem
    exact marked_pausedRow r
  -- Marks and identifiers agree with what was paused in every case.
  have hcomplete := newly_paused_iff hmakes hsel threshold
  rw [← hafter] at hcomplete
  refine ⟨_, threshold, s, rfl, hnumber, hmarked, hcomplete, ?_⟩
  -- What can be wrong with a report is a selected row without an identifier, and nothing else.
  rw [← forall_selected_isSome_iff hmakes hsel threshold]
  constructor
  · intro hreport r hr
    obtain ⟨id, hid, -⟩ := hreport.fresh (pausedRow r) (List.mem_map_of_mem hr)
    rw [← id?_pausedRow, hid]
    rfl
  · intro hall
    refine ⟨hmarked, fun _ hmem => ?_, hcomplete⟩
    obtain ⟨r, hr, rfl⟩ := List.mem_map.1 hmem
    obtain ⟨id, hid⟩ := Option.isSome_iff_exists.1 (hall r hr)
    have hrow : Record.id? (pausedRow r) = some id := by rw [id?_pausedRow, hid]
    exact ⟨id, hrow, (hcomplete id).2 ⟨pausedRow r, hmem, hrow⟩⟩

/-! A campaign whose name has no link, and a widget row without an identifier: the row is reported as
paused, and nothing is paused. -/

namespace Unlinked

def campaign : Record := NameMap.ofList [("id", .int 1), ("name", .string "No Key")]

def widget : Record := NameMap.ofList [("clicks", .int 5), ("spent", .int 1)]

def desk : Desk where
  mgid := some { data :=
    { campaigns := [campaign], widgetStats := NameMap.ofList [("1", [widget])] } }

def invocation : Invocation where
  command := (Command.parse {} "/mgid widgets-kill-longtail 1 5").toOption.get (by decide +kernel)
  settings := {}
  today := ⟨15748, by decide⟩

def oneRowNonePaused : Except Failure Outcome × Desk → Bool
  | (.ok ⟨.records rows, _⟩, d') => rows.length = 1 ∧ d'.paused .mgid "1" = NameSet.empty
  | _ => false

end Unlinked

/-- One row is reported as paused, and the report is not true. -/
theorem reports_iff_unlinked :
    ∃ o d' rows, Unlinked.invocation.handle.on Unlinked.desk = (.ok o, d') ∧
      o.body = .records rows ∧ rows.length = 1 ∧
        (∀ r ∈ rows, r.get? "status" = some (.string "paused")) ∧
          ¬ ReportsPaused rows (Unlinked.desk.paused .mgid "1") (d'.paused .mgid "1") := by
  have hrun : Unlinked.oneRowNonePaused (Unlinked.invocation.handle.on Unlinked.desk) = true := by
    decide +kernel
  have hverb : Unlinked.invocation.command.verb = .widgetsKillLongtail := by decide +kernel
  have hdata : Unlinked.invocation.wantsFields = false := by decide +kernel
  have hkill : Unlinked.invocation.command.verb.target? = some longtailTarget? := by
    rw [hverb]
    rfl
  rcases hon : Unlinked.invocation.handle.on Unlinked.desk with ⟨r, d'⟩
  rw [hon] at hrun
  cases r with
  | error e => exact absurd hrun (by simp [Unlinked.oneRowNonePaused])
  | ok o =>
    obtain ⟨rows, threshold, s, hbody, -, hmarked, -, -⟩ := reports_iff hkill hdata hon
    obtain ⟨body, issues⟩ := o
    obtain rfl : body = .records rows := hbody
    obtain ⟨hlength, hnone⟩ : rows.length = 1 ∧ d'.paused .mgid "1" = NameSet.empty :=
      of_decide_eq_true hrun
    refine ⟨_, d', rows, rfl, rfl, hlength, fun r hr => (hmarked r hr).2, fun hreport => ?_⟩
    obtain ⟨row, hrow⟩ := List.exists_mem_of_length_pos (show 0 < rows.length by omega)
    obtain ⟨id, -, hpaused, -⟩ := hreport.fresh row hrow
    rw [hnone] at hpaused
    exact absurd hpaused (NameSet.not_mem_empty id)

end Handler
end AdOps
