import AdOps.Proofs.Handler.Killing
import AdOps.Proofs.Service.Fresh

/-!
# What a kill verb selects by

A kill verb looks at which widgets are paused, and that may depend on earlier kills. But all it makes
of it is to leave out the rows of widgets that are paused already. Whatever else it selects by is the
same in a row whether the row shows its widget active or paused.

* **`resumed_mergeOn`** — a merge shows the status of its left rows in the status of its rows only.
* **`matches_widgetTable`** — desks with the same data have one table, up to the status of its rows.
* **`Unswayed`** — an active row is selected or not, whatever its status was elsewhere.
* **`mem_paused_of_not_isActive`** — a row that is not active is the row of a paused widget.
-/

namespace AdOps

namespace Record

variable {r r' : Record}

theorem id?_of_resumed_eq (h : r.resumed = r'.resumed) : r.id? = r'.id? :=
  text?_congr (get?_of_resumed_eq h (by decide))

theorem id?_resumed (r : Record) : r.resumed.id? = r.id? :=
  id?_of_resumed_eq (resumed_resumed r)

/-- Their numbers agree. -/
theorem number?_of_resumed_eq (h : r.resumed = r'.resumed) {field : String}
    (hfield : field ≠ "status") : r.number? field = r'.number? field := by
  unfold number?
  rw [get?_of_resumed_eq h hfield]

/-- Their costs agree. -/
theorem cost?_of_resumed_eq (h : r.resumed = r'.resumed) : r.cost? = r'.cost? := by
  have hcost : r.number? "cost" = r'.number? "cost" := number?_of_resumed_eq h (by decide)
  have hspent : r.number? "spent" = r'.number? "spent" := number?_of_resumed_eq h (by decide)
  simp only [cost?, firstNumber?, costFields, List.findSome?, hcost, hspent]

end Record

/-! ## Merging

On two desks with the same data the rows of the network differ in their status at most. A merge
looks at the key only to find what belongs together, and copies the status where it was. So to
resume the rows before the merge or after it comes to the same, which carries the difference
through. -/

namespace Reconcile

variable (right : List Record)

/-- A combined row has the status of its left row, and is the same else. -/
theorem resumed_combine (l r : Record) :
    (combine "id" l.resumed r).resumed = (combine "id" l r).resumed :=
  Record.resumed_congr fun field hfield => by
    rw [get?_combine, get?_combine, Record.get?_resumed, if_neg hfield]

/-- A row that is resumed first is matched with the same row. -/
theorem resumed_matched? (l : Record) :
    (matched? "id" right l.resumed).map Record.resumed =
      (matched? "id" right l).map Record.resumed := by
  have hid : l.resumed.text? "id" = l.text? "id" := Record.id?_resumed l
  unfold matched?
  rw [hid]
  cases l.text? "id" with
  | none => rfl
  | some k =>
    show ((withKey? right "id" k).map _).map _ = ((withKey? right "id" k).map _).map _
    cases withKey? right "id" k with
    | none => rfl
    | some r => exact congrArg some (resumed_combine l r)

/-- It is alone if it was alone before. -/
theorem isAlone_resumed (l : Record) : isAlone "id" right l.resumed = isAlone "id" right l := by
  have hid : l.resumed.text? "id" = l.text? "id" := Record.id?_resumed l
  unfold isAlone
  rw [hid]

/-- A row on the right is alone if it was alone before. -/
theorem isAlone_map_resumed (left : List Record) (r : Record) :
    isAlone "id" (left.map Record.resumed) r = isAlone "id" left r := by
  have hfind : ∀ k, (withKey? (left.map Record.resumed) "id" k).isNone =
      (withKey? left "id" k).isNone := by
    intro k
    have hsame : ((fun row : Record => row.text? "id" == some k) ∘ Record.resumed) =
        fun row => row.text? "id" == some k :=
      funext fun row => congrArg (· == some k) (Record.id?_resumed row)
    unfold withKey?
    rw [List.find?_map, hsame, Option.isNone_map]
  unfold isAlone
  simp only [hfind]

/-- **A merge shows the status of its left rows in the status of its rows only.** -/
theorem resumed_mergeOn (left : List Record) :
    (mergeOn "id" .outer (left.map Record.resumed) right).map Record.resumed =
      (mergeOn "id" .outer left right).map Record.resumed := by
  -- The three parts of a merge: what is matched, what is alone on the left, and what is alone on
  -- the right.
  have hcommon : ((left.map Record.resumed).filterMap (matched? "id" right)).map Record.resumed =
      (left.filterMap (matched? "id" right)).map Record.resumed := by
    rw [List.filterMap_map, List.map_filterMap, List.map_filterMap]
    exact congrArg (List.filterMap · left) (funext fun l => resumed_matched? right l)
  have hleft : ((left.map Record.resumed).filter (isAlone "id" right)).map Record.resumed =
      (left.filter (isAlone "id" right)).map Record.resumed := by
    have hsame : isAlone "id" right ∘ Record.resumed = isAlone "id" right :=
      funext fun l => isAlone_resumed right l
    rw [List.filter_map, hsame, List.map_map]
    exact List.map_congr_left fun l _ => Record.resumed_resumed l
  have hright : right.filter (isAlone "id" (left.map Record.resumed)) =
      right.filter (isAlone "id" left) :=
    congrArg (List.filter · right) (funext fun r => isAlone_map_resumed left r)
  unfold mergeOn
  simp only [List.map_append, hcommon, hleft, hright]

end Reconcile

namespace Handler

open AdOps.Action

/-- **So does the table of a widget verb.** -/
theorem resumed_mergeWidgets (own tracked : List Record) :
    (mergeWidgets (own.map Record.resumed) tracked).map Record.resumed =
      (mergeWidgets own tracked).map Record.resumed := by
  have hids : (own.map Record.resumed).filterMap Record.id? = own.filterMap Record.id? := by
    rw [List.filterMap_map]
    exact congrArg (List.filterMap · own) (funext Record.id?_resumed)
  -- Rows are kept by their identifier, so it does not matter whether they are resumed first.
  have hkeep : ∀ (ids : List String) (rows : List Record),
      (rows.filter fun row => row.id?.any ids.contains).map Record.resumed =
        (rows.map Record.resumed).filter fun row => row.id?.any ids.contains := by
    intro ids rows
    have hsame : ((fun row : Record => row.id?.any ids.contains) ∘ Record.resumed) =
        fun row => row.id?.any ids.contains :=
      funext fun row => congrArg (Option.any ids.contains) (Record.id?_resumed row)
    rw [List.filter_map, hsame]
  unfold mergeWidgets
  dsimp only
  rw [hids, hkeep, hkeep, Reconcile.resumed_mergeOn]

/-- Merged rows are the same but for their status if the rows of the network are. -/
theorem sameButStatus_mergeWidgets {own own' : List Record} (h : SameButStatus own own')
    (tracked : List Record) :
    SameButStatus (mergeWidgets own tracked) (mergeWidgets own' tracked) := by
  unfold SameButStatus at *
  rw [← resumed_mergeWidgets own, h, resumed_mergeWidgets own']

/-- The tables are of one campaign, and their rows are the same but for their status. -/
structure SameTable (t t' : WidgetTable) : Prop where
  campaign : t.campaign = t'.campaign
  rows : SameButStatus t.rows t'.rows

/-- **On desks with the same data a widget verb finds the same table**, up to the status of its
rows. -/
theorem matches_widgetTable (inv : Invocation) :
    Matches SameTable (widgetTable inv) (widgetTable inv) := by
  unfold widgetTable
  refine .bind_same (reads_network _) (matches_network _) fun _ => ?_
  refine .bind_same (.lift _) (.lift _) fun id => ?_
  refine .bind_same (reads_findCampaign _ id) (matches_findCampaign _ id) fun found => ?_
  cases found with
  | none => exact .throw _
  | some campaign =>
    refine .bind_same (.lift _) (.lift _) fun w => ?_
    refine .bind (reads_widgetStats _ id w) (reads_widgetStats _ id w)
      (matches_widgetStats _ id w) fun own own' hown => ?_
    dsimp only
    -- With a link the tracker gives the same rows, and the merge hands the difference on; without
    -- one the rows are as they were.
    cases joinKey? (campaign.name?.getD "") with
    | some key =>
      exact .bind_same (TrackerAction.reads_widgetStats key _ w)
        (TrackerAction.matches_widgetStats key _ w) fun tracked =>
          .pure ⟨rfl, sameButStatus_mergeWidgets hown tracked⟩
    | none =>
      cases inv.joinMode with
      | strict => exact .throw _
      | lenient => exact .pure ⟨rfl, hown⟩

/-! ## Selecting

Both verbs look at the status first and then at numbers. So of two rows that are the same but for
their status, the active one is selected if the other one is. -/

/-- Whether an active row is selected, and with which identifier, does not depend on the status of
the row. -/
def Unswayed (target? : Float → Record → Option Record) : Prop :=
  ∀ threshold r r' t, r.resumed = r'.resumed → isActive r' = true → target? threshold r = some t →
    ∃ t', target? threshold r' = some t' ∧ t'.id? = t.id?

/-- The verb for the long tail looks at the cost besides. -/
theorem unswayed_longtailTarget? : Unswayed longtailTarget? := by
  intro threshold r r' t h hactive ht
  unfold longtailTarget? at ht ⊢
  split at ht
  · next hsel =>
    obtain rfl := Option.some.inj ht
    have hcost := (Bool.and_eq_true_iff.1 hsel).2
    rw [Record.cost?_of_resumed_eq h] at hcost
    refine ⟨r', ?_, (Record.id?_of_resumed_eq h).symm⟩
    rw [if_pos (Bool.and_eq_true_iff.2 ⟨hactive, hcost⟩)]
  · exact absurd ht (by simp)

/-- The share of bots does not depend on the status. -/
theorem botShare?_of_resumed_eq {r r' : Record} (h : r.resumed = r'.resumed) :
    botShare? r = botShare? r' := by
  unfold botShare?
  rw [Record.number?_of_resumed_eq h (by decide), Record.number?_of_resumed_eq h (by decide)]

/-- The verb for bots looks at the share of bots besides. -/
theorem unswayed_botTarget? : Unswayed botTarget? := by
  intro threshold r r' t h hactive ht
  unfold botTarget? at ht ⊢
  rw [if_pos hactive, ← botShare?_of_resumed_eq h]
  split at ht
  · split at ht
    · next share hshare =>
      split at ht
      · next hle =>
        obtain rfl := Option.some.inj ht
        refine ⟨_, if_pos hle, ?_⟩
        show Record.text? _ "id" = Record.text? _ "id"
        rw [Record.text?_insert_of_ne (by decide), Record.text?_insert_of_ne (by decide)]
        exact (Record.id?_of_resumed_eq h).symm
      · exact absurd ht (by simp)
    · exact absurd ht (by simp)
  · exact absurd ht (by simp)

/-- Whatever a verb selects by, it is not swayed by the status elsewhere. -/
theorem unswayed_of_target? {v : Verb} {target? : Float → Record → Option Record}
    (h : v.target? = some target?) : Unswayed target? := by
  cases v with
  | widgetsKillLongtail => exact Option.some.inj h ▸ unswayed_longtailTarget?
  | widgetsKillBot => exact Option.some.inj h ▸ unswayed_botTarget?
  | _ => exact absurd h (by simp [Verb.target?])

/-- **A row of a table that is not active is the row of a paused widget.** -/
theorem mem_paused_of_not_isActive {inv : Invocation} {d : Desk} {s : WidgetSource inv d}
    {table : WidgetTable} (h : s.Makes table) {row : Record} (hrow : row ∈ table.rows)
    (hactive : isActive row = false) {id : String} (hid : row.id? = some id) :
    id ∈ d.paused inv.platform s.id := by
  obtain ⟨l, hl, hstands⟩ := exists_standsFor h hrow
  obtain ⟨rows, -, hown⟩ := Option.map_eq_some_iff.1 s.rows_eq
  rw [← hown] at hl
  obtain ⟨r, -, rfl⟩ := List.mem_map.1 hl
  have hrid : r.id? = some id := by rw [← id?_withStatus, ← hstands.id_eq, hid]
  rw [Desk.paused_eq s.network_eq]
  cases hpaused : (s.network.pausedWidgets s.id).contains id with
  | true => exact List.contains_iff_mem.1 hpaused
  | false =>
    -- The row of a widget that is not paused shows so.
    have hstatus : (s.network.withStatus s.id r).get? "status" = some (.string "active") := by
      unfold Network.withStatus
      rw [NameMap.get?_insert, if_pos rfl, hrid]
      simp [hpaused]
    have htext : row.text? "status" = some "active" := by
      unfold Record.text?
      rw [hstands.status "active" hstatus]
      rfl
    have hshown : isActive row = true := by
      unfold isActive
      rw [htext]
      decide
    exact absurd (hshown.symm.trans hactive) (by simp)

end Handler
end AdOps
