import AdOps.Proofs.Handler.Table

/-!
# Verbs that pause or resume

The two kill verbs pause the widgets of the rows they select, and one verb resumes all widgets of a
campaign. In each of them the call that changes anything is the last step that can fail, so a
failure leaves the paused widgets as they were, and a success changes those of the campaign asked for
and of no other.

* **`killBy_eq_ok`**, **`widgetsTurnOnAll_eq_ok`** — what a success means.
* **`steady_handle`** — every command has one result on alike desks.
* **`atomic_handle`** — a command that fails leaves what lasts of a desk as it was.
-/

namespace AdOps

/-- To write back what is paused changes nothing. -/
theorem Desk.pausedWith_self (d : Desk) (p : Platform) (campaign : String) :
    d.pausedWith p campaign (d.paused p campaign) = d.paused := by
  funext q c
  unfold pausedWith
  by_cases h : q = p ∧ c = campaign
  · rw [if_pos h, h.1, h.2]
  · rw [if_neg h]

/-- What is paused after a change depends on what was paused before it only. -/
theorem Desk.pausedWith_congr {d₁ d₂ : Desk} (h : d₁.paused = d₂.paused) (p : Platform)
    (campaign : String) (ids : NameSet) :
    d₁.pausedWith p campaign ids = d₂.pausedWith p campaign ids := by
  unfold pausedWith
  rw [h]

namespace Handler

open AdOps.Action

/-! ## Pausing the widgets of rows

The rows that a kill verb selects may lack identifiers. Without any, nothing is sent; otherwise one
call pauses them all, and what follows the call cannot fail. Whatever is shown of `pause` is shown
for these two cases. -/

section pause

variable (inv : Invocation) (table : WidgetTable) (targets : List Record)

/-- Rows without identifiers are answered and nothing is sent. -/
theorem pause_of_isEmpty (h : (targets.filterMap Record.id?).isEmpty = true) :
    pause inv table targets = pure (.records (targets.map pausedRow) table.issues) := by
  unfold pause
  simp [h]

/-- Rows with identifiers are sent in one call before they are answered. -/
theorem pause_of_not_isEmpty (h : (targets.filterMap Record.id?).isEmpty = false) :
    pause inv table targets =
      pauseWidgets inv.platform table.campaign (targets.filterMap Record.id?) >>= fun _ =>
        pure (.records (targets.map pausedRow) table.issues) := by
  unfold pause
  simp [h]

/-- To pause has one result on alike desks. -/
theorem steady_pause : Steady (pause inv table targets) := by
  cases h : (targets.filterMap Record.id?).isEmpty with
  | true =>
    rw [pause_of_isEmpty inv table targets h]
    exact .pure _
  | false =>
    rw [pause_of_not_isEmpty inv table targets h]
    exact (steady_pauseWidgets _ _ _).bind fun _ => .pure _

/-- To pause and fail changes nothing: the call comes last. -/
theorem atomic_pause : Atomic (pause inv table targets) := by
  cases h : (targets.filterMap Record.id?).isEmpty with
  | true =>
    rw [pause_of_isEmpty inv table targets h]
    exact (Reads.pure _).atomic
  | false =>
    rw [pause_of_not_isEmpty inv table targets h]
    exact (atomic_pauseWidgets _ _ _).bind_pure _

variable {inv table targets}

/-- **The rows are the answer, and their identifiers are added to the paused widgets.** -/
theorem pause_eq_ok {d d' : Desk} {o : Outcome}
    (h : (pause inv table targets).on d = (.ok o, d')) :
    o = .records (targets.map pausedRow) table.issues ∧
      d'.paused = d.pausedWith inv.platform table.campaign
        ((d.paused inv.platform table.campaign).insertAll (targets.filterMap Record.id?)) := by
  cases hids : (targets.filterMap Record.id?).isEmpty with
  | true =>
    rw [pause_of_isEmpty inv table targets hids] at h
    obtain ⟨rfl, rfl⟩ := on_pure_eq_ok h
    refine ⟨rfl, ?_⟩
    -- Nothing was sent, and to add nothing changes nothing.
    rw [List.isEmpty_iff.1 hids]
    exact (Desk.pausedWith_self d _ _).symm
  | false =>
    rw [pause_of_not_isEmpty inv table targets hids, on_bind_eq_ok] at h
    obtain ⟨_, d₁, hcall, h⟩ := h
    obtain ⟨rfl, rfl⟩ := on_pure_eq_ok h
    exact ⟨rfl, paused_pauseWidgets hcall⟩

end pause

/-! ## The kill verbs

A kill verb reads a threshold, reads a table and pauses. Only the last of the three changes
anything, so what a whole command does is what this step does, with the table that the steps before
it made. -/

section killBy

variable {target? : Float → Record → Option Record} {fields : List String} {inv : Invocation}

/-- A kill verb that is not asked for fields, step by step. -/
theorem killBy_of_data (hdata : inv.wantsFields = false) :
    killBy target? fields inv =
      liftM (inv.number "threshold") >>= fun threshold =>
        widgetTable inv >>= fun table =>
          pause inv table (table.rows.filterMap (target? threshold)) := by
  unfold killBy
  rw [hdata]
  rfl

/-- A kill verb has one result on alike desks. -/
theorem steady_killBy (hdata : inv.wantsFields = false) : Steady (killBy target? fields inv) := by
  rw [killBy_of_data hdata]
  exact (Steady.lift _).bind fun _ =>
    (reads_widgetTable inv).steady.bind fun table => steady_pause inv table _

/-- A kill verb that fails leaves what lasts as it was. -/
theorem atomic_killBy (hdata : inv.wantsFields = false) : Atomic (killBy target? fields inv) := by
  rw [killBy_of_data hdata]
  exact .bind (.lift _) fun _ => .bind (reads_widgetTable inv) fun table =>
    atomic_pause inv table _

/-- **A kill verb that succeeds** put a table together, selected rows of it by the threshold,
answered with these, and added their identifiers to the paused widgets of the campaign. -/
theorem killBy_eq_ok (hdata : inv.wantsFields = false) {d d' : Desk} {o : Outcome}
    (h : (killBy target? fields inv).on d = (.ok o, d')) :
    ∃ threshold table, ∃ s : WidgetSource inv d,
      inv.number "threshold" = .ok threshold ∧ s.Makes table ∧
        o = .records ((table.rows.filterMap (target? threshold)).map pausedRow) table.issues ∧
          d'.paused = d.pausedWith inv.platform s.id
            ((d.paused inv.platform s.id).insertAll
              ((table.rows.filterMap (target? threshold)).filterMap Record.id?)) := by
  rw [killBy_of_data hdata, on_bind_eq_ok] at h
  obtain ⟨threshold, d₀, hthreshold, h⟩ := h
  obtain ⟨hnumber, rfl⟩ := on_lift_eq_ok hthreshold
  rw [on_bind_eq_ok] at h
  obtain ⟨table, d₁, htable, h⟩ := h
  obtain ⟨s, hmakes⟩ := widgetTable_eq_ok htable
  -- The table was put together without a change to what is paused.
  have hpaused : d₁.paused = d.paused :=
    Desk.paused_congr ((reads_widgetTable inv).lasting_eq htable)
  obtain ⟨ho, hd'⟩ := pause_eq_ok h
  refine ⟨threshold, table, s, hnumber, hmakes, ho, ?_⟩
  rw [hd', Desk.pausedWith_congr hpaused, hpaused, hmakes.1]

end killBy

/-! ## The verb that resumes

It looks the campaign up first, and then one call resumes all of its widgets. -/

section turnOnAll

variable {inv : Invocation}

/-- The verb that resumes, step by step. -/
theorem widgetsTurnOnAll_of_data (hdata : inv.wantsFields = false) :
    widgetsTurnOnAll inv =
      discard (network inv.platform) >>= fun _ =>
        liftM inv.campaign >>= fun id =>
          findCampaign inv.platform id >>= fun found =>
            if found.isNone then throw (.invalidCampaign id)
            else resumeAllWidgets inv.platform id >>= fun count =>
              pure (.text ("Resumed " ++ Number.integerText (Int.ofNat count) ++
                " widgets in campaign " ++ id)) := by
  unfold widgetsTurnOnAll
  rw [hdata]
  rfl

/-- The verb that resumes has one result on alike desks. -/
theorem steady_widgetsTurnOnAll (hdata : inv.wantsFields = false) :
    Steady (widgetsTurnOnAll inv) := by
  rw [widgetsTurnOnAll_of_data hdata]
  refine (reads_network _).steady.bind fun _ => (Steady.lift _).bind fun id =>
    (reads_findCampaign _ id).steady.bind fun found => ?_
  split
  · exact .throw _
  · exact (steady_resumeAllWidgets _ id).bind fun _ => .pure _

/-- The verb that resumes, if it fails, leaves what lasts as it was. -/
theorem atomic_widgetsTurnOnAll (hdata : inv.wantsFields = false) :
    Atomic (widgetsTurnOnAll inv) := by
  rw [widgetsTurnOnAll_of_data hdata]
  refine .bind (reads_network _) fun _ => .bind (.lift _) fun id =>
    .bind (reads_findCampaign _ id) fun found => ?_
  split
  · exact (Reads.throw _).atomic
  · exact (atomic_resumeAllWidgets _ id).bind_pure _

/-- **The verb that resumes, if it succeeds**, empties the paused widgets of the campaign. -/
theorem widgetsTurnOnAll_eq_ok (hdata : inv.wantsFields = false) {d d' : Desk} {o : Outcome}
    (h : (widgetsTurnOnAll inv).on d = (.ok o, d')) :
    ∃ id, inv.campaign? = some id ∧ d'.paused = d.pausedWith inv.platform id NameSet.empty := by
  rw [widgetsTurnOnAll_of_data hdata, on_bind_eq_ok] at h
  obtain ⟨_, d₁, h₁, h⟩ := h
  rw [on_bind_eq_ok] at h
  obtain ⟨id, d₂, h₂, h⟩ := h
  obtain ⟨hid, rfl⟩ := on_lift_eq_ok h₂
  rw [on_bind_eq_ok] at h
  obtain ⟨found, d₃, h₃, h⟩ := h
  -- Everything before the call that resumes only reads.
  have hpaused : d₃.paused = d.paused := Desk.paused_congr
    (((reads_findCampaign _ id).lasting_eq h₃).trans ((reads_network _).lasting_eq h₁))
  refine ⟨id, campaign?_of_campaign hid, ?_⟩
  split at h
  · exact absurd h on_throw_ne_ok
  · rw [on_bind_eq_ok] at h
    obtain ⟨count, d₄, h₄, h⟩ := h
    obtain ⟨-, rfl⟩ := on_pure_eq_ok h
    rw [paused_resumeAllWidgets h₄]
    exact Desk.pausedWith_congr hpaused _ _ _

end turnOnAll

/-! ## All commands

A command acts if it has one of the three verbs and is not asked for fields. All other commands only
read, and for these both properties are those of reading. -/

/-- **Every command has one result on alike desks**, and leaves them alike. -/
theorem steady_handle (inv : Invocation) : Steady inv.handle := by
  by_cases hacts : inv.command.Acts
  · obtain ⟨hverb, hdata⟩ := hacts
    rcases handle_of_acts hverb with ⟨heq, -⟩ | ⟨heq, -⟩ | ⟨heq, -⟩
    · rw [heq]
      exact steady_killBy hdata
    · rw [heq]
      exact steady_killBy hdata
    · rw [heq]
      exact steady_widgetsTurnOnAll hdata
  · exact (reads_handle hacts).steady

/-- **A command that fails leaves what lasts of a desk as it was.** -/
theorem atomic_handle (inv : Invocation) : Atomic inv.handle := by
  by_cases hacts : inv.command.Acts
  · obtain ⟨hverb, hdata⟩ := hacts
    rcases handle_of_acts hverb with ⟨heq, -⟩ | ⟨heq, -⟩ | ⟨heq, -⟩
    · rw [heq]
      exact atomic_killBy hdata
    · rw [heq]
      exact atomic_killBy hdata
    · rw [heq]
      exact atomic_widgetsTurnOnAll hdata
  · exact (reads_handle hacts).atomic

end Handler
end AdOps
