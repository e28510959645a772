import AdOps.Proofs.Handler.Selection

/-!
# What a kill verb adds to the paused widgets

A kill verb adds to the paused widgets, and what it adds, up to what is paused already, is what it
would pause on the fresh desk (`Adds`). So it does not matter what was paused before it.

* **`mem_paused_pauseWidgets`** — what is paused after a call that pauses, whether it succeeds or not.
* **`kills_of_same`** — what is killed on one desk is paused or killed on any desk with the same data.
* **`adds_handle`** — a command of a kill verb adds to the paused widgets.
-/

namespace AdOps

namespace Action

variable {α β : Type}

/-- The action leaves the data and the faults alone, and what it pauses is, up to what is paused
already, what it pauses on the fresh desk. -/
structure Adds (x : Action α) : Prop where
  fresh : ∀ d, (x.on d).2.fresh = d.fresh
  paused : ∀ d p campaign id, id ∈ (x.on d).2.paused p campaign ↔
    id ∈ d.paused p campaign ∨ id ∈ (x.on d.fresh).2.paused p campaign

/-- What only reads adds nothing. -/
theorem Reads.adds {x : Action α} (hx : Reads x) : Adds x where
  fresh := hx.fresh_eq
  paused d p campaign id := by
    have hfresh : (x.on d.fresh).2.paused = d.fresh.paused := Desk.paused_congr (hx.lasting d.fresh)
    rw [Desk.paused_congr (hx.lasting d), hfresh, Desk.paused_fresh]
    exact ⟨.inl, fun hor => hor.resolve_right (NameSet.not_mem_empty id)⟩

/-- To work on a result leaves the desk as it is. -/
theorem on_bind_pure_snd (x : Action α) (g : α → β) (d : Desk) :
    ((x >>= fun a => pure (g a)).on d).2 = (x.on d).2 := by
  rw [on_bind]
  rcases x.on d with ⟨r, d'⟩
  cases r <;> rfl

/-- To work on the result of what adds still adds. -/
theorem Adds.bind_pure {x : Action α} (hx : Adds x) (g : α → β) :
    Adds (x >>= fun a => pure (g a)) where
  fresh d := by
    rw [on_bind_pure_snd]
    exact hx.fresh d
  paused d p campaign id := by
    rw [on_bind_pure_snd, on_bind_pure_snd]
    exact hx.paused d p campaign id

end Action

namespace Handler

open AdOps.Action

/-! ## Pausing

Whether a call that pauses gets through is a matter of the faults and of the data, and these are the
same on the fresh desk. So it gets through on both desks or on neither, and then it adds the same
identifiers. -/

/-- Whether a call that pauses widgets of the campaign gets through and succeeds. -/
def canPause (d : Desk) (p : Platform) (campaign : String) : Prop :=
  ∃ n, d.reach p .pauseWidgets = .ok n ∧ n.data.widgetStats.contains campaign = true

/-- A call that can pause on one desk can do so on any desk with the same data and faults. -/
theorem canPause_of_same {d d' : Desk} (h : d.fresh = d'.fresh) {p : Platform} {campaign : String}
    (hd : canPause d p campaign) : canPause d' p campaign := by
  obtain ⟨n, hn, hrows⟩ := hd
  have hreach := Agree.map_iff.1 (Desk.reach_same h p .pauseWidgets)
  rw [hn] at hreach
  generalize hr : d'.reach p .pauseWidgets = r' at hreach
  cases hreach with
  | @ok _ n' heq => exact ⟨n', hr, Network.data_of_fresh_eq heq ▸ hrows⟩

/-- A call that pauses widgets succeeds exactly if it can. -/
theorem isOk_pauseWidgets_iff {p : Platform} {campaign : String} {ids : List String} {d : Desk} :
    (∃ d', (pauseWidgets p campaign ids).on d = (.ok (), d')) ↔ canPause d p campaign := by
  rw [on_pauseWidgets]
  -- The call has to be let through, and the network has to know the campaign.
  constructor
  · rintro ⟨d', hcall⟩
    obtain ⟨n, hn, hr, -⟩ := Desk.through_eq_ok hcall
    refine ⟨n, hn, ?_⟩
    unfold Network.Step.pauseWidgets Network.pause? at hr
    split at hr
    · next hp => exact (Option.ite_none_right_eq_some.1 hp).1
    · exact absurd hr (by simp)
  · rintro ⟨n, hn, hrows⟩
    unfold Desk.through
    rw [hn]
    dsimp only [Network.Step.pauseWidgets, Network.pause?]
    rw [if_pos hrows]
    exact ⟨_, rfl⟩

/-- What is paused after a call that pauses widgets, whether it succeeds or not. -/
theorem mem_paused_pauseWidgets {p : Platform} {campaign : String} {ids : List String} {d : Desk}
    {q : Platform} {c id : String} :
    id ∈ ((pauseWidgets p campaign ids).on d).2.paused q c ↔
      id ∈ d.paused q c ∨ canPause d p campaign ∧ q = p ∧ c = campaign ∧ id ∈ ids := by
  rcases hon : (pauseWidgets p campaign ids).on d with ⟨r, d'⟩
  cases r with
  | ok u =>
    have hcan : canPause d p campaign := isOk_pauseWidgets_iff.1 ⟨d', hon⟩
    show id ∈ d'.paused q c ↔ _
    rw [paused_pauseWidgets hon]
    unfold Desk.pausedWith
    by_cases hqc : q = p ∧ c = campaign
    · obtain ⟨rfl, rfl⟩ := hqc
      rw [if_pos ⟨rfl, rfl⟩, NameSet.mem_insertAll, or_comm]
      simp [hcan]
    · rw [if_neg hqc]
      constructor
      · exact .inl
      · rintro (hold | ⟨-, hq, hc, -⟩)
        · exact hold
        · exact absurd ⟨hq, hc⟩ hqc
  | error e =>
    -- The call failed, so it cannot succeed, and nothing changed.
    have hcan : ¬ canPause d p campaign := by
      intro hcan
      obtain ⟨d₁, hok⟩ := isOk_pauseWidgets_iff.2 hcan
      exact absurd (Prod.mk.inj (hon.symm.trans hok)).1 (by simp)
    show id ∈ d'.paused q c ↔ _
    rw [Desk.paused_congr (atomic_pauseWidgets p campaign ids d e d' hon)]
    simp [hcan]

/-- What is paused after the rows were sent, whether that succeeds or not. -/
theorem mem_paused_pause {inv : Invocation} {table : WidgetTable} {targets : List Record}
    {d : Desk} {q : Platform} {c id : String} :
    id ∈ ((pause inv table targets).on d).2.paused q c ↔
      id ∈ d.paused q c ∨
        canPause d inv.platform table.campaign ∧ q = inv.platform ∧ c = table.campaign ∧
          id ∈ targets.filterMap Record.id? := by
  cases hids : (targets.filterMap Record.id?).isEmpty with
  | true =>
    rw [pause_of_isEmpty inv table targets hids, on_pure, List.isEmpty_iff.1 hids]
    simp
  | false =>
    rw [pause_of_not_isEmpty inv table targets hids, on_bind_pure_snd, mem_paused_pauseWidgets]

/-- To pause leaves the data and the faults alone. -/
theorem fresh_pause (inv : Invocation) (table : WidgetTable) (targets : List Record) (d : Desk) :
    ((pause inv table targets).on d).2.fresh = d.fresh := by
  have hcall : ∀ ids, ((pauseWidgets inv.platform table.campaign ids).on d).2.fresh = d.fresh := by
    intro ids
    rw [on_pauseWidgets]
    unfold Desk.through
    cases hn : d.reach inv.platform .pauseWidgets with
    | error e => rfl
    | ok n =>
      refine Desk.fresh_setNetwork (Desk.network?_of_reach hn) ?_
      unfold Network.Step.pauseWidgets Network.pause?
      cases n.data.widgetStats.contains table.campaign <;> rfl
  cases hids : (targets.filterMap Record.id?).isEmpty with
  | true => rw [pause_of_isEmpty inv table targets hids, on_pure]
  | false =>
    rw [pause_of_not_isEmpty inv table targets hids, on_bind_pure_snd, hcall]

/-! ## The kill verbs

What a kill verb pauses is told in two steps: it pauses exactly what it kills, on top of what is
paused; and what it kills on one desk is paused or killed on another with the same data. The second
step is where the tables of the two desks differ, namely in the status of the rows: a row that is
paused on the other desk may not be selected there, but then its widget is paused already. -/

/-- The kill verb finds its threshold and puts its table together, it can pause widgets of the
campaign, and it selects a row of the widget. -/
def Kills (target? : Float → Record → Option Record) (inv : Invocation) (d : Desk) (p : Platform)
    (campaign id : String) : Prop :=
  ∃ threshold table d₁, inv.number "threshold" = .ok threshold ∧
    (widgetTable inv).on d = (.ok table, d₁) ∧ canPause d inv.platform table.campaign ∧
      p = inv.platform ∧ campaign = table.campaign ∧
        id ∈ (table.rows.filterMap (target? threshold)).filterMap Record.id?

section killBy

variable {target? : Float → Record → Option Record} {fields : List String} {inv : Invocation}
  {p : Platform} {campaign id : String}

/-- **What is paused after a kill verb** is what was paused and what it kills. -/
theorem mem_paused_killBy (hdata : inv.wantsFields = false) (d : Desk) :
    id ∈ ((killBy target? fields inv).on d).2.paused p campaign ↔
      id ∈ d.paused p campaign ∨ Kills target? inv d p campaign id := by
  -- Where it fails before the call, it kills nothing.
  have hnone : ¬ Kills target? inv d p campaign id →
      (id ∈ d.paused p campaign ↔ id ∈ d.paused p campaign ∨ Kills target? inv d p campaign id) :=
    fun h => ⟨.inl, fun hor => hor.resolve_right h⟩
  rw [killBy_of_data hdata, on_bind, on_lift]
  cases hnumber : inv.number "threshold" with
  | error e =>
    refine hnone ?_
    rintro ⟨threshold, _, _, hok, -⟩
    exact absurd (hnumber.symm.trans hok) (by simp)
  | ok threshold =>
    show id ∈ ((widgetTable inv >>= _).on d).2.paused p campaign ↔ _
    rcases htable : (widgetTable inv).on d with ⟨r, d₁⟩
    -- The table was put together without a change to what is paused.
    have hpaused : d₁.paused = d.paused := Desk.paused_congr
      ((reads_widgetTable inv).lasting_eq htable)
    have hfresh : d₁.fresh = d.fresh := Desk.fresh_congr ((reads_widgetTable inv).lasting_eq htable)
    cases r with
    | error e =>
      rw [on_bind_error htable]
      show id ∈ d₁.paused p campaign ↔ _
      rw [hpaused]
      refine hnone ?_
      rintro ⟨_, table, _, -, hok, -⟩
      exact absurd (Prod.mk.inj (htable.symm.trans hok)).1 (by simp)
    | ok table =>
      rw [on_bind_ok htable, mem_paused_pause, hpaused]
      refine or_congr_right ⟨?_, ?_⟩
      · rintro ⟨hcan, hplace⟩
        exact ⟨threshold, table, d₁, hnumber, htable, canPause_of_same hfresh hcan, hplace⟩
      · rintro ⟨threshold', table', d', hnumber', htable', hcan, hplace⟩
        obtain rfl : threshold = threshold' := Except.ok.inj (hnumber.symm.trans hnumber')
        obtain rfl : table = table' := Except.ok.inj (Prod.mk.inj (htable.symm.trans htable')).1
        exact ⟨canPause_of_same hfresh.symm hcan, hplace⟩

/-- A kill verb leaves the data of a desk and its faults alone. -/
theorem fresh_killBy (hdata : inv.wantsFields = false) (d : Desk) :
    ((killBy target? fields inv).on d).2.fresh = d.fresh := by
  rw [killBy_of_data hdata, on_bind, on_lift]
  cases inv.number "threshold" with
  | error e => rfl
  | ok threshold =>
    show ((widgetTable inv >>= _).on d).2.fresh = d.fresh
    rcases htable : (widgetTable inv).on d with ⟨r, d₁⟩
    have hfresh : d₁.fresh = d.fresh := Desk.fresh_congr ((reads_widgetTable inv).lasting_eq htable)
    cases r with
    | error e =>
      rw [on_bind_error htable]
      exact hfresh
    | ok table =>
      rw [on_bind_ok htable]
      exact (fresh_pause inv table _ d₁).trans hfresh

/-- **What a kill verb pauses on one desk, it pauses on any desk with the same data**, unless it is
paused there already. -/
theorem kills_of_same (hsel : Selects target?) (hstill : Unswayed target?) {d d' : Desk}
    (h : d.fresh = d'.fresh) (hkills : Kills target? inv d p campaign id) :
    id ∈ d'.paused p campaign ∨ Kills target? inv d' p campaign id := by
  obtain ⟨threshold, table, d₁, hnumber, htable, hcan, rfl, rfl, hid⟩ := hkills
  obtain ⟨t, ht, htid⟩ := List.mem_filterMap.1 hid
  obtain ⟨r, hr, htarget⟩ := List.mem_filterMap.1 ht
  -- The other desk has the same table, and in it the same row but for its status.
  have hagree := matches_widgetTable inv d d' h
  rw [htable] at hagree
  rcases htable' : (widgetTable inv).on d' with ⟨res, d₁'⟩
  rw [htable'] at hagree
  cases hagree with
  | @ok _ table' hsame =>
    have hmem : r.resumed ∈ table'.rows.map Record.resumed := by
      rw [← show table.rows.map _ = table'.rows.map _ from hsame.rows]
      exact List.mem_map_of_mem hr
    obtain ⟨r', hr', heq⟩ := List.mem_map.1 hmem
    have hrid : r'.id? = some id := by
      rw [Record.id?_of_resumed_eq heq, ← (hsel threshold r t htarget).2, htid]
    -- If the row is active there, it is selected too; if not, the widget is paused.
    cases hactive : isActive r' with
    | true =>
      obtain ⟨t', htarget', htid'⟩ := hstill threshold r r' t heq.symm hactive htarget
      refine .inr ⟨threshold, table', d₁', hnumber, htable', ?_, rfl, hsame.campaign, ?_⟩
      · exact hsame.campaign ▸ canPause_of_same h hcan
      · exact List.mem_filterMap.2 ⟨t', List.mem_filterMap.2 ⟨r', hr', htarget'⟩, htid'.trans htid⟩
    | false =>
      obtain ⟨s, hmakes⟩ := widgetTable_eq_ok htable'
      rw [hsame.campaign, hmakes.1]
      exact .inl (mem_paused_of_not_isActive hmakes hr' hactive hrid)

/-- A kill verb that is not asked for fields adds to the paused widgets. -/
theorem adds_killBy (hsel : Selects target?) (hstill : Unswayed target?)
    (hdata : inv.wantsFields = false) : Adds (killBy target? fields inv) where
  fresh := fresh_killBy hdata
  paused d p campaign id := by
    rw [mem_paused_killBy hdata, mem_paused_killBy hdata, Desk.paused_fresh]
    -- Both ways from one desk to the other, the fresh one having nothing paused.
    constructor
    · rintro (hold | hkills)
      · exact .inl hold
      · have hadds := kills_of_same hsel hstill (Desk.fresh_fresh d).symm hkills
        rw [Desk.paused_fresh] at hadds
        exact .inr hadds
    · rintro (hold | hnone | hkills)
      · exact .inl hold
      · exact absurd hnone (NameSet.not_mem_empty id)
      · exact kills_of_same hsel hstill (Desk.fresh_fresh d) hkills

end killBy

/-- **A command of a kill verb adds to the paused widgets.** -/
theorem adds_handle {inv : Invocation} {target? : Float → Record → Option Record}
    (hkill : inv.command.verb.target? = some target?) : Adds inv.handle := by
  obtain ⟨fields, heq⟩ := handle_of_target? hkill
  rw [heq]
  cases hdata : inv.wantsFields with
  | true => exact (reads_killBy_fields target? fields hdata).adds
  | false => exact adds_killBy (selects_of_target? hkill) (unswayed_of_target? hkill) hdata

end Handler
end AdOps
