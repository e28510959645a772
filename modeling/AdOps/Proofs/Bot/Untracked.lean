import AdOps.Proofs.Bot.Pausing
import AdOps.Proofs.Handler.Adding
import AdOps.Proofs.Handler.OwnWidgets

/-!
# Killing bots without the tracker

The bot share of a widget is the share of its clicks that the tracker never saw. The name of a
campaign may lack the link to the tracker, and then, where joins are lenient, the tracker is not asked
at all: the answer is flagged and goes on with what the network has. But a row without the tracker's
clicks counts as one of which the tracker saw none, so the bot share of every widget with clicks is a
hundred percent, and a kill by bot share takes them all.

* **`botShare?_of_untracked`** — without the tracker, clicks make a bot share of a hundred percent.
* **`on_killBy_of_unlinked`** — a kill verb on a campaign without a link succeeds with a flag.
* **`newly_paused_of_unlinked`** — what exactly a kill by bot share pauses there.
-/

namespace AdOps

namespace Number

open Float.Model

/-! ## Dividing zero

The share is computed as a difference from a division, and the tracker's clicks count as zero. Zero
over the clicks is zero whatever they are, as long as they are above zero, so the share comes out
exactly. -/

/-- Zero divided by anything positive is zero, even if that is infinite. -/
theorem unpacked_zero_div (spec : Format) {x : UnpackedFloat}
    (h : UnpackedFloat.lt (.zero .positive) x = true) :
    UnpackedFloat.div spec (.zero .positive) x = .zero .positive := by
  cases x with
  | notANumber => exact absurd h (by decide)
  | zero sign => cases sign <;> exact absurd h (by decide)
  -- An infinite divisor gives zero too, and only NaNs and signs are ruled out.
  | infinity sign =>
    cases sign with
    | positive => rfl
    | negative => exact absurd h (by decide)
  | finite sign m e hm =>
    cases sign with
    | positive => rfl
    | negative => exact absurd h Bool.false_ne_true

/-- Zero divided by a positive number is zero, on numbers as they are stored. -/
theorem zero_div_of_pos {x : Float} (h : 0 < x) : 0 / x = 0 := by
  have hunpack : (0 : Float).toModel.unpack = .zero .positive := rfl
  have hlt : UnpackedFloat.lt (0 : Float).toModel.unpack x.toModel.unpack = true :=
    of_decide_eq_true h
  rw [hunpack] at hlt
  calc
    0 / x = .ofModel (pack (.div .binary64 (0 : Float).toModel.unpack x.toModel.unpack)) := rfl
    _ = .ofModel (pack (.zero .positive)) := by rw [hunpack, unpacked_zero_div _ hlt]
    _ = 0 := by decide +kernel

end Number

/-! ## Bot shares

A row is taken for a bot's by its own numbers alone. Without clicks of the tracker the share does
not depend on how many clicks there are, so all rows with clicks are bots below a hundred percent.
-/

namespace Handler

open AdOps.Action

variable {threshold : Float} {r : Record}

/-- The row of an active widget whose bot share reaches the threshold. -/
def IsBotRow (threshold : Float) (r : Record) : Prop :=
  isActive r = true ∧ ∃ share, botShare? r = some share ∧ threshold ≤ share

/-- **Without the tracker, clicks make a bot share of a hundred percent.** -/
theorem botShare?_of_untracked (hnone : r.number? trackerClicks = none) {clicks : Float}
    (hclicks : r.number? "clicks" = some clicks) (hpos : 0 < clicks) : botShare? r = some 100 := by
  unfold botShare?
  rw [hclicks, hnone]
  dsimp only [Option.getD_none]
  -- One minus zero is one, and a hundred percent of it.
  rw [if_pos hpos, Number.zero_div_of_pos hpos]
  decide +kernel

/-- Only what was clicked has a bot share. -/
theorem clicks_pos_of_botShare? {share : Float} (h : botShare? r = some share) :
    ∃ clicks, r.number? "clicks" = some clicks ∧ 0 < clicks := by
  unfold botShare? at h
  split at h
  · next clicks hclicks => exact ⟨clicks, hclicks, (Option.ite_none_right_eq_some.1 h).1⟩
  · exact absurd h (by simp)

/-- Without clicks of the tracker, a row of a bot is an active one with clicks. -/
theorem isBotRow_iff_of_untracked (hnone : r.number? trackerClicks = none) :
    IsBotRow threshold r ↔
      isActive r = true ∧ (∃ clicks, r.number? "clicks" = some clicks ∧ 0 < clicks) ∧
        threshold ≤ 100 := by
  refine and_congr_right fun _ => ?_
  constructor
  · rintro ⟨share, hshare, hle⟩
    obtain ⟨clicks, hclicks, hpos⟩ := clicks_pos_of_botShare? hshare
    have hfull : botShare? r = some 100 := botShare?_of_untracked hnone hclicks hpos
    obtain rfl : 100 = share := Option.some.inj (hfull.symm.trans hshare)
    exact ⟨⟨clicks, hclicks, hpos⟩, hle⟩
  · rintro ⟨⟨clicks, hclicks, hpos⟩, hle⟩
    exact ⟨100, botShare?_of_untracked hnone hclicks hpos, hle⟩

/-- What a kill by bot share selects are the rows of bots. -/
theorem isSome_botTarget?_iff : (botTarget? threshold r).isSome = true ↔ IsBotRow threshold r := by
  unfold botTarget? IsBotRow
  -- The target asks for the same three things in the same order.
  cases isActive r with
  | false => simp
  | true =>
    cases botShare? r with
    | none => simp
    | some share =>
      by_cases hle : threshold ≤ share
      · simp [hle]
      · simp [hle]

/-- The widgets that are selected are those of the rows of bots, by their identifiers. -/
theorem mem_ids_botTarget_iff {rows : List Record} {id : String} :
    id ∈ (rows.filterMap (botTarget? threshold)).filterMap Record.id? ↔
      ∃ r ∈ rows, r.id? = some id ∧ IsBotRow threshold r := by
  simp only [List.mem_filterMap]
  constructor
  · rintro ⟨t, ⟨r, hr, ht⟩, hid⟩
    have hsame := (selects_botTarget? threshold r t ht).2
    exact ⟨r, hr, hsame.symm.trans hid, isSome_botTarget?_iff.1 (by rw [ht]; rfl)⟩
  · rintro ⟨r, hr, hid, hbot⟩
    obtain ⟨t, ht⟩ := Option.isSome_iff_exists.1 (isSome_botTarget?_iff.2 hbot)
    exact ⟨t, ⟨r, hr, ht⟩, (selects_botTarget? threshold r t ht).2.trans hid⟩

/-! ## Kill verbs on a campaign without a link

Where joins are lenient, a campaign without a link is not an error: the rows of the network are
taken as they are, the answer carries an issue, and the selection and the pausing go on. -/

section unlinked

variable {inv : Invocation} {d : Desk}

/-- What a widget verb finds on a network is determined by the desk. -/
theorem source_unique (s s' : WidgetSource inv d) : s = s' := by
  obtain ⟨n, id, campaign, rows, hn, hid, hcampaign, hrows⟩ := s
  obtain ⟨n', id', campaign', rows', hn', hid', hcampaign', hrows'⟩ := s'
  obtain rfl := Option.some.inj (hn.symm.trans hn')
  obtain rfl := Option.some.inj (hid.symm.trans hid')
  obtain rfl := Option.some.inj (hcampaign.symm.trans hcampaign')
  obtain rfl := Option.some.inj (hrows.symm.trans hrows')
  rfl

/-- Without a link the table has the network's own rows. -/
theorem rows_of_unlinked {s : WidgetSource inv d} (hkey : s.key? = none) {table : WidgetTable}
    (hmakes : s.Makes table) : table.rows = s.rows := by
  have hrows := hmakes.2
  rw [hkey, if_neg (by simp)] at hrows
  exact hrows

/-- A number is read exactly if the argument is one. -/
theorem number_eq_ok_iff {name : String} {x : Float} :
    inv.number name = .ok x ↔ inv.args.number? name = some x := by
  unfold Invocation.number
  cases inv.args.number? name <;> simp

/-- The network pauses widgets of a campaign that it shows widgets of. -/
theorem canPause_of_source (s : WidgetSource inv d)
    (hpauses : d.fault? inv.platform .pauseWidgets = none) : canPause d inv.platform s.id := by
  refine ⟨s.network, Desk.reach_of_network? s.network_eq hpauses, ?_⟩
  obtain ⟨rows, hrows, -⟩ := Option.map_eq_some_iff.1 s.rows_eq
  unfold NameMap.contains
  rw [hrows]
  rfl

/-- Pausing succeeds where the network can pause, and answers with the selected rows. -/
theorem exists_on_pause (table : WidgetTable) (targets : List Record)
    (hcan : canPause d inv.platform table.campaign) :
    ∃ d', (pause inv table targets).on d =
      (.ok (.records (targets.map pausedRow) table.issues), d') := by
  cases hids : (targets.filterMap Record.id?).isEmpty with
  -- With nothing to pause no call is made.
  | true =>
    rw [pause_of_isEmpty inv table targets hids]
    exact ⟨d, rfl⟩
  | false =>
    rw [pause_of_not_isEmpty inv table targets hids]
    obtain ⟨d', hcall⟩ := isOk_pauseWidgets_iff.2 hcan
    exact ⟨d', on_bind_ok hcall _⟩

/-- **A kill verb on a campaign without a link succeeds with a flag**, where joins are lenient and its
calls get through. -/
theorem on_killBy_of_unlinked (target? : Float → Record → Option Record) (fields : List String)
    (hdata : inv.wantsFields = false) (hmode : inv.joinMode = .lenient) {s : WidgetSource inv d}
    (hkey : s.key? = none) (hanswered : Answered s)
    (hpauses : d.fault? inv.platform .pauseWidgets = none)
    (hnumber : inv.number "threshold" = .ok threshold) :
    ∃ rows d', (killBy target? fields inv).on d =
      (.ok (.records rows [.unjoinable inv.platform s.id (s.campaign.name?.getD "")]), d') := by
  obtain ⟨d₁, htable⟩ := on_widgetTable hanswered fun _ => hmode
  -- Making the table only reads, so the network can still pause afterwards.
  have hfresh : d.fresh = d₁.fresh :=
    (Desk.fresh_congr ((reads_widgetTable inv).lasting_eq htable)).symm
  have hcampaign : (tableOf s).campaign = s.id := by
    unfold tableOf
    rw [hkey]
  have hissues : (tableOf s).issues =
      [.unjoinable inv.platform s.id (s.campaign.name?.getD "")] := by
    unfold tableOf
    rw [hkey]
  have hcan : canPause d₁ inv.platform (tableOf s).campaign := by
    rw [hcampaign]
    exact canPause_of_same hfresh (canPause_of_source s hpauses)
  obtain ⟨d', hpause⟩ :=
    exists_on_pause (tableOf s) ((tableOf s).rows.filterMap (target? threshold)) hcan
  rw [killBy_of_data hdata, hnumber, on_bind_ok (on_lift _ d), on_bind_ok htable, ← hissues]
  exact ⟨_, d', hpause⟩

/-- A kill by bot share that succeeds pauses the widgets of the bot rows that the network shows. -/
theorem newly_paused_killBy_iff {fields : List String} (hdata : inv.wantsFields = false)
    {s : WidgetSource inv d} (hkey : s.key? = none) {o : Outcome} {d' : Desk}
    (h : (killBy botTarget? fields inv).on d = (.ok o, d')) {p : Platform} {campaign id : String} :
    (id ∈ d'.paused p campaign ∧ id ∉ d.paused p campaign) ↔
      p = inv.platform ∧ campaign = s.id ∧
        ∃ threshold, inv.args.number? "threshold" = some threshold ∧
          ∃ r ∈ s.rows, r.id? = some id ∧ IsBotRow threshold r := by
  obtain ⟨threshold, table, s', hnumber, hmakes, -, hpaused⟩ := killBy_eq_ok hdata h
  obtain rfl : s = s' := source_unique s s'
  have hthreshold := number_eq_ok_iff.1 hnumber
  rw [hpaused]
  unfold Desk.pausedWith
  by_cases hplace : p = inv.platform ∧ campaign = s.id
  · obtain ⟨rfl, rfl⟩ := hplace
    -- What is newly paused is what is reported, and that is what the target selects.
    have hreported := newly_paused_iff hmakes selects_botTarget? threshold id
    rw [← mem_ids_iff, rows_of_unlinked hkey hmakes, mem_ids_botTarget_iff] at hreported
    rw [if_pos ⟨rfl, rfl⟩, rows_of_unlinked hkey hmakes, hreported]
    constructor
    · exact fun hrow => ⟨rfl, rfl, threshold, hthreshold, hrow⟩
    · rintro ⟨-, -, x, hx, hrow⟩
      obtain rfl : threshold = x := Option.some.inj (hthreshold.symm.trans hx)
      exact hrow
  · -- Elsewhere nothing changed.
    rw [if_neg hplace]
    exact iff_of_false (fun h => h.2 h.1) fun h => hplace ⟨h.1, h.2.1⟩

end unlinked

end Handler

/-! ## Commands that kill bots

From the handler to messages: the command of an accepted line runs the handler on the arguments it
holds, and what it pauses is what the run pauses. -/

namespace Bot

open AdOps.Action AdOps.Handler

variable {b : Bot} {message : String} {c : Command} {today : Date} {d : Desk}

/-- **What a kill by bot share pauses where the tracker cannot be asked.** On a campaign whose name has
no link, where joins are lenient:

* It pauses, if it succeeds, the widgets of the campaign that have an active row with a bot share of
  the threshold or more, and no other; if it fails it pauses none.
* It succeeds, and its answer is flagged, if the calls for it get through and the threshold is a
  number.
* A row without clicks from the tracker has a bot share of a hundred percent if it has clicks at all,
  and none if it has not. -/
theorem newly_paused_of_unlinked (hparse : b.parse message = .ok c) (hverb : c.verb = .widgetsKillBot)
    (hdata : c.args.switch "list_fields" = false) (hmode : b.settings.strictJoin = false)
    (s : WidgetSource ⟨c, b.settings, today⟩ d) (hkey : s.key? = none) :
    (∀ p campaign id,
      (id ∈ ((b.run today message).on d).2.paused p campaign ∧ id ∉ d.paused p campaign) ↔
        ((b.run today message).on d).1.isOk = true ∧ p = c.platform ∧ campaign = s.id ∧
          ∃ threshold, c.args.number? "threshold" = some threshold ∧
            ∃ r ∈ s.rows, r.id? = some id ∧ IsBotRow threshold r) ∧
      (Answered s → d.fault? c.platform .pauseWidgets = none →
        (c.args.number? "threshold").isSome = true →
          ∃ o, ((b.run today message).on d).1 = .ok o ∧
            (c.args.switch "ignore_errors" = false →
              o.issues = [.unjoinable c.platform s.id (s.campaign.name?.getD "")])) ∧
        ∀ r ∈ s.rows, r.number? trackerClicks = none → ∀ threshold,
          (IsBotRow threshold r ↔
            isActive r = true ∧ (∃ clicks, r.number? "clicks" = some clicks ∧ 0 < clicks) ∧
              threshold ≤ 100) := by
  have hkill : Verb.target? (Invocation.command ⟨c, b.settings, today⟩).verb = some botTarget? := by
    rw [show (Invocation.command ⟨c, b.settings, today⟩).verb = .widgetsKillBot from hverb]
    rfl
  have hfields : Invocation.wantsFields ⟨c, b.settings, today⟩ = false := hdata
  obtain ⟨fields, hhandle⟩ := handle_of_target? hkill
  refine ⟨fun p campaign id => ?_, fun hanswered hpauses hthreshold => ?_, fun r _ hnone threshold =>
    isBotRow_iff_of_untracked hnone⟩
  -- A run that fails pauses nothing, and the right side speaks of success only.
  · rcases hrun : (b.run today message).on d with ⟨res, d'⟩
    cases res with
    | error e =>
      have hsame : d'.paused = d.paused := Desk.paused_congr (atomic_run b today message d e d' hrun)
      rw [hsame]
      exact iff_of_false (fun h => h.2 h.1) (by simp [Except.isOk, Except.toBool])
    | ok o =>
      obtain ⟨c', o', hparse', -, hon⟩ := run_eq_ok b today message hrun
      obtain rfl : c = c' := Except.ok.inj (hparse.symm.trans hparse')
      rw [hhandle] at hon
      exact (newly_paused_killBy_iff hfields hkey hon).trans ⟨fun h => ⟨rfl, h⟩, fun h => h.2⟩
  -- If its calls get through, the handler succeeds with the issue, and only the quiet flag takes
  -- that away.
  · obtain ⟨threshold, hnumber⟩ := Option.isSome_iff_exists.1 hthreshold
    have hlenient : Invocation.joinMode ⟨c, b.settings, today⟩ = .lenient := if_neg (by simp [hmode])
    obtain ⟨rows, d', hon⟩ := on_killBy_of_unlinked botTarget? fields hfields hlenient hkey hanswered
      hpauses (number_eq_ok_iff.2 hnumber)
    have hrun : (b.run today message).on d = (.ok (Outcome.shape c.args (.records rows
        [.unjoinable c.platform s.id (s.campaign.name?.getD "")])), d') := by
      rw [run_eq, hparse, on_bind_ok (on_lift _ d), hhandle, on_bind_ok hon]
      rfl
    rw [hrun]
    exact ⟨_, rfl, fun hshown => if_neg (by simp [hshown])⟩

/-! A campaign whose name has no link, with a widget that was clicked: the tracker was not asked about
it, and it is paused. -/

namespace Keyless

def bot : Bot := ⟨{}, Settings.valid_default⟩

def date : Date := ⟨15756, by decide⟩

def campaign : Record := NameMap.ofList [("id", .int 1), ("name", .string "No Key")]

def widget : Record := NameMap.ofList [("id", .string "a"), ("clicks", .int 5)]

def network : Network where
  data := { campaigns := [campaign], widgetStats := NameMap.ofList [("1", [widget])] }

def desk : Desk where
  mgid := some network

def text : String := "/mgid widgets-kill-bot 1 50"

def isKill : Except Failure Command → Bool
  | .ok c =>
    c.platform = .mgid && c.verb = .widgetsKillBot && !c.args.switch "list_fields" &&
      !c.args.switch "ignore_errors" && c.args.text? "campaign_id" = some "1" &&
        c.args.number? "threshold" = some 50 && c.args.text? "date_range" = none
  | .error _ => false

end Keyless

theorem newly_paused_of_unlinked_keyless :
    ∃ o d', (Keyless.bot.run Keyless.date Keyless.text).on Keyless.desk = (.ok o, d') ∧
      o.issues = [.unjoinable .mgid "1" "No Key"] ∧
        "a" ∈ d'.paused .mgid "1" ∧ "a" ∉ Keyless.desk.paused .mgid "1" := by
  have haccepted : Keyless.isKill (Keyless.bot.parse Keyless.text) = true := by decide +kernel
  cases hparse : Keyless.bot.parse Keyless.text with
  | error e =>
    rw [hparse] at haccepted
    exact absurd haccepted (by simp [Keyless.isKill])
  | ok c =>
    rw [hparse] at haccepted
    simp only [Keyless.isKill, Bool.and_eq_true, decide_eq_true_eq, Bool.not_eq_true'] at haccepted
    obtain ⟨⟨⟨⟨⟨⟨hplatform, hverb⟩, hdata⟩, hshown⟩, hcampaign⟩, hthreshold⟩, hrange⟩ := haccepted
    let inv : Invocation := ⟨c, Keyless.bot.settings, Keyless.date⟩
    have hmgid : inv.platform = .mgid := hplatform
    let s : WidgetSource inv Keyless.desk :=
      { network := Keyless.network
        id := "1"
        campaign := Keyless.campaign
        rows := [Keyless.network.withStatus "1" Keyless.widget]
        network_eq := by rw [hmgid]; rfl
        id_eq := hcampaign
        campaign_eq := rfl
        rows_eq := rfl }
    have hkey : s.key? = none := by
      show joinKey? (Keyless.campaign.name?.getD "") = none
      decide +kernel
    have hanswered : Answered s := ⟨rfl, rfl, fun _ => rfl, exists_window hrange⟩
    obtain ⟨hpaused, hsucceeds, huntracked⟩ :=
      newly_paused_of_unlinked hparse hverb hdata rfl s hkey
    obtain ⟨o, ho, hissues⟩ := hsucceeds hanswered rfl (by rw [hthreshold]; rfl)
    rcases hrun : (Keyless.bot.run Keyless.date Keyless.text).on Keyless.desk with ⟨res, d'⟩
    rw [hrun] at ho hpaused
    obtain rfl : res = .ok o := ho
    have hrow : ∃ r ∈ s.rows, r.id? = some "a" ∧ IsBotRow 50 r := by
      refine ⟨Keyless.network.withStatus "1" Keyless.widget, List.mem_cons_self, by decide +kernel, ?_⟩
      refine (huntracked _ List.mem_cons_self (by decide +kernel) 50).2 ⟨?_, ⟨5, ?_, ?_⟩, ?_⟩
      all_goals decide +kernel
    have hnew := (hpaused .mgid "1" "a").2 ⟨rfl, hplatform.symm, rfl, 50, hthreshold, hrow⟩
    refine ⟨o, d', rfl, ?_, hnew.1, hnew.2⟩
    rw [hissues hshown, hplatform]
    rfl

end Bot
end AdOps
