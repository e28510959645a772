import Mathlib.Data.List.Basic
import AdOps.Proofs.Handler.Coincidence
import AdOps.Proofs.Handler.Reading
import AdOps.Proofs.Handler.Window
import AdOps.Proofs.Reconcile.Join
import AdOps.Proofs.Service.Schema

/-!
# One campaign of all

The verbs that sum up campaigns can be asked about one campaign or about all of them. Asked about
one, the network gives the stats of that campaign only. What is done with the stats afterwards looks
at one row at a time and leaves the identifier of the row alone, so it does not matter whether the
campaign is picked out before that or after it: the answer about one campaign is the part of the
answer about all that has its identifier, and so are the issues.

* **`flatMap_filter`** — picking out goes past whatever leaves alone what is picked by.
* **`join_ofCampaign`** — the lenient join of a campaign's rows is its part of the whole join.
* **`mirrors_checkedStats`** — one campaign's stats are its part of the stats of all.
* **`handle_asking`** — the same of the whole command, and that the command gives an answer.
-/

namespace AdOps

/-! ## Picking out

A list is cut down by a property that the items made of an item share with it. Then it may be cut
down before or after they are made. -/

section picking

variable {α β : Type} {l : List α} {keep : α → Bool} {keep' : β → Bool}

/-- Each item is replaced by some that are kept exactly if it is. -/
theorem flatMap_filter {f : α → List β} (h : ∀ a ∈ l, ∀ b ∈ f a, keep' b = keep a) :
    (l.filter keep).flatMap f = (l.flatMap f).filter keep' := by
  induction l with
  | nil => rfl
  | cons a l ih =>
    obtain ⟨ha, hl⟩ := List.forall_mem_cons.1 h
    rw [List.flatMap_cons, List.filter_append, ← ih hl]
    cases hkeep : keep a with
    | true =>
      rw [List.filter_cons_of_pos hkeep, List.flatMap_cons,
        List.filter_eq_self.2 fun b hb => (ha b hb).trans hkeep]
    | false =>
      have hnone : (f a).filter keep' = [] :=
        List.filter_eq_nil_iff.2 fun b hb => by simp [ha b hb, hkeep]
      rw [List.filter_cons_of_neg (by simp [hkeep]), hnone, List.nil_append]

/-- The same where each item is replaced by one that is kept exactly if it is, or dropped. -/
theorem filterMap_filter_of_keeps {f : α → Option β}
    (h : ∀ a ∈ l, ∀ b, f a = some b → keep' b = keep a) :
    (l.filter keep).filterMap f = (l.filterMap f).filter keep' := by
  rw [List.filterMap_eq_flatMap_toList, List.filterMap_eq_flatMap_toList]
  exact flatMap_filter fun a ha b hb => h a ha b (Option.mem_toList.1 hb)

end picking

/-- What of a join has the identifier of the campaign. -/
def Joined.ofCampaign (id : String) (j : Joined) : Joined where
  records := j.records.filter fun r => r.id? == some id
  issues := j.issues.filter fun i => i.id == some id

/-- What of an outcome has the identifier of the campaign. A text is about no campaign. -/
def Outcome.ofCampaign (id : String) (o : Outcome) : Outcome where
  body := match o.body with
    | .records rs => .records (rs.filter fun r => r.id? == some id)
    | .text s => .text s
  issues := o.issues.filter fun i => i.id == some id

/-! ## Rows keep their identifiers

What is derived from a row copies its identifier, so rows can be picked out by it at every step. -/

namespace Handler

/-- A row that is derived from the fields of a record, its identifier among them, has its
identifier. -/
theorem id?_withFieldsOf {r : Record} {fields : List String} (hfields : "id" ∈ fields)
    {field : String} (hfield : "id" ≠ field) (value : Json) :
    Record.id? (withFieldsOf r fields (NameMap.empty.insert field value)) = r.id? := by
  apply Record.text?_congr
  rw [get?_withFieldsOf, if_pos hfields, NameMap.get?_insert, if_neg hfield]
  exact Option.or_none

/-- The row of a spending campaign is about that campaign. -/
theorem id?_spentRow {r row : Record} (h : spentRow? r = some row) : row.id? = r.id? := by
  unfold spentRow? at h
  split at h
  · obtain ⟨-, h⟩ := Option.ite_none_right_eq_some.1 h
    obtain rfl := Option.some.inj h
    exact id?_withFieldsOf (by decide) (by decide) _
  · exact absurd h (by simp)

/-- The row of a campaign with a share of bots is about that campaign. -/
theorem id?_botRow {r row : Record} (h : botRow? r = some row) : row.id? = r.id? := by
  obtain ⟨share, -, rfl⟩ := Option.map_eq_some_iff.1 h
  exact id?_withFieldsOf (by decide) (by decide) _

end Handler

/-! ## Joins

A lenient join looks at one record of the network at a time: its fate is a row or an issue, and
either has the identifier of the record. So the join of some records is the part of the join of all
that these make. -/

namespace Reconcile

variable {tracker : List Record} {p : Platform} {r : Record}

/-- A joined row has the identifier of its record. -/
theorem id?_of_mem_fateOf (hid : r.id?.isSome = true) {m : Record}
    (h : m ∈ (fateOf tracker p r).records) : m.id? = r.id? := by
  unfold fateOf at h
  split at h
  · exact absurd h List.not_mem_nil
  · obtain ⟨t, -, rfl⟩ := Option.map_eq_some_iff.1 (Option.mem_toList.1 h)
    exact Record.id?_joined hid t

/-- An issue names its record. -/
theorem id_of_mem_fateOf (hid : r.id?.isSome = true) {i : Issue}
    (h : i ∈ (fateOf tracker p r).issues) : i.id = r.id? := by
  obtain ⟨id, hid⟩ := Option.isSome_iff_exists.1 hid
  unfold fateOf at h
  split at h
  · obtain rfl := List.mem_singleton.1 h
    show some (r.id?.getD "") = r.id?
    rw [hid]
    rfl
  · exact absurd h List.not_mem_nil

/-- **The lenient join of a campaign's rows is the campaign's part of the whole join.** -/
theorem join_ofCampaign (tracker : List Record) (p : Platform) {records : List Record}
    (hids : ∀ r ∈ records, r.id?.isSome = true) (id : String) :
    join tracker p .lenient (records.filter fun r => r.id? == some id) =
      (join tracker p .lenient records).map (Joined.ofCampaign id) := by
  -- A placeholder of the tracker makes every join empty.
  by_cases htracker : tracker = [NameMap.empty]
  · rw [htracker, join_of_placeholder, join_of_placeholder]
    rfl
  · have hrecords : ∀ r ∈ records, ∀ m ∈ (fateOf tracker p r).records,
        (m.id? == some id) = (r.id? == some id) := fun r hr m hm => by
      rw [id?_of_mem_fateOf (hids r hr) hm]
    have hissues : ∀ r ∈ records, ∀ i ∈ (fateOf tracker p r).issues,
        (i.id == some id) = (r.id? == some id) := fun r hr i hi => by
      rw [id_of_mem_fateOf (hids r hr) hi]
    rw [join_lenient htracker, join_lenient htracker, flatMap_filter hrecords,
      flatMap_filter hissues]
    rfl

end Reconcile

/-! ## Runs that mirror one another

The two commands differ in what they carry along and agree in what they call, so one run is the
other with `g` applied to what it carries. The property is passed on step by step, where each step
may use what the first run gave. -/

namespace Action

variable {α β γ δ : Type}

/-- On the desk the second action runs as the first one does, and gives `g` of what that gives. -/
def Mirrors (g : α → β) (x : Action α) (y : Action β) (d : Desk) : Prop :=
  y.on d = ((x.on d).1.map g, (x.on d).2)

namespace Mirrors

variable {g : α → β} {d : Desk}

/-- Values mirror one another if the second is `g` of the first. -/
theorem pure {a : α} {b : β} (h : b = g a) :
    Mirrors g (pure a : Action α) (pure b : Action β) d := by
  subst h
  rfl

/-- So do results. -/
theorem lift {r : Except Failure α} {r' : Except Failure β} (h : r' = r.map g) :
    Mirrors g (liftM r : Action α) (liftM r' : Action β) d := by
  subst h
  rfl

/-- Steps that mirror one another in turn do so together. -/
theorem bind {x : Action α} {y : Action β} (h : Mirrors g x y d) {g' : γ → δ}
    {f : α → Action γ} {f' : β → Action δ}
    (hf : ∀ a d', x.on d = (.ok a, d') → Mirrors g' (f a) (f' (g a)) d') :
    Mirrors g' (x >>= f) (y >>= f') d := by
  unfold Mirrors at h ⊢
  rw [on_bind, on_bind, h]
  rcases hx : x.on d with ⟨r, d'⟩
  cases r with
  | ok a => exact hf a d' hx
  | error e => rfl

/-- What goes before on both sides does not matter. -/
theorem after (x : Action α) {g : γ → δ} {f : α → Action γ} {f' : α → Action δ}
    (hf : ∀ a d', x.on d = (.ok a, d') → Mirrors g (f a) (f' a) d') :
    Mirrors g (x >>= f) (x >>= f') d := by
  have hself : Mirrors id x x d := by
    unfold Mirrors
    rcases x.on d with ⟨_ | _, d'⟩ <;> rfl
  exact hself.bind hf

end Mirrors

end Action

/-! ## Asking about campaigns

The invocation is changed in one argument, so whatever is read from it but for that argument stays
the same. -/

namespace Invocation

/-- The invocation about other campaigns: about the one with an identifier, or about all. -/
def asking (inv : Invocation) (campaign : Arg) : Invocation :=
  { inv with
    command := { inv.command with args := inv.command.args.insert "campaign_id" campaign } }

variable (inv : Invocation) (campaign : Arg)

theorem platform_asking : (inv.asking campaign).platform = inv.platform := rfl

/-- The campaign is the one that is asked about. -/
theorem campaign?_asking : (inv.asking campaign).campaign? = campaign.text? := by
  unfold campaign? Arguments.text?
  show (NameMap.get? (inv.command.args.insert _ _) _).bind _ = _
  rw [NameMap.get?_insert, if_pos rfl]
  rfl

section others

variable {name : String} (h : name ≠ "campaign_id")
include h

theorem get?_asking : (inv.asking campaign).args.get? name = inv.args.get? name :=
  (NameMap.get?_insert ..).trans (if_neg h)

theorem text?_asking : (inv.asking campaign).args.text? name = inv.args.text? name := by
  unfold Arguments.text?
  rw [inv.get?_asking campaign h]

end others

theorem wantsFields_asking : (inv.asking campaign).wantsFields = inv.wantsFields := by
  unfold wantsFields Arguments.switch
  rw [inv.get?_asking campaign (by decide)]

/-- The window stays, since it is not worked out from the campaign. -/
theorem window_asking : (inv.asking campaign).window = inv.window := by
  have hnames : ∀ p : Platform, ∀ name ∈ windowNames p, name ≠ "campaign_id" := by
    intro p
    cases p <;> decide
  exact window_congr rfl rfl rfl fun name hname => inv.text?_asking campaign (hnames _ _ hname)

end Invocation

/-! ## The stats of a campaign

The one call that is made differently is the one for the stats. Asked about one campaign, the
network picks its rows out of those that it gives for all. Everything behind this call is a matter
of rows. -/

namespace Handler

open AdOps.Action

variable {inv : Invocation} {d : Desk} {n : Network} {id : String}

/-- About all campaigns the network is asked, and nothing is checked. -/
theorem checkedStats_all (inv : Invocation) (w : Window) :
    checkedStats (inv.asking .all) w = Action.campaignStats inv.platform none w := by
  unfold checkedStats
  rw [inv.campaign?_asking]
  exact bind_pure _

/-- They are the rows that the network holds. -/
theorem eq_of_checkedStats_all (hn : d.network? inv.platform = some n) {w : Window}
    {stats : List Record} {d' : Desk}
    (h : (checkedStats (inv.asking .all) w).on d = (.ok stats, d')) :
    stats = n.data.campaignStats := by
  rw [checkedStats_all, on_campaignStats] at h
  obtain ⟨m, hreach, hstats, -⟩ := Desk.through_eq_ok h
  obtain rfl : n = m := Option.some.inj (hn.symm.trans (Desk.network?_of_reach hreach))
  exact (Except.ok.inj hstats).symm

section asked

variable (hn : d.network? inv.platform = some n)
  (hrow : ∃ r ∈ n.data.campaignStats, r.id? = some id)
include hn hrow

/-- **One campaign's stats are its part of the stats of all.** Since it has some, nobody asks
whether the network lists it. -/
theorem mirrors_checkedStats (w : Window) :
    Mirrors (List.filter fun r => r.id? == some id) (checkedStats (inv.asking .all) w)
      (checkedStats (inv.asking (.text id)) w) d := by
  unfold Mirrors
  rw [checkedStats_all]
  unfold checkedStats
  rw [inv.campaign?_asking, inv.platform_asking, on_bind, on_campaignStats, on_campaignStats]
  unfold Desk.through
  cases hreach : d.reach inv.platform .campaignStats with
  | error e => rfl
  | ok m =>
    obtain rfl : n = m := Option.some.inj (hn.symm.trans (Desk.network?_of_reach hreach))
    -- There is a row of the campaign, so the answer is not empty.
    have hsome : (n.campaignStats (some id)).isEmpty = false := by
      obtain ⟨r, hr, hid⟩ := hrow
      refine List.isEmpty_eq_false_iff_exists_mem.2 ⟨r, List.mem_filter.2 ⟨hr, ?_⟩⟩
      rw [hid]
      exact beq_self_eq_true _
    show (if (n.campaignStats (some id)).isEmpty then _ else _ : Action (List Record)).on _ = _
    rw [hsome]
    rfl

/-- Spending campaigns are picked out before or after they are summed up. -/
theorem mirrors_spent :
    Mirrors (Outcome.ofCampaign id) (spent (inv.asking .all)) (spent (inv.asking (.text id))) d := by
  unfold spent
  rw [inv.wantsFields_asking, inv.wantsFields_asking, inv.window_asking, inv.window_asking]
  refine .after (discard (network inv.platform)) fun _ d₁ h₁ => ?_
  -- The check for a network changes nothing.
  obtain rfl : d = d₁ := (Prod.mk.inj ((on_discard_network hn).symm.trans h₁)).2
  split
  · exact .pure rfl
  · refine .after (liftM inv.window) fun w d₂ hw => ?_
    obtain ⟨-, rfl⟩ := on_lift_eq_ok hw
    refine (mirrors_checkedStats hn hrow w).bind fun stats _ _ => .pure ?_
    exact congrArg (Outcome.records · []) (filterMap_filter_of_keeps fun r _ row hspent => by
      rw [id?_spentRow hspent])

variable (hids : ∀ r ∈ n.data.campaignStats, r.id?.isSome = true)
include hids

/-- The rows that are joined are picked out before or after the join. -/
theorem mirrors_joinedStats (hmode : inv.joinMode = .lenient) :
    Mirrors (Joined.ofCampaign id) (joinedStats (inv.asking .all))
      (joinedStats (inv.asking (.text id))) d := by
  unfold joinedStats
  rw [inv.window_asking, inv.window_asking]
  refine .after (liftM inv.window) fun w d₁ hw => ?_
  obtain ⟨-, rfl⟩ := on_lift_eq_ok hw
  refine (mirrors_checkedStats hn hrow w).bind fun stats d₂ hstats =>
    .after (TrackerAction.campaignStats none w) fun tracked d₃ _ => .lift ?_
  have hall : ∀ r ∈ stats, r.id?.isSome = true := eq_of_checkedStats_all hn hstats ▸ hids
  show Reconcile.join _ inv.platform inv.joinMode _ =
    (Reconcile.join _ inv.platform inv.joinMode _).map _
  rw [hmode]
  exact Reconcile.join_ofCampaign _ _ hall id

/-- So are the rows with the cost of an action. -/
theorem mirrors_campaignStats (hmode : inv.joinMode = .lenient) :
    Mirrors (Outcome.ofCampaign id) (campaignStats (inv.asking .all))
      (campaignStats (inv.asking (.text id))) d := by
  unfold campaignStats
  rw [inv.wantsFields_asking, inv.wantsFields_asking]
  refine .after (discard (network inv.platform)) fun _ d₁ h₁ => ?_
  obtain rfl : d = d₁ := (Prod.mk.inj ((on_discard_network hn).symm.trans h₁)).2
  split
  · exact .after (campaignFields inv.platform) fun _ _ _ =>
      .after TrackerAction.campaignFields fun _ _ _ => .pure rfl
  · refine (mirrors_joinedStats hn hrow hids hmode).bind fun joined _ _ => .pure ?_
    have hrecords : (joined.records.filter fun r => r.id? == some id).map Record.withCpa =
        (joined.records.map Record.withCpa).filter fun r => r.id? == some id := by
      rw [List.filter_map]
      exact congrArg _ (List.filter_congr fun r _ => by rw [Function.comp_apply, r.id?_withCpa])
    exact congrArg (Outcome.records · _) hrecords

/-- So are the rows with a share of bots. -/
theorem mirrors_botTraffic (hmode : inv.joinMode = .lenient) :
    Mirrors (Outcome.ofCampaign id) (botTraffic (inv.asking .all))
      (botTraffic (inv.asking (.text id))) d := by
  unfold botTraffic
  rw [inv.wantsFields_asking, inv.wantsFields_asking]
  split
  · exact .pure rfl
  · refine (mirrors_joinedStats hn hrow hids hmode).bind fun joined _ _ => .pure ?_
    exact congrArg (Outcome.records · _) (filterMap_filter_of_keeps fun r _ row hbot => by
      rw [id?_botRow hbot])

end asked

/-! ## Answers

That the runs mirror one another says nothing about whether they answer. They do where the calls get
through: a lenient join reports what it cannot join, so nothing fails after the calls. -/

/-- The calls for the stats get through, and the command has a window. -/
structure StatsGiven (inv : Invocation) (d : Desk) : Prop where
  window : ∃ w, inv.window = .ok w
  shown : d.fault? inv.platform .campaignStats = none
  tracked : d.fault? .thrive .campaignStats = none

/-- The stats of all campaigns, where the call gets through. -/
theorem on_checkedStats_all (hn : d.network? inv.platform = some n)
    (h : d.fault? inv.platform .campaignStats = none) (w : Window) :
    (checkedStats (inv.asking .all) w).on d =
      (.ok n.data.campaignStats, d.setNetwork inv.platform (n.note w)) := by
  rw [checkedStats_all, on_campaignStats]
  unfold Desk.through
  rw [Desk.reach_of_network? hn h]
  rfl

/-- A lenient join has an answer, since nothing that it comes across fails it. -/
theorem exists_on_joinedStats (hn : d.network? inv.platform = some n) (h : StatsGiven inv d)
    (hmode : inv.joinMode = .lenient) :
    ∃ joined d', (joinedStats (inv.asking .all)).on d = (.ok joined, d') := by
  obtain ⟨w, hw⟩ := h.window
  have htracked := TrackerAction.on_campaignStats none w (d.setNetwork inv.platform (n.note w))
  -- The call to the network changes the window that it noted, and no faults.
  have hfault : (d.setNetwork inv.platform (n.note w)).fault? .thrive .campaignStats = none := by
    unfold Desk.fault?
    rw [Desk.faults_setNetwork]
    exact h.tracked
  rw [hfault] at htracked
  let tracked := (d.setNetwork inv.platform (n.note w)).tracker.campaignStats none
  obtain ⟨part, hpart⟩ :=
    Reconcile.exists_join_lenient (tracked.map renameClicks) inv.platform
  have hjoined := hpart n.data.campaignStats
  rw [← hmode] at hjoined
  unfold joinedStats
  rw [inv.window_asking, hw, on_bind_ok (on_lift _ d), on_bind_ok (on_checkedStats_all hn h.shown w),
    on_bind_of_fst htracked]
  exact ⟨_, _, congrArg (·, _) hjoined⟩

/-- Stats are answered with records. -/
theorem exists_records_campaignStats (hn : d.network? inv.platform = some n)
    (h : StatsGiven inv d) (hmode : inv.joinMode = .lenient) (hdata : inv.wantsFields = false) :
    ∃ rows issues d', (campaignStats (inv.asking .all)).on d =
      (.ok ⟨.records rows, issues⟩, d') := by
  obtain ⟨joined, d', hjoined⟩ := exists_on_joinedStats hn h hmode
  unfold campaignStats
  rw [inv.platform_asking, inv.wantsFields_asking, hdata, on_bind_ok (on_discard_network hn)]
  exact ⟨_, _, d', on_bind_ok hjoined _⟩

/-- Spending campaigns are answered with records. -/
theorem exists_records_spent (hn : d.network? inv.platform = some n) (h : StatsGiven inv d)
    (hdata : inv.wantsFields = false) :
    ∃ rows issues d', (spent (inv.asking .all)).on d = (.ok ⟨.records rows, issues⟩, d') := by
  obtain ⟨w, hw⟩ := h.window
  unfold spent
  rw [inv.platform_asking, inv.wantsFields_asking, hdata, on_bind_ok (on_discard_network hn),
    inv.window_asking, hw]
  exact ⟨_, _, _, on_bind_ok (on_checkedStats_all hn h.shown w) _⟩

/-- Campaigns with a share of bots are answered with records. -/
theorem exists_records_botTraffic (hn : d.network? inv.platform = some n) (h : StatsGiven inv d)
    (hmode : inv.joinMode = .lenient) (hdata : inv.wantsFields = false) :
    ∃ rows issues d', (botTraffic (inv.asking .all)).on d =
      (.ok ⟨.records rows, issues⟩, d') := by
  obtain ⟨joined, d', hjoined⟩ := exists_on_joinedStats hn h hmode
  unfold botTraffic
  rw [inv.wantsFields_asking, hdata]
  exact ⟨_, _, d', on_bind_ok hjoined _⟩

end Handler

/-! ## Commands

A platform with a network has one handler for each of the verbs. The tracker has stats of its own,
but no network. -/

/-- The verb sums up campaigns. -/
def Verb.SumsUp (v : Verb) : Prop := v = .stats ∨ v = .spent ∨ v = .botTraffic

instance (v : Verb) : Decidable v.SumsUp := inferInstanceAs (Decidable (_ ∨ _ ∨ _))

namespace Handler

open AdOps.Action

variable {inv : Invocation} {d : Desk} {n : Network}

/-- A platform with a network sums its campaigns up with one of three handlers, whichever campaigns
it is asked about. -/
theorem handle_of_sumsUp (hn : d.network? inv.platform = some n) (h : inv.command.verb.SumsUp) :
    (∀ campaign, (inv.asking campaign).handle = campaignStats (inv.asking campaign)) ∨
      (∀ campaign, (inv.asking campaign).handle = spent (inv.asking campaign)) ∨
        ∀ campaign, (inv.asking campaign).handle = botTraffic (inv.asking campaign) := by
  have hhandle : ∀ campaign, (inv.asking campaign).handle =
      handlerOf inv.platform inv.command.verb (inv.asking campaign) := fun _ => rfl
  have hnetwork : inv.platform ≠ .thrive := by
    intro hp
    rw [hp] at hn
    exact absurd hn (by simp [Desk.network?])
  rcases h with hverb | hverb | hverb
  · refine .inl fun campaign => ?_
    rw [hhandle, hverb]
    cases hp : inv.platform with
    | thrive => exact absurd hp hnetwork
    | mgid => rfl
    | zeropark => rfl
  · refine .inr (.inl fun campaign => ?_)
    rw [hhandle, hverb]
    cases inv.platform <;> rfl
  · refine .inr (.inr fun campaign => ?_)
    rw [hhandle, hverb]
    cases inv.platform <;> rfl

/-- **The answer about one campaign is part of the answer about all.** Take a network whose stats
rows all have an identifier, a campaign with a row, and lenient joins. Whatever the tracker holds and
whatever calls break down, a command that sums campaigns up runs for the one campaign as for all of
them, and what it ends with is the same failure, or the same outcome with those records and those
issues only that have the identifier of the campaign, in the same order. Where the calls for the
stats get through and the command has a window, both runs have records to answer with. -/
theorem handle_asking {id : String} (hverb : inv.command.verb.SumsUp)
    (hn : d.network? inv.platform = some n)
    (hids : ∀ r ∈ n.data.campaignStats, r.id?.isSome = true)
    (hrow : ∃ r ∈ n.data.campaignStats, r.id? = some id) (hmode : inv.joinMode = .lenient) :
    (inv.asking (.text id)).handle.on d =
        (((inv.asking .all).handle.on d).1.map (Outcome.ofCampaign id),
          ((inv.asking .all).handle.on d).2) ∧
      (StatsGiven inv d → inv.wantsFields = false → ∃ rows issues d',
        (inv.asking .all).handle.on d = (.ok ⟨.records rows, issues⟩, d') ∧
        (inv.asking (.text id)).handle.on d =
          (.ok ⟨.records (rows.filter fun r => r.id? == some id),
            issues.filter fun i => i.id == some id⟩, d')) := by
  have hmirrors : Mirrors (Outcome.ofCampaign id) (inv.asking .all).handle
      (inv.asking (.text id)).handle d := by
    rcases handle_of_sumsUp hn hverb with heq | heq | heq
    · rw [heq, heq]
      exact mirrors_campaignStats hn hrow hids hmode
    · rw [heq, heq]
      exact mirrors_spent hn hrow
    · rw [heq, heq]
      exact mirrors_botTraffic hn hrow hids hmode
  refine ⟨hmirrors, fun hgiven hdata => ?_⟩
  have hall : ∃ rows issues d',
      (inv.asking .all).handle.on d = (.ok ⟨.records rows, issues⟩, d') := by
    rcases handle_of_sumsUp hn hverb with heq | heq | heq
    · rw [heq]
      exact exists_records_campaignStats hn hgiven hmode hdata
    · rw [heq]
      exact exists_records_spent hn hgiven hdata
    · rw [heq]
      exact exists_records_botTraffic hn hgiven hmode hdata
  obtain ⟨rows, issues, d', hon⟩ := hall
  refine ⟨rows, issues, d', hon, ?_⟩
  rw [hmirrors, hon]
  rfl

/-! Two rows of campaign 1, one of them without a link, between which stands another campaign. -/

namespace Mixed

def network : Network where
  data :=
    { campaignStats :=
        [NameMap.ofList [("id", .int 1), ("name", .string "7 Spring"), ("clicks", .int 10)],
          NameMap.ofList [("id", .int 2), ("name", .string "Winter")],
          NameMap.ofList [("id", .string "1"), ("name", .string "Spring again")]] }

def desk : Desk where
  mgid := some network
  tracker := { data := { campaignStats :=
    [NameMap.ofList [("id", .int 7), ("clicks", .int 8)]] } }

def invocation : Invocation where
  command := (Command.parse {} "/mgid bot-traffic all").toOption.get (by decide +kernel)
  settings := {}
  today := ⟨15758, by decide⟩

end Mixed

/-- Campaign 1 has a row and an issue, and the other campaign has one as well. -/
theorem handle_asking_mixed :
    (Command.parse {} "/mgid bot-traffic 1").toOption.map Command.args =
        some (Mixed.invocation.asking (.text "1")).args ∧
      ∃ rows issues d',
        (Mixed.invocation.asking .all).handle.on Mixed.desk =
          (.ok ⟨.records rows, issues⟩, d') ∧
        (Mixed.invocation.asking (.text "1")).handle.on Mixed.desk =
          (.ok ⟨.records (rows.filter fun r => r.id? == some "1"),
            issues.filter fun i => i.id == some "1"⟩, d') := by
  have hcommand : Mixed.invocation.command.verb.SumsUp ∧ Mixed.invocation.platform = .mgid ∧
      Mixed.invocation.joinMode = .lenient ∧ Mixed.invocation.wantsFields = false ∧
      Mixed.invocation.args.text? "date_range" = none := by
    decide +kernel
  obtain ⟨hverb, hplatform, hmode, hdata, hdays⟩ := hcommand
  have hn : Mixed.desk.network? Mixed.invocation.platform = some Mixed.network := by
    rw [hplatform]
    rfl
  have hids : ∀ r ∈ Mixed.network.data.campaignStats, r.id?.isSome = true := by decide +kernel
  have hrow : ∃ r ∈ Mixed.network.data.campaignStats, r.id? = some "1" := by decide +kernel
  obtain ⟨-, hanswers⟩ := handle_asking hverb hn hids hrow hmode
  exact ⟨by decide +kernel, hanswers ⟨exists_window hdays, rfl, rfl⟩ hdata⟩

end Handler

end AdOps
