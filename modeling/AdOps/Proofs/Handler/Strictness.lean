import AdOps.Proofs.CommandLine.Reading
import AdOps.Proofs.Handler.Acting
import AdOps.Proofs.Reconcile.Join

/-!
# Strict joins and lenient joins

What a lenient join reports as an issue, a strict join fails with. A command joins campaign by
campaign, once for the campaign of a widget verb, or not at all; in each case the strict run is the
lenient run with a gate behind it, which lets an outcome without issues through and stops any other
with its first issue (`Gate`). The gate goes through sequences of actions, so each handler is read off
piece by piece.

* **`gate_join`** — a strict join is a lenient join behind the gate.
* **`gated_widgetTable`** — so is the table of a widget verb.
* **`gated_handle`** — and so is every command.
* **`strict_handled`** — what strictness makes of a message.
-/

namespace AdOps

/-- The failure names the platform, the identifier and the name that the issue names. -/
def Issue.FailsAs (i : Issue) (e : Failure) : Prop :=
  ∃ p id name, i.platform = some p ∧ i.id = some id ∧ i.name = some name ∧
    e = .unjoinable p id name

theorem Issue.failsAs_unjoinable (p : Platform) (id name : String) :
    (Issue.unjoinable p id name).FailsAs (.unjoinable p id name) :=
  ⟨p, id, name, rfl, rfl, rfl, rfl⟩

/-- What a lenient run comes to, and what the strict run comes to: the same, if the lenient run
succeeds without issues; a failure that says what the first issue says, if there are issues; and some
failure, if the lenient run fails. -/
inductive Gate {α : Type} (issues : α → List Issue) :
    Except Failure α × Desk → Except Failure α × Desk → Prop where
  | clear {a : α} {d : Desk} (h : issues a = []) : Gate issues (.ok a, d) (.ok a, d)
  | stopped {a : α} {i : Issue} {rest : List Issue} {e : Failure} {d d' : Desk}
      (h : issues a = i :: rest) (he : i.FailsAs e) : Gate issues (.ok a, d) (.error e, d')
  | failed {e e' : Failure} {d d' : Desk} : Gate issues (.error e, d) (.error e', d')

/-- The second action is the first one behind the gate. -/
def Gated {α : Type} (issues : α → List Issue) (lenient strict : Action α) : Prop :=
  ∀ d, Gate issues (lenient.on d) (strict.on d)

namespace Gated

open AdOps.Action

variable {α β : Type} {issues : α → List Issue}

/-- An action that never has issues passes the gate. -/
theorem of_gives {x : Action α} (h : Gives (fun a => issues a = []) x) : Gated issues x x := by
  intro d
  rcases hx : x.on d with ⟨r, d'⟩
  cases r with
  | ok a => exact .clear (h d a d' hx)
  | error e => exact .failed

/-- What goes before on both sides does not matter. -/
theorem after (x : Action β) {f g : β → Action α} (h : ∀ b, Gated issues (f b) (g b)) :
    Gated issues (x >>= f) (x >>= g) := by
  intro d
  rcases hx : x.on d with ⟨r, d'⟩
  cases r with
  | ok b =>
    rw [on_bind_ok hx, on_bind_ok hx]
    exact h b d'
  | error e =>
    rw [on_bind_error hx, on_bind_error hx]
    exact .failed

/-- What follows on both sides does not matter, if it hands the issues on. -/
theorem followed {x y : Action α} (h : Gated issues x y) {issues' : β → List Issue}
    {f : α → Action β} (hf : ∀ a, Gives (fun b => issues' b = issues a) (f a)) :
    Gated issues' (x >>= f) (y >>= f) := by
  intro d
  have hgate := h d
  rw [on_bind, on_bind]
  generalize x.on d = rx, y.on d = ry at hgate
  cases hgate with
  | @clear a d₁ hnone =>
    -- Both runs go on alike, and no issue is added.
    show Gate issues' ((f a).on d₁) ((f a).on d₁)
    exact of_gives (fun d₂ b d₃ hb => (hf a d₂ b d₃ hb).trans hnone) d₁
  | @stopped a i rest e d₁ d₂ hissues he =>
    -- The strict run has ended; the lenient one may still fail.
    show Gate issues' ((f a).on d₁) (.error e, d₂)
    rcases hfa : (f a).on d₁ with ⟨r, d₃⟩
    cases r with
    | ok b => exact .stopped ((hf a d₁ b d₃ hfa).trans hissues) he
    | error e' => exact .failed
  | failed => exact .failed

end Gated

/-! ## Joins

A strict join looks at the records in the order in which a lenient one does, and fails where that
reports its first issue. The proof is by induction on the records: the first of them has the first
issue, or none and then nothing changes. -/

namespace Reconcile

variable {tracker : List Record} {p : Platform}

/-- A record without a link stops a strict join, and any other adds what it adds to a lenient one. -/
theorem joinOne_strict (tracker : List Record) (p : Platform) (r : Record) :
    match (fateOf tracker p r).issues with
    | [] => joinOne tracker p .strict r = .ok (fateOf tracker p r)
    | i :: _ => ∃ e, joinOne tracker p .strict r = .error e ∧ i.FailsAs e := by
  unfold joinOne fateOf
  dsimp only
  cases joinKey? (r.name?.getD "") with
  | none => exact ⟨_, rfl, Issue.failsAs_unjoinable p _ _⟩
  | some key => rfl

/-- **Strict joining stops at the first issue of lenient joining.** -/
theorem mapM_joinOne_strict (tracker : List Record) (p : Platform) (records : List Record) :
    match records.flatMap fun r => (fateOf tracker p r).issues with
    | [] => records.mapM (joinOne tracker p .strict) = .ok (records.map (fateOf tracker p))
    | i :: _ => ∃ e, records.mapM (joinOne tracker p .strict) = .error e ∧ i.FailsAs e := by
  induction records with
  | nil => rfl
  | cons r records ih =>
    have hone := joinOne_strict tracker p r
    rw [List.flatMap_cons, List.mapM_cons]
    cases hissues : (fateOf tracker p r).issues with
    | cons i rest =>
      -- The first record has the first issue.
      rw [hissues] at hone
      obtain ⟨e, hr, he⟩ := hone
      rw [hr]
      exact ⟨e, rfl, he⟩
    | nil =>
      rw [hissues] at hone
      rw [show joinOne tracker p .strict r = _ from hone, List.nil_append]
      cases hrest : records.flatMap fun r => (fateOf tracker p r).issues with
      | nil =>
        rw [hrest] at ih
        rw [show records.mapM (joinOne tracker p .strict) = _ from ih]
        rfl
      | cons i rest =>
        rw [hrest] at ih
        obtain ⟨e, hr, he⟩ := ih
        rw [hr]
        exact ⟨e, rfl, he⟩

/-- **A strict join is a lenient join behind the gate.** -/
theorem gate_join (tracker : List Record) (p : Platform) (records : List Record) (d : Desk) :
    Gate Joined.issues (join tracker p .lenient records, d) (join tracker p .strict records, d) := by
  by_cases hplaceholder : tracker = [NameMap.empty]
  · rw [hplaceholder, join_of_placeholder, join_of_placeholder]
    exact .clear rfl
  · have hall := mapM_joinOne_strict tracker p records
    have hstrict : join tracker p .strict records =
        (records.mapM (joinOne tracker p .strict) >>= fun parts =>
          pure ⟨parts.flatMap (·.records), parts.flatMap (·.issues)⟩) := by
      unfold join
      rw [if_neg fun h => hplaceholder (isPlaceholder_iff.1 h)]
    rw [join_lenient hplaceholder, hstrict]
    cases hissues : records.flatMap fun r => (fateOf tracker p r).issues with
    | nil =>
      rw [hissues] at hall
      rw [show records.mapM (joinOne tracker p .strict) = _ from hall]
      show Gate _ _ (.ok (Joined.mk _ _), d)
      rw [List.flatMap_map, List.flatMap_map, hissues]
      exact .clear rfl
    | cons i rest =>
      rw [hissues] at hall
      obtain ⟨e, hr, he⟩ := hall
      rw [hr]
      exact .stopped rfl he

end Reconcile

/-- The invocation with joins that are strict, or that are not. -/
def Invocation.withStrictJoin (inv : Invocation) (strict : Bool) : Invocation :=
  { inv with settings := { inv.settings with strictJoin := strict } }

namespace Handler

open AdOps.Action

variable (inv : Invocation)

/-! ## Verbs that join

The mode is looked at in the join of statistics and in the table of a widget verb, and nowhere else.
So both runs are the same up to there, and from there on the gate stands between them. -/

/-- Joined statistics are gated. -/
theorem gated_joinedStats :
    Gated Joined.issues (joinedStats (inv.withStrictJoin false))
      (joinedStats (inv.withStrictJoin true)) := by
  unfold joinedStats
  exact .after (liftM inv.window) fun w => .after (checkedStats inv w) fun stats =>
    .after (TrackerAction.campaignStats none w) fun tracked d =>
      Reconcile.gate_join (tracked.map renameClicks) inv.platform stats d

/-- **The table of a widget verb, put together strictly, is the lenient one behind the gate.** -/
theorem gated_widgetTable :
    Gated WidgetTable.issues (widgetTable (inv.withStrictJoin false))
      (widgetTable (inv.withStrictJoin true)) := by
  unfold widgetTable
  refine .after (discard (network inv.platform)) fun _ => .after (liftM inv.campaign) fun id =>
    .after (findCampaign inv.platform id) fun found => ?_
  cases found with
  | none => exact .of_gives (.throw _)
  | some campaign =>
    refine .after (liftM inv.window) fun w => .after (widgetStats inv.platform id w) fun own => ?_
    dsimp only
    cases joinKey? (campaign.name?.getD "") with
    | some key =>
      exact .of_gives (.bind (TrackerAction.widgetStats key inv.platform w) fun _ => .pure rfl)
    | none =>
      -- The only place where the mode is looked at.
      exact fun _ => .stopped rfl (Issue.failsAs_unjoinable inv.platform id _)

/-! ## The handlers

A handler that does not join has no issues, so its two runs are one. Of the others the gate stands
inside, and what follows hands the issues on. -/

abbrev NoIssues : Action Outcome → Prop := Gives fun o => o.issues = []

/-- To list campaigns reports no issues. -/
theorem noIssues_listCampaigns : NoIssues (listCampaigns inv) := by
  refine .bind _ fun _ => ?_
  split
  · exact .bind _ fun _ => .pure rfl
  · exact .bind _ fun campaigns => gives_found (fun _ => rfl) _ campaigns

theorem noIssues_spent : NoIssues (spent inv) := by
  refine .bind _ fun _ => ?_
  split
  · exact .pure rfl
  · exact .bind _ fun _ => .bind _ fun _ => .pure rfl

theorem noIssues_trackerList : NoIssues (trackerList inv) := by
  unfold trackerList
  split
  · exact .bind _ fun _ => .pure rfl
  · exact .bind _ fun campaigns => gives_found (fun _ => rfl) _ campaigns

theorem noIssues_trackerSources : NoIssues (trackerSources inv) := by
  unfold trackerSources
  split
  · exact .bind _ fun _ => .pure rfl
  · exact .bind _ fun _ => .bind _ fun _ => .pure rfl

theorem noIssues_trackerStats : NoIssues (trackerStats inv) := by
  unfold trackerStats
  split
  · exact .bind _ fun _ => .pure rfl
  · exact .bind _ fun _ => .bind _ fun _ => .bind _ fun _ => .pure rfl

theorem noIssues_widgetFieldList (extra : List String) : NoIssues (widgetFieldList inv extra) :=
  .bind _ fun _ => .pure rfl

theorem noIssues_widgetsTurnOnAll : NoIssues (widgetsTurnOnAll inv) := by
  refine .bind _ fun _ => ?_
  split
  · exact .pure rfl
  · refine .bind _ fun id => .bind _ fun found => ?_
    split
    · exact .bind _ fun _ => .bind _ fun _ => .pure rfl
    · exact .bind _ fun _ => .pure rfl

/-- Stats of campaigns are gated. -/
theorem gated_campaignStats :
    Gated Outcome.issues (campaignStats (inv.withStrictJoin false))
      (campaignStats (inv.withStrictJoin true)) := by
  refine .after (discard (network inv.platform)) fun _ => ?_
  show Gated _ (if inv.wantsFields then _ else _) (if inv.wantsFields then _ else _)
  split
  · exact .of_gives (.bind _ fun _ => .bind _ fun _ => .pure rfl)
  · exact (gated_joinedStats inv).followed fun _ => .pure rfl

theorem gated_botTraffic :
    Gated Outcome.issues (botTraffic (inv.withStrictJoin false))
      (botTraffic (inv.withStrictJoin true)) := by
  unfold botTraffic
  show Gated _ (if inv.wantsFields then _ else _) (if inv.wantsFields then _ else _)
  split
  · exact .of_gives (.pure rfl)
  · exact (gated_joinedStats inv).followed fun _ => .pure rfl

theorem gated_widgetsTop :
    Gated Outcome.issues (widgetsTop (inv.withStrictJoin false))
      (widgetsTop (inv.withStrictJoin true)) := by
  unfold widgetsTop
  show Gated _ (if inv.wantsFields then _ else _) (if inv.wantsFields then _ else _)
  split
  · exact .of_gives (noIssues_widgetFieldList inv [])
  · exact (gated_widgetTable inv).followed fun _ => .pure rfl

/-- The stats of widgets are gated; that a widget does not exist is no issue. -/
theorem gated_widgetsStats :
    Gated Outcome.issues (widgetsStats (inv.withStrictJoin false))
      (widgetsStats (inv.withStrictJoin true)) := by
  unfold widgetsStats
  show Gated _ (if inv.wantsFields then _ else _) (if inv.wantsFields then _ else _)
  split
  · exact .of_gives (noIssues_widgetFieldList inv [])
  · exact (gated_widgetTable inv).followed fun _ => gives_chosen (fun _ => rfl) _

theorem gated_selectBy (select : Float → Record → Bool) :
    Gated Outcome.issues (selectBy select (inv.withStrictJoin false))
      (selectBy select (inv.withStrictJoin true)) := by
  unfold selectBy
  show Gated _ (if inv.wantsFields then _ else _) (if inv.wantsFields then _ else _)
  split
  · exact .of_gives (noIssues_widgetFieldList inv [])
  · exact .after (liftM (inv.number "threshold")) fun _ =>
      (gated_widgetTable inv).followed fun _ => .pure rfl

/-- The kill verbs are gated, so a strict run stops before it pauses anything. -/
theorem gated_killBy (target? : Float → Record → Option Record) (fields : List String) :
    Gated Outcome.issues (killBy target? fields (inv.withStrictJoin false))
      (killBy target? fields (inv.withStrictJoin true)) := by
  unfold killBy
  show Gated _ (if inv.wantsFields then _ else _) (if inv.wantsFields then _ else _)
  split
  · exact .of_gives (noIssues_widgetFieldList inv fields)
  · refine .after (liftM (inv.number "threshold")) fun _ =>
      (gated_widgetTable inv).followed fun table d o d' hon => ?_
    -- The answer has the issues of the table.
    rw [(pause_eq_ok hon).1]
    rfl

/-- **Every command, run strictly, is the lenient run behind the gate.** -/
theorem gated_handle :
    Gated Outcome.issues (inv.withStrictJoin false).handle (inv.withStrictJoin true).handle := by
  show Gated Outcome.issues (handlerOf inv.platform inv.command.verb (inv.withStrictJoin false))
    (handlerOf inv.platform inv.command.verb (inv.withStrictJoin true))
  apply handlerOf_cases (motive := fun _ handler =>
    Gated Outcome.issues (handler (inv.withStrictJoin false)) (handler (inv.withStrictJoin true)))
  case list => exact .of_gives (noIssues_listCampaigns _)
  case trackerList => exact .of_gives (noIssues_trackerList _)
  case stats => exact gated_campaignStats inv
  case trackerStats => exact .of_gives (noIssues_trackerStats _)
  case sources => exact .of_gives (noIssues_trackerSources _)
  case spent => exact .of_gives (noIssues_spent _)
  case botTraffic => exact gated_botTraffic inv
  case widgetsTop => exact gated_widgetsTop inv
  case widgetsStats => exact gated_widgetsStats inv
  case widgetsHighCpa => exact gated_selectBy inv isHighCpa
  case widgetsLowCpa => exact gated_selectBy inv isLowCpa
  case widgetsKillLongtail => exact gated_killBy inv _ _
  case widgetsKillBot => exact gated_killBy inv _ _
  case widgetsTurnOnAll => exact .of_gives (noIssues_widgetsTurnOnAll _)

end Handler

/-! ## Messages

Settings that differ in strictness read every message alike, so the gate of the command is the gate
of the message. That a stopped run pauses nothing is not part of the gate: a command that fails
changes nothing that lasts. -/

namespace Bot

open AdOps.Action

/-- A message up to what its handler gives; the flags that shape the output come after that. -/
def handled (s : Settings) (today : Date) (message : String) : Action Outcome := do
  Invocation.handle ⟨← Command.parse s message, s, today⟩

/-- Strictness does not matter until the command is handled. -/
theorem handled_strictJoin (s : Settings) (today : Date) (message : String) (strict : Bool) :
    handled { s with strictJoin := strict } today message =
      liftM (Command.parse s message) >>= fun c =>
        (Invocation.withStrictJoin ⟨c, s, today⟩ strict).handle := by
  have halike : Settings.ReadAlike { s with strictJoin := strict } s := ⟨rfl, rfl, rfl, rfl, rfl⟩
  have hparse := Command.parse_congr halike message
  unfold handled
  rw [hparse]
  rfl

/-- **A message, handled strictly, is the lenient run behind the gate.** -/
theorem gated_handled (s : Settings) (today : Date) (message : String) :
    Gated Outcome.issues (handled { s with strictJoin := false } today message)
      (handled { s with strictJoin := true } today message) := by
  rw [handled_strictJoin, handled_strictJoin]
  exact .after _ fun c => Handler.gated_handle ⟨c, s, today⟩

/-- A message that fails leaves what lasts as it was. -/
theorem atomic_handled (s : Settings) (today : Date) (message : String) :
    Atomic (handled s today message) :=
  .bind (.lift _) fun _ => Handler.atomic_handle _

/-- **Strict joining is lenient joining gated on the issues.** On every desk and for every message:
if the lenient run succeeds without issues, the strict run is the same run; if it succeeds with issues,
the strict run fails with the platform, the identifier and the name of the first issue, and pauses
nothing; and if it fails, the strict run fails. -/
theorem strict_handled (s : Settings) (today : Date) (message : String) (d : Desk) :
    match (handled { s with strictJoin := false } today message).on d with
    | (.ok o, d') =>
      match o.issues with
      | [] => (handled { s with strictJoin := true } today message).on d = (.ok o, d')
      | i :: _ => ∃ p id name d'',
          i.platform = some p ∧ i.id = some id ∧ i.name = some name ∧
            (handled { s with strictJoin := true } today message).on d =
              (.error (.unjoinable p id name), d'') ∧ d''.paused = d.paused
    | (.error _, _) =>
      ∃ e d'', (handled { s with strictJoin := true } today message).on d = (.error e, d'') := by
  have hgate := gated_handled s today message d
  rcases hl : (handled { s with strictJoin := false } today message).on d with ⟨rl, dl⟩
  rcases hs : (handled { s with strictJoin := true } today message).on d with ⟨rs, ds⟩
  rw [hl, hs] at hgate
  cases hgate with
  | @clear o _ hnone =>
    dsimp only
    rw [hnone]
  | @stopped o i rest e _ _ hissues he =>
    dsimp only
    rw [hissues]
    obtain ⟨p, id, name, hp, hid, hname, rfl⟩ := he
    refine ⟨p, id, name, ds, hp, hid, hname, rfl, ?_⟩
    exact Desk.paused_congr (atomic_handled _ today message d _ ds hs)
  | failed => exact ⟨_, _, rfl⟩

end Bot

end AdOps
