import AdOps.Proofs.Handler.Acting
import AdOps.Proofs.Service.Noted

/-!
# The windows that commands ask for

Every verb but two reads a time window. Its handler works the window out once and hands it to every
stats call it makes, so all services note one window.

* **`notes_widgetTable`** — the table of a widget verb is put together from one window.
* **`notes_handle`** — a command of a verb that reads a window notes its window and no other.
* **`silent_handle`** — a command that asks for names of fields notes nothing.
-/

namespace AdOps

/-- The verb reads a time window: so says its grammar. -/
def Verb.Windowed (v : Verb) : Prop := ∃ g ∈ Grammar.all, g.verb = v ∧ g.windowed = true

instance (v : Verb) : Decidable v.Windowed :=
  inferInstanceAs (Decidable (∃ g ∈ Grammar.all, g.verb = v ∧ g.windowed = true))

namespace Handler

open AdOps.Action

variable {inv : Invocation}

/-- A handler that is asked for data goes past the names of its fields. -/
theorem ite_wantsFields {α : Type} (hdata : inv.wantsFields = false) (x y : Action α) :
    (if inv.wantsFields then x else y) = y :=
  if_neg (by simp [hdata])

/-! ## Campaign verbs

A handler works its window out first, and from there on whatever it calls is given this window or
none. The handlers are followed down their steps: a call that takes the window notes it, every other
step is silent. -/

/-- Statistics note their window. To look a campaign up notes nothing. -/
theorem notes_checkedStats (inv : Invocation) (w : Window) :
    Notes (.ok w) (checkedStats inv w) := by
  refine (notes_campaignStats _ _ w).followed fun stats => ?_
  cases inv.campaign? with
  | none => exact .pure stats
  | some id =>
    show Silent (if stats.isEmpty then _ else _)
    split
    · refine (silent_findCampaign _ id).bind fun found => ?_
      split
      · exact (Silent.throw _).bind fun _ => .pure stats
      · exact .pure stats
    · exact .pure stats

/-- Joined statistics ask two services about one window. -/
theorem notes_joinedStats (inv : Invocation) : Notes inv.window (joinedStats inv) :=
  .window fun w => (notes_checkedStats inv w).bind fun w' hw _ => by
    obtain rfl : w = w' := Except.ok.inj hw
    exact (TrackerAction.notes_campaignStats none w).onlyNotes.bind fun _ =>
      (Silent.lift _).onlyNotes w

theorem notes_campaignStats (hdata : inv.wantsFields = false) :
    Notes inv.window (campaignStats inv) := by
  -- To look the network up notes nothing.
  refine .after (silent_network _) fun _ => ?_
  rw [ite_wantsFields hdata]
  exact (notes_joinedStats inv).followed fun _ => .pure _

theorem notes_spent (hdata : inv.wantsFields = false) : Notes inv.window (spent inv) := by
  refine .after (silent_network _) fun _ => ?_
  rw [ite_wantsFields hdata]
  exact .window fun w => (notes_checkedStats inv w).followed fun _ => .pure _

theorem notes_botTraffic (hdata : inv.wantsFields = false) :
    Notes inv.window (botTraffic inv) := by
  unfold botTraffic
  rw [ite_wantsFields hdata]
  exact (notes_joinedStats inv).followed fun _ => .pure _

/-! ## Verbs of the tracker

Names that are filled in are asked for without a window. -/

theorem notes_trackerSources (hdata : inv.wantsFields = false) :
    Notes inv.window (trackerSources inv) := by
  unfold trackerSources
  rw [ite_wantsFields hdata]
  exact .window fun w => (TrackerAction.notes_listSources w).followed fun _ => .pure _

/-- To fill in a name notes nothing. -/
theorem silent_withCampaignName (r : Record) : Silent (withCampaignName r) := by
  unfold withCampaignName
  split
  · refine (TrackerAction.silent_campaignName _).bind fun name => ?_
    cases name with
    | some name => exact .pure _
    | none => exact .pure r
  · exact .pure r

theorem notes_trackerStats (hdata : inv.wantsFields = false) :
    Notes inv.window (trackerStats inv) := by
  unfold trackerStats
  rw [ite_wantsFields hdata]
  exact .window fun w => (TrackerAction.notes_campaignStats _ w).followed fun rows =>
    (Silent.mapM silent_withCampaignName rows).bind fun _ => .pure _

/-! ## Widget verbs

All of them begin with the table, which two services may have a part in. What is done with the table
asks for nothing more, or only pauses. -/

/-- **The table of a widget verb is put together from one window.** -/
theorem notes_widgetTable (inv : Invocation) : Notes inv.window (widgetTable inv) := by
  refine .after (silent_network _) fun _ => .after (.lift _) fun id =>
    .after (silent_findCampaign _ id) fun found => ?_
  cases found with
  | none => exact .throw _
  | some campaign =>
    refine .window fun w => (notes_widgetStats _ id w).bind fun w' hw own => ?_
    obtain rfl : w = w' := Except.ok.inj hw
    -- With a link the tracker is asked about the same window; without one nobody is.
    dsimp only
    split
    · exact (TrackerAction.notes_widgetStats _ _ w).onlyNotes.bind fun _ =>
        (Silent.pure _).onlyNotes w
    · exact (Silent.throw _).onlyNotes w
    · exact (Silent.pure _).onlyNotes w

theorem notes_widgetsTop (hdata : inv.wantsFields = false) :
    Notes inv.window (widgetsTop inv) := by
  unfold widgetsTop
  rw [ite_wantsFields hdata]
  exact (notes_widgetTable inv).followed fun _ => .pure _

theorem notes_widgetsStats (hdata : inv.wantsFields = false) :
    Notes inv.window (widgetsStats inv) := by
  unfold widgetsStats
  rw [ite_wantsFields hdata]
  refine (notes_widgetTable inv).followed fun table => ?_
  cases inv.args.text? "widget_id" with
  | none => exact .pure _
  | some id =>
    show Silent (if (table.rows.filter fun r => r.id? == some id).isEmpty then _ else _)
    split
    · exact (Silent.throw _).bind fun _ => .pure _
    · exact .pure _

theorem notes_selectBy (select : Float → Record → Bool) (hdata : inv.wantsFields = false) :
    Notes inv.window (selectBy select inv) := by
  unfold selectBy
  rw [ite_wantsFields hdata]
  exact .after (.lift _) fun _ => (notes_widgetTable inv).followed fun _ => .pure _

/-- To pause notes nothing. -/
theorem silent_pause (inv : Invocation) (table : WidgetTable) (targets : List Record) :
    Silent (pause inv table targets) := by
  cases hids : (targets.filterMap Record.id?).isEmpty with
  | true =>
    rw [pause_of_isEmpty inv table targets hids]
    exact .pure _
  | false =>
    rw [pause_of_not_isEmpty inv table targets hids]
    exact (silent_pauseWidgets _ _ _).bind fun _ => .pure _

theorem notes_killBy (target? : Float → Record → Option Record) (fields : List String)
    (hdata : inv.wantsFields = false) : Notes inv.window (killBy target? fields inv) := by
  rw [killBy_of_data hdata]
  exact .after (.lift _) fun _ => (notes_widgetTable inv).followed fun table =>
    silent_pause inv table _

/-! ## All verbs

Whichever handler the table of verbs gives, it notes the window of the invocation, except for the
verbs whose grammar has none. -/

/-- **A command of a verb that reads a window notes its window and no other**, if data are asked
for. -/
theorem notes_handle (hverb : inv.command.verb.Windowed) (hdata : inv.wantsFields = false) :
    Notes inv.window inv.handle := by
  have hhandle : inv.handle = handlerOf inv.platform inv.command.verb inv := rfl
  rw [hhandle]
  revert hverb
  apply handlerOf_cases (motive := fun v handler => v.Windowed → Notes inv.window (handler inv))
  case stats => exact fun _ => notes_campaignStats hdata
  case trackerStats => exact fun _ => notes_trackerStats hdata
  case sources => exact fun _ => notes_trackerSources hdata
  case spent => exact fun _ => notes_spent hdata
  case botTraffic => exact fun _ => notes_botTraffic hdata
  case widgetsTop => exact fun _ => notes_widgetsTop hdata
  case widgetsStats => exact fun _ => notes_widgetsStats hdata
  case widgetsHighCpa => exact fun _ => notes_selectBy isHighCpa hdata
  case widgetsLowCpa => exact fun _ => notes_selectBy isLowCpa hdata
  case widgetsKillLongtail => exact fun _ => notes_killBy longtailTarget? _ hdata
  case widgetsKillBot => exact fun _ => notes_killBy botTarget? _ hdata
  -- The other two verbs do not read a window.
  case list => exact fun hverb => absurd hverb (by decide)
  case trackerList => exact fun hverb => absurd hverb (by decide)
  case widgetsTurnOnAll => exact fun hverb => absurd hverb (by decide)

/-! ## Names of fields

The choice between names and data comes before any window is worked out. -/

/-- A handler that is asked for the names of its fields goes no further. -/
theorem silent_of_wantsFields (hnames : inv.wantsFields = true) {x y : Action Outcome}
    (hx : Silent x) : Silent (if inv.wantsFields then x else y) := by
  rw [if_pos hnames]
  exact hx

theorem silent_widgetFieldList (inv : Invocation) (extra : List String) :
    Silent (widgetFieldList inv extra) :=
  (silent_widgetFields _).bind fun _ => .pure _

/-- **A command that asks for names of fields notes nothing.** -/
theorem silent_handle (hnames : inv.wantsFields = true) : Silent inv.handle := by
  have hhandle : inv.handle = handlerOf inv.platform inv.command.verb inv := rfl
  rw [hhandle]
  apply handlerOf_cases (motive := fun _ handler => Silent (handler inv))
  case list =>
    exact (silent_network _).bind fun _ =>
      silent_of_wantsFields hnames ((silent_campaignFields _).bind fun _ => .pure _)
  case trackerList =>
    exact silent_of_wantsFields hnames (TrackerAction.silent_campaignFields.bind fun _ => .pure _)
  case stats =>
    exact (silent_network _).bind fun _ => silent_of_wantsFields hnames <|
      (silent_campaignFields _).bind fun _ =>
        TrackerAction.silent_campaignFields.bind fun _ => .pure _
  case trackerStats =>
    exact silent_of_wantsFields hnames (TrackerAction.silent_campaignFields.bind fun _ => .pure _)
  case sources =>
    exact silent_of_wantsFields hnames (TrackerAction.silent_sourceFields.bind fun _ => .pure _)
  case spent =>
    exact (silent_network _).bind fun _ => silent_of_wantsFields hnames (.pure _)
  case botTraffic => exact silent_of_wantsFields hnames (.pure _)
  case widgetsTop => exact silent_of_wantsFields hnames (silent_widgetFieldList inv _)
  case widgetsStats => exact silent_of_wantsFields hnames (silent_widgetFieldList inv _)
  case widgetsHighCpa => exact silent_of_wantsFields hnames (silent_widgetFieldList inv _)
  case widgetsLowCpa => exact silent_of_wantsFields hnames (silent_widgetFieldList inv _)
  case widgetsKillLongtail => exact silent_of_wantsFields hnames (silent_widgetFieldList inv _)
  case widgetsKillBot => exact silent_of_wantsFields hnames (silent_widgetFieldList inv _)
  case widgetsTurnOnAll =>
    exact (silent_network _).bind fun _ => silent_of_wantsFields hnames (.pure _)

end Handler
end AdOps
