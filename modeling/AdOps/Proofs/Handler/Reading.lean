import AdOps.Bot
import AdOps.Proofs.Service.Calls

/-!
# Verbs that only read

Most verbs look at the services and change nothing that lasts. Each handler is read off piece by
piece: the calls it makes are reading, and so is what it does between them.

* **`reads_widgetTable`** — putting the table of a widget verb together is reading.
* **`reads_handle`** — a command is reading unless it pauses or resumes widgets.
-/

namespace AdOps

/-- The verb pauses or resumes widgets. -/
def Verb.Acts (v : Verb) : Prop :=
  v = .widgetsKillLongtail ∨ v = .widgetsKillBot ∨ v = .widgetsTurnOnAll

instance (v : Verb) : Decidable v.Acts := inferInstanceAs (Decidable (_ ∨ _ ∨ _))

/-- The command pauses or resumes widgets: its verb does, and data are asked for. -/
def Command.Acts (c : Command) : Prop := c.verb.Acts ∧ c.args.switch "list_fields" = false

instance (c : Command) : Decidable c.Acts := inferInstanceAs (Decidable (_ ∧ _))

namespace Handler

open AdOps.Action

/-! ## Campaign verbs

Reading is closed under sequences of steps. So each handler is taken apart along its own text, and
what is left are the calls, which are known to be reading, and results that nothing is called for.
-/

/-- Showing the records of a campaign, which has to exist, is reading. -/
theorem reads_found (campaign? : Option String) (campaigns : List Record) :
    Reads (match campaign? with
      | none => pure (Outcome.records campaigns)
      | some id =>
        if (campaigns.filter fun c => c.id? == some id).isEmpty then
          throw (Failure.invalidCampaign id) >>= fun (_ : PUnit) =>
            pure (Outcome.records (campaigns.filter fun c => c.id? == some id))
        else pure (Outcome.records (campaigns.filter fun c => c.id? == some id))) := by
  cases campaign? with
  | none => exact .pure _
  | some id =>
    show Reads (if (campaigns.filter fun c => c.id? == some id).isEmpty then _ else _)
    split
    · exact (Reads.throw _).bind fun _ => .pure _
    · exact .pure _

/-- What is shown of a campaign, which has to exist, is records without issues. -/
theorem gives_found {P : Outcome → Prop} (hP : ∀ rs, P (.records rs)) (campaign? : Option String)
    (campaigns : List Record) :
    Gives P (match campaign? with
      | none => pure (Outcome.records campaigns)
      | some id =>
        if (campaigns.filter fun c => c.id? == some id).isEmpty then
          throw (Failure.invalidCampaign id) >>= fun (_ : PUnit) =>
            pure (Outcome.records (campaigns.filter fun c => c.id? == some id))
        else pure (Outcome.records (campaigns.filter fun c => c.id? == some id))) := by
  cases campaign? with
  | none => exact .pure (hP _)
  | some id =>
    show Gives P (if (campaigns.filter fun c => c.id? == some id).isEmpty then _ else _)
    split
    · exact .bind _ fun _ => .pure (hP _)
    · exact .pure (hP _)

theorem reads_listCampaigns (inv : Invocation) : Reads (listCampaigns inv) := by
  refine (reads_network _).bind fun _ => ?_
  split
  · exact (reads_campaignFields _).bind fun _ => .pure _
  · exact (Action.reads_listCampaigns _).bind fun campaigns => reads_found _ campaigns

/-- To get statistics is reading, with the check that the campaign exists. -/
theorem reads_checkedStats (inv : Invocation) (w : Window) : Reads (checkedStats inv w) := by
  refine (reads_campaignStats _ _ w).bind fun stats => ?_
  cases inv.campaign? with
  | none => exact .pure stats
  | some id =>
    show Reads (if stats.isEmpty then _ else _)
    split
    · refine (reads_findCampaign _ id).bind fun found => ?_
      split
      · exact (Reads.throw _).bind fun _ => .pure stats
      · exact .pure stats
    · exact .pure stats

/-- To join them is reading. -/
theorem reads_joinedStats (inv : Invocation) : Reads (joinedStats inv) :=
  (Reads.lift _).bind fun w =>
    (reads_checkedStats inv w).bind fun _ =>
      (TrackerAction.reads_campaignStats none w).bind fun _ => .lift _

theorem reads_campaignStats (inv : Invocation) : Reads (campaignStats inv) := by
  refine (reads_network _).bind fun _ => ?_
  split
  · exact (reads_campaignFields _).bind fun _ =>
      TrackerAction.reads_campaignFields.bind fun _ => .pure _
  · exact (reads_joinedStats inv).bind fun _ => .pure _

theorem reads_spent (inv : Invocation) : Reads (spent inv) := by
  refine (reads_network _).bind fun _ => ?_
  split
  · exact .pure _
  · exact (Reads.lift _).bind fun w => (reads_checkedStats inv w).bind fun _ => .pure _

theorem reads_botTraffic (inv : Invocation) : Reads (botTraffic inv) := by
  unfold botTraffic
  split
  · exact .pure _
  · exact (reads_joinedStats inv).bind fun _ => .pure _

/-! ## Verbs of the tracker

The same for the handlers that ask nobody but the tracker. -/

theorem reads_trackerList (inv : Invocation) : Reads (trackerList inv) := by
  unfold trackerList
  split
  · exact TrackerAction.reads_campaignFields.bind fun _ => .pure _
  · exact TrackerAction.reads_listCampaigns.bind fun campaigns => reads_found _ campaigns

theorem reads_trackerSources (inv : Invocation) : Reads (trackerSources inv) := by
  unfold trackerSources
  split
  · exact TrackerAction.reads_sourceFields.bind fun _ => .pure _
  · exact (Reads.lift _).bind fun w => (TrackerAction.reads_listSources w).bind fun _ => .pure _

/-- To fill in a name is reading, whatever the cache does with it. -/
theorem reads_withCampaignName (r : Record) : Reads (withCampaignName r) := by
  unfold withCampaignName
  split
  · refine (TrackerAction.reads_campaignName _).bind fun name => ?_
    cases name with
    | some name => exact .pure _
    | none => exact .pure r
  · exact .pure r

theorem reads_trackerStats (inv : Invocation) : Reads (trackerStats inv) := by
  unfold trackerStats
  split
  · exact TrackerAction.reads_campaignFields.bind fun _ => .pure _
  · refine (Reads.lift _).bind fun w =>
      (TrackerAction.reads_campaignStats _ w).bind fun rows => ?_
    exact (Reads.mapM reads_withCampaignName rows).bind fun _ => .pure _

/-! ## Widget verbs

The table takes several calls, and none of them changes anything that lasts. -/

/-- **Putting the table of a widget verb together is reading.** -/
theorem reads_widgetTable (inv : Invocation) : Reads (widgetTable inv) := by
  refine (reads_network _).bind fun _ => (Reads.lift _).bind fun id =>
    (reads_findCampaign _ id).bind fun found => ?_
  cases found with
  | none => exact .throw _
  | some campaign =>
    refine (Reads.lift _).bind fun w => (reads_widgetStats _ id w).bind fun own => ?_
    dsimp only
    split
    · exact (TrackerAction.reads_widgetStats _ _ w).bind fun _ => .pure _
    · exact .throw _
    · exact .pure _

theorem reads_widgetFieldList (inv : Invocation) (extra : List String) :
    Reads (widgetFieldList inv extra) :=
  (reads_widgetFields _).bind fun _ => .pure _

theorem reads_widgetsTop (inv : Invocation) : Reads (widgetsTop inv) := by
  unfold widgetsTop
  split
  · exact reads_widgetFieldList inv _
  · exact (reads_widgetTable inv).bind fun _ => .pure _

theorem reads_widgetsStats (inv : Invocation) : Reads (widgetsStats inv) := by
  unfold widgetsStats
  split
  · exact reads_widgetFieldList inv _
  · refine (reads_widgetTable inv).bind fun table => ?_
    cases inv.args.text? "widget_id" with
    | none => exact .pure _
    | some id =>
      show Reads (if (table.rows.filter fun r => r.id? == some id).isEmpty then _ else _)
      split
      · exact (Reads.throw _).bind fun _ => .pure _
      · exact .pure _

/-- What is shown of a table, or of one widget that has to be in it, is rows of the table. -/
theorem gives_chosen {P : Outcome → Prop} {table : WidgetTable} (hP : ∀ rows, P (respond table rows))
    (id? : Option String) :
    Gives P (match id? with
      | none => pure (respond table table.rows)
      | some id =>
        if (table.rows.filter fun r => r.id? == some id).isEmpty then
          throw (Failure.noSuchWidget id) >>= fun (_ : PUnit) =>
            pure (respond table (table.rows.filter fun r => r.id? == some id))
        else pure (respond table (table.rows.filter fun r => r.id? == some id))) := by
  cases id? with
  | none => exact .pure (hP _)
  | some id =>
    show Gives P (if (table.rows.filter fun r => r.id? == some id).isEmpty then _ else _)
    split
    · exact .bind _ fun _ => .pure (hP _)
    · exact .pure (hP _)

/-- To select rows by a threshold is reading. -/
theorem reads_selectBy (select : Float → Record → Bool) (inv : Invocation) :
    Reads (selectBy select inv) := by
  unfold selectBy
  split
  · exact reads_widgetFieldList inv _
  · exact (Reads.lift _).bind fun _ => (reads_widgetTable inv).bind fun _ => .pure _

/-! ## Verbs that act, asked for their fields

Asked for its fields, a verb that acts does not come to the call that acts. -/

/-- A kill verb that is asked for its fields reads. -/
theorem reads_killBy_fields (target? : Float → Record → Option Record) (fields : List String)
    {inv : Invocation} (h : inv.wantsFields = true) : Reads (killBy target? fields inv) := by
  unfold killBy
  rw [if_pos h]
  exact reads_widgetFieldList inv fields

/-- So does the verb that resumes. -/
theorem reads_widgetsTurnOnAll_fields {inv : Invocation} (h : inv.wantsFields = true) :
    Reads (widgetsTurnOnAll inv) := by
  refine (reads_network _).bind fun _ => ?_
  rw [if_pos h]
  exact .pure _

/-! ## All verbs

Handlers are found in a table by platform and verb. A property of all commands is a property of the
handlers in the table, one for each verb except where the tracker has its own. -/

/-- What holds of every handler for its verb holds of the handler of every verb on every platform. The
tracker has its own `list` and `stats`; of every other verb there is one handler. -/
theorem handlerOf_cases {motive : Verb → Handler → Prop}
    (list : motive .list listCampaigns) (trackerList : motive .list trackerList)
    (stats : motive .stats campaignStats) (trackerStats : motive .stats trackerStats)
    (sources : motive .sources trackerSources) (spent : motive .spent spent)
    (botTraffic : motive .botTraffic botTraffic) (widgetsTop : motive .widgetsTop widgetsTop)
    (widgetsStats : motive .widgetsStats widgetsStats)
    (widgetsHighCpa : motive .widgetsHighCpa widgetsHighCpa)
    (widgetsLowCpa : motive .widgetsLowCpa widgetsLowCpa)
    (widgetsKillLongtail : motive .widgetsKillLongtail widgetsKillLongtail)
    (widgetsKillBot : motive .widgetsKillBot widgetsKillBot)
    (widgetsTurnOnAll : motive .widgetsTurnOnAll widgetsTurnOnAll) (p : Platform) (v : Verb) :
    motive v (handlerOf p v) := by
  cases v with
  | list => cases p <;> assumption
  | stats => cases p <;> assumption
  | sources => cases p <;> exact sources
  | spent => cases p <;> exact spent
  | botTraffic => cases p <;> exact botTraffic
  | widgetsTop => cases p <;> exact widgetsTop
  | widgetsStats => cases p <;> exact widgetsStats
  | widgetsHighCpa => cases p <;> exact widgetsHighCpa
  | widgetsLowCpa => cases p <;> exact widgetsLowCpa
  | widgetsKillLongtail => cases p <;> exact widgetsKillLongtail
  | widgetsKillBot => cases p <;> exact widgetsKillBot
  | widgetsTurnOnAll => cases p <;> exact widgetsTurnOnAll

/-- **Every verb that neither pauses nor resumes is reading.** -/
theorem reads_handlerOf {v : Verb} (hv : ¬ v.Acts) (p : Platform) (inv : Invocation) :
    Reads (handlerOf p v inv) := by
  revert hv
  apply handlerOf_cases (motive := fun v handler => ¬ v.Acts → Reads (handler inv))
  case list => exact fun _ => reads_listCampaigns inv
  case trackerList => exact fun _ => reads_trackerList inv
  case stats => exact fun _ => reads_campaignStats inv
  case trackerStats => exact fun _ => reads_trackerStats inv
  case sources => exact fun _ => reads_trackerSources inv
  case spent => exact fun _ => reads_spent inv
  case botTraffic => exact fun _ => reads_botTraffic inv
  case widgetsTop => exact fun _ => reads_widgetsTop inv
  case widgetsStats => exact fun _ => reads_widgetsStats inv
  case widgetsHighCpa => exact fun _ => reads_selectBy isHighCpa inv
  case widgetsLowCpa => exact fun _ => reads_selectBy isLowCpa inv
  -- The other three verbs act.
  case widgetsKillLongtail => exact fun hv => absurd (.inl rfl) hv
  case widgetsKillBot => exact fun hv => absurd (.inr (.inl rfl)) hv
  case widgetsTurnOnAll => exact fun hv => absurd (.inr (.inr rfl)) hv

/-- The verbs that act have one handler each, on all platforms. -/
theorem handle_of_acts {inv : Invocation} (h : inv.command.verb.Acts) :
    (inv.handle = widgetsKillLongtail inv ∧ inv.command.verb = .widgetsKillLongtail) ∨
      (inv.handle = widgetsKillBot inv ∧ inv.command.verb = .widgetsKillBot) ∨
        (inv.handle = widgetsTurnOnAll inv ∧ inv.command.verb = .widgetsTurnOnAll) := by
  have hhandle : inv.handle = handlerOf inv.platform inv.command.verb inv := rfl
  rcases h with hverb | hverb | hverb
  · refine .inl ⟨?_, hverb⟩
    rw [hhandle, hverb]
    cases inv.platform <;> rfl
  · refine .inr (.inl ⟨?_, hverb⟩)
    rw [hhandle, hverb]
    cases inv.platform <;> rfl
  · refine .inr (.inr ⟨?_, hverb⟩)
    rw [hhandle, hverb]
    cases inv.platform <;> rfl

/-- **A command that does not act is reading**: its verb only reads, or it asks for fields. -/
theorem reads_handle {inv : Invocation} (h : ¬ inv.command.Acts) : Reads inv.handle := by
  by_cases hverb : inv.command.verb.Acts
  · -- The verb acts, so the command asks for fields.
    have hfields : inv.wantsFields = true := by
      cases hf : inv.wantsFields with
      | true => rfl
      | false => exact absurd ⟨hverb, hf⟩ h
    rcases handle_of_acts hverb with ⟨heq, -⟩ | ⟨heq, -⟩ | ⟨heq, -⟩
    · rw [heq]
      exact reads_killBy_fields _ _ hfields
    · rw [heq]
      exact reads_killBy_fields _ _ hfields
    · rw [heq]
      exact reads_widgetsTurnOnAll_fields hfields
  · exact reads_handlerOf hverb _ inv

end Handler
end AdOps
