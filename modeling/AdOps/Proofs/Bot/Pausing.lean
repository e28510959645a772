import AdOps.Proofs.Handler.Acting

/-!
# What a message may pause

A message that fails leaves every paused widget paused and pauses none, whatever it failed with and
whatever faults its calls ran into. A message that succeeds changes the paused widgets of the
campaign it addresses at most, and `Command.MayPause` says how.

* **`steady_run`**, **`atomic_run`** — a run has one result on alike desks, and changes nothing that
  lasts if it fails.
* **`report_paused`** — failure atomicity, and the frame of the paused widgets.
-/

namespace AdOps

/-- How a command that succeeds may change the paused widgets of a campaign on a platform. -/
def Command.MayPause (c : Command) (p : Platform) (campaign : String) (before after : NameSet) :
    Prop :=
  if c.platform = p ∧ c.args.text? "campaign_id" = some campaign ∧
      c.args.switch "list_fields" = false then
    match c.verb with
    | .widgetsKillLongtail | .widgetsKillBot => ∀ id ∈ before, id ∈ after
    | .widgetsTurnOnAll => after = NameSet.empty
    | _ => after = before
  else after = before

namespace Command.MayPause

variable {c : Command} {p : Platform} {campaign : String} {before after : NameSet}

/-- A command that does not act may change nothing, and changes nothing. -/
theorem of_not_acts (h : ¬ c.Acts) : c.MayPause p campaign before before := by
  unfold MayPause
  split
  · next haddressed =>
    split
    · exact fun _ hid => hid
    · exact fun _ hid => hid
    -- This verb acts, unless fields were asked for.
    · next hverb => exact absurd ⟨.inr (.inr hverb), haddressed.2.2⟩ h
    · rfl
  · rfl

/-- A campaign that is not addressed stays as it is. -/
theorem of_not_addressed (h : ¬ (p = c.platform ∧ c.args.text? "campaign_id" = some campaign)) :
    c.MayPause p campaign before before := by
  unfold MayPause
  rw [if_neg]
  rintro ⟨hp, hcampaign, -⟩
  exact h ⟨hp.symm, hcampaign⟩

/-- A kill verb adds widgets to the paused ones of its campaign. -/
theorem of_kill (hverb : c.verb = .widgetsKillLongtail ∨ c.verb = .widgetsKillBot)
    (hdata : c.args.switch "list_fields" = false)
    (hcampaign : c.args.text? "campaign_id" = some campaign) (ids : List String) :
    c.MayPause c.platform campaign before (before.insertAll ids) := by
  have hsub : ∀ id ∈ before, id ∈ before.insertAll ids := fun id hid =>
    NameSet.mem_insertAll.2 (.inr hid)
  unfold MayPause
  rw [if_pos ⟨rfl, hcampaign, hdata⟩]
  rcases hverb with hverb | hverb
  · rw [hverb]
    exact hsub
  · rw [hverb]
    exact hsub

/-- Turning on leaves no widget of its campaign paused. -/
theorem of_turnOnAll (hverb : c.verb = .widgetsTurnOnAll)
    (hdata : c.args.switch "list_fields" = false)
    (hcampaign : c.args.text? "campaign_id" = some campaign) :
    c.MayPause c.platform campaign before NameSet.empty := by
  unfold MayPause
  rw [if_pos ⟨rfl, hcampaign, hdata⟩, hverb]

end Command.MayPause

/-- Where the paused widgets of one campaign are replaced, it is enough to look at these. -/
theorem Command.mayPause_pausedWith {c : Command} {d : Desk} {id : String} {ids : NameSet}
    (hid : c.args.text? "campaign_id" = some id)
    (h : c.MayPause c.platform id (d.paused c.platform id) ids) (p : Platform) (campaign : String) :
    c.MayPause p campaign (d.paused p campaign) (d.pausedWith c.platform id ids p campaign) := by
  unfold Desk.pausedWith
  by_cases haddressed : p = c.platform ∧ campaign = id
  · rw [if_pos haddressed]
    obtain ⟨rfl, rfl⟩ := haddressed
    exact h
  -- Any other campaign, or the same one on another platform, is as it was.
  · rw [if_neg haddressed]
    apply MayPause.of_not_addressed
    rintro ⟨hp, hcampaign⟩
    exact haddressed ⟨hp, Option.some.inj (hcampaign.symm.trans hid)⟩

namespace Handler

/-- **What a command that succeeds changes of the paused widgets.** -/
theorem mayPause_of_handle {inv : Invocation} {d d' : Desk} {o : Outcome}
    (h : inv.handle.on d = (.ok o, d')) (p : Platform) (campaign : String) :
    inv.command.MayPause p campaign (d.paused p campaign) (d'.paused p campaign) := by
  by_cases hacts : inv.command.Acts
  · obtain ⟨hverb, hdata⟩ := hacts
    -- The kill verbs differ in what they select only.
    have hkill : ∀ target? fields,
        (inv.command.verb = .widgetsKillLongtail ∨ inv.command.verb = .widgetsKillBot) →
          (killBy target? fields inv).on d = (.ok o, d') →
            inv.command.MayPause p campaign (d.paused p campaign) (d'.paused p campaign) := by
      intro target? fields hverb hon
      obtain ⟨_, _, s, -, -, -, hpaused⟩ := killBy_eq_ok hdata hon
      rw [hpaused]
      exact Command.mayPause_pausedWith s.id_eq (.of_kill hverb hdata s.id_eq _) p campaign
    rcases handle_of_acts hverb with ⟨heq, hv⟩ | ⟨heq, hv⟩ | ⟨heq, hv⟩
    · rw [heq] at h
      exact hkill _ _ (.inl hv) h
    · rw [heq] at h
      exact hkill _ _ (.inr hv) h
    · rw [heq] at h
      obtain ⟨id, hid, hpaused⟩ := widgetsTurnOnAll_eq_ok hdata h
      rw [hpaused]
      exact Command.mayPause_pausedWith hid (.of_turnOnAll hv hdata hid) p campaign
  · rw [Desk.paused_congr ((reads_handle hacts).lasting_eq h)]
    exact .of_not_acts hacts

end Handler

namespace Bot

open AdOps.Action

variable (b : Bot) (today : Date) (message : String)

/-- A run reads the line, handles the command and shapes the outcome. -/
theorem run_eq :
    b.run today message = liftM (b.parse message) >>= fun c =>
      Invocation.handle ⟨c, b.settings, today⟩ >>= fun o => pure (o.shape c.args) := rfl

/-- An answer is the response to the result of the run, on the desk the run leaves. -/
theorem answer_eq (d : Desk) :
    b.answer today message d =
      (b.respond message ((b.run today message).on d).1, ((b.run today message).on d).2) := rfl

/-- **A run has one result on alike desks**, and leaves them alike. -/
theorem steady_run : Steady (b.run today message) :=
  (Steady.lift _).bind fun _ => (Handler.steady_handle _).bind fun _ => .pure _

/-- **A run that fails leaves what lasts of a desk as it was.** -/
theorem atomic_run : Atomic (b.run today message) :=
  .bind (.lift _) fun _ => (Handler.atomic_handle _).bind_pure _

/-- A run that succeeds is the run of a command, and its outcome is shaped. -/
theorem run_eq_ok {d d' : Desk} {o : Outcome} (h : (b.run today message).on d = (.ok o, d')) :
    ∃ c o', b.parse message = .ok c ∧ o = o'.shape c.args ∧
      (Invocation.handle ⟨c, b.settings, today⟩).on d = (.ok o', d') := by
  rw [run_eq, on_bind_eq_ok] at h
  obtain ⟨c, d₁, hparse, h⟩ := h
  -- Reading the line touches no desk, and shaping does not either.
  obtain ⟨hc, rfl⟩ := on_lift_eq_ok hparse
  rw [on_bind_eq_ok] at h
  obtain ⟨o', d₂, hhandle, h⟩ := h
  obtain ⟨rfl, rfl⟩ := on_pure_eq_ok h
  exact ⟨c, o', hc, rfl, hhandle⟩

/-- The report of a run that fails. -/
theorem report_of_error {d d' : Desk} {e : Failure}
    (h : (b.run today message).on d = (.error e, d')) :
    b.report today message d =
      (⟨message, (b.parse message).toOption, b.respond message (.error e), some e⟩, d') := by
  unfold report
  rw [show (b.run today message).run.run d = (.error e, d') from h]

/-- The report of a run that succeeds. -/
theorem report_of_ok {d d' : Desk} {o : Outcome} (h : (b.run today message).on d = (.ok o, d')) :
    b.report today message d =
      (⟨message, (b.parse message).toOption, b.respond message (.ok o), none⟩, d') := by
  unfold report
  rw [show (b.run today message).run.run d = (.ok o, d') from h]

/-- **Failure atomicity and frame.** A message that ends in a failure, of whatever kind, changes no
paused widgets. One that succeeds changes those of the campaign that its command addresses, on the
platform that it addresses, and these only as its verb may; a command that asks for field names
changes none. -/
theorem report_paused (d : Desk) :
    match b.report today message d with
    | (⟨_, _, _, some _⟩, d') => d'.paused = d.paused
    | (⟨_, command, _, none⟩, d') =>
      ∃ c, command = some c ∧
        ∀ p campaign, c.MayPause p campaign (d.paused p campaign) (d'.paused p campaign) := by
  rcases hrun : (b.run today message).on d with ⟨r, d'⟩
  cases r with
  -- What is paused is among what lasts, and a failure changes none of that.
  | error e =>
    rw [report_of_error b today message hrun]
    exact Desk.paused_congr (atomic_run b today message d e d' hrun)
  | ok o =>
    rw [report_of_ok b today message hrun]
    obtain ⟨c, o', hparse, -, hhandle⟩ := run_eq_ok b today message hrun
    refine ⟨c, ?_, Handler.mayPause_of_handle hhandle⟩
    rw [hparse]
    rfl

end Bot
end AdOps
