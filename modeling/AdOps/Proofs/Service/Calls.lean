import AdOps.Proofs.Service.Action
import AdOps.Proofs.Service.Step

/-!
# Calls to the services

What each call comes to on a desk, and from that which of the calls are reading, steady and atomic.
The calls that ask change windows and remembered names at most. The two that act leave alone what
lasts if they fail, and otherwise change the paused widgets of one campaign.

* **`steady_of_through`** — a call whose step does not see the windows is steady.
* **`reads_campaignName`** — what the tracker remembers does not show in its answers.
* **`paused_pauseWidgets`**, **`paused_resumeAllWidgets`** — what the two acting calls change.
-/

namespace AdOps

namespace Action

variable {α : Type}

/-! ## What the calls come to

Every call enters in the same way: it looks for its network, runs into the fault of the call if it
has one, and takes its step. Each call is told here by what it reaches and by that step. -/

/-- A network is there or it is not configured, and the desk stays as it is. -/
theorem on_network (p : Platform) (d : Desk) :
    (network p).on d =
      (match d.network? p with
        | some n => .ok n
        | none => .error (.service (.notConfigured p)), d) := by
  unfold network
  rw [on_bind_ok (on_get d)]
  cases d.network? p <;> rfl

/-- A call enters unless it has a fault. -/
theorem on_enter (p : Platform) (call : Call) (d : Desk) :
    (enter p call).on d =
      (match d.fault? p call with
        | some e => .error e
        | none => .ok (), d) := by
  unfold enter Desk.fault?
  rw [on_bind_ok (on_get d)]
  rcases d.faults p call with _ | ⟨_ | _⟩ <;> rfl

/-- A call that cannot be refused enters unless it breaks down. -/
theorem on_enterUnrefused (p : Platform) (call : Call) (d : Desk) :
    (enterUnrefused p call).on d =
      (match d.faults p call with
        | some (.crash message) => .error (Fault.crashed message)
        | _ => .ok (), d) := by
  unfold enterUnrefused
  rw [on_bind_ok (on_get d)]
  rcases d.faults p call with _ | ⟨_ | _⟩ <;> rfl

/-- A call reaches its network before it does anything else. -/
theorem on_reach (p : Platform) (call : Call) (f : Network → Action α) (d : Desk) :
    (network p >>= fun n => enter p call >>= fun _ => f n).on d =
      match d.reach p call with
      | .ok n => (f n).on d
      | .error e => (.error e, d) := by
  rw [on_bind, on_network]
  unfold Desk.reach
  cases d.network? p with
  | none => rfl
  | some n =>
    show (enter p call >>= fun _ => f n).on d = _
    rw [on_bind, on_enter]
    cases d.fault? p call <;> rfl

theorem on_listCampaigns (p : Platform) (d : Desk) :
    (listCampaigns p).on d = ((d.reach p .listCampaigns).map fun n => n.data.campaigns, d) := by
  unfold listCampaigns
  rw [on_reach]
  cases d.reach p .listCampaigns <;> rfl

/-- A campaign is looked for among those that are listed. -/
theorem on_findCampaign (p : Platform) (id : String) (d : Desk) :
    (findCampaign p id).on d =
      ((d.reach p .listCampaigns).map fun n => n.data.campaigns.find? fun c => c.id? == some id,
        d) := by
  unfold findCampaign
  rw [on_bind, on_listCampaigns]
  cases d.reach p .listCampaigns <;> rfl

theorem on_campaignStats (p : Platform) (campaign : Option String) (w : Window) (d : Desk) :
    (campaignStats p campaign w).on d =
      d.through p .campaignStats (Network.Step.campaignStats campaign w) := by
  unfold campaignStats Desk.through
  rw [on_reach]
  cases d.reach p .campaignStats <;> rfl

theorem on_widgetStats (p : Platform) (campaign : String) (w : Window) (d : Desk) :
    (widgetStats p campaign w).on d =
      d.through p .widgetStats (Network.Step.widgetStats p campaign w) := by
  unfold widgetStats Desk.through Network.Step.widgetStats
  rw [on_reach]
  cases d.reach p .widgetStats with
  | error e => rfl
  | ok n =>
    -- The window is noted whether the campaign has rows or not.
    cases h : n.widgetStats? campaign with
    | none =>
      simp only [h]
      rfl
    | some rows =>
      simp only [h]
      rfl

/-- Pausing is a step of the network that is reached. -/
theorem on_pauseWidgets (p : Platform) (campaign : String) (ids : List String) (d : Desk) :
    (pauseWidgets p campaign ids).on d =
      d.through p .pauseWidgets (Network.Step.pauseWidgets p campaign ids) := by
  unfold pauseWidgets Desk.through Network.Step.pauseWidgets
  rw [on_reach]
  cases hn : d.reach p .pauseWidgets with
  | error e => rfl
  | ok n =>
    cases h : n.pause? campaign ids with
    | none =>
      simp only [h]
      -- An unknown campaign leaves the network as it was.
      rw [Desk.setNetwork_self (Desk.network?_of_reach hn)]
      rfl
    | some n' =>
      simp only [h]
      rfl

/-- Resuming is a step of the network that is reached. -/
theorem on_resumeAllWidgets (p : Platform) (campaign : String) (d : Desk) :
    (resumeAllWidgets p campaign).on d =
      d.through p .resumeAllWidgets (Network.Step.resumeAllWidgets p campaign) := by
  unfold resumeAllWidgets Desk.through Network.Step.resumeAllWidgets
  rw [on_reach]
  cases hn : d.reach p .resumeAllWidgets with
  | error e => rfl
  | ok n =>
    cases h : n.resumeAll? campaign with
    | none =>
      simp only [h]
      rw [Desk.setNetwork_self (Desk.network?_of_reach hn)]
      rfl
    | some r =>
      simp only [h]
      rfl

/-- The campaigns that are listed are those of the network. -/
theorem campaigns_of_listCampaigns {p : Platform} {d d' : Desk} {campaigns : List Record}
    (h : (listCampaigns p).on d = (.ok campaigns, d')) :
    ∃ n, d.network? p = some n ∧ campaigns = n.data.campaigns := by
  rw [on_listCampaigns] at h
  cases hn : d.reach p .listCampaigns with
  | error e =>
    rw [hn] at h
    exact absurd (Prod.mk.inj h).1 (by simp [Except.map])
  | ok n =>
    rw [hn] at h
    exact ⟨n, Desk.network?_of_reach hn, (Except.ok.inj (Prod.mk.inj h).1).symm⟩

theorem find?_of_findCampaign {p : Platform} {id : String} {d d' : Desk} {c? : Option Record}
    (h : (findCampaign p id).on d = (.ok c?, d')) :
    ∃ n, d.network? p = some n ∧ n.data.campaigns.find? (fun c => c.id? == some id) = c? := by
  obtain ⟨campaigns, d₁, hlist, h⟩ := on_bind_eq_ok.1 h
  obtain ⟨n, hn, rfl⟩ := campaigns_of_listCampaigns hlist
  exact ⟨n, hn, (on_pure_eq_ok h).1⟩

theorem widgetStats?_of_widgetStats {p : Platform} {id : String} {w : Window} {d d' : Desk}
    {rows : List Record} (h : (widgetStats p id w).on d = (.ok rows, d')) :
    ∃ n, d.network? p = some n ∧ n.widgetStats? id = some rows := by
  rw [on_widgetStats] at h
  obtain ⟨n, hn, hr, -⟩ := Desk.through_eq_ok h
  refine ⟨n, Desk.network?_of_reach hn, ?_⟩
  unfold Network.Step.widgetStats at hr
  cases hrows : n.widgetStats? id with
  | none =>
    rw [hrows] at hr
    exact absurd hr (by simp)
  | some own =>
    rw [hrows] at hr
    exact congrArg some (Except.ok.inj hr)

/-! ## Steady, reading and atomic calls

A call inherits these properties from its step: it is steady if the step does not see the windows,
it reads if the step keeps what lasts, and it is atomic if a step that fails changes nothing. -/

section through

variable {x : Action α} {p : Platform} {call : Call} {step : Network.Step α}

/-- **A call whose step does not see the windows is steady.** -/
theorem steady_of_through (hx : ∀ d, x.on d = d.through p call step) (hstep : step.Blind) :
    Steady x := by
  intro d₁ d₂ h
  -- The desks are reached alike, so the two cases in which only one call gets through are void.
  have hreach := h.reach p call
  rw [hx, hx]
  unfold Desk.through
  cases h₁ : d₁.reach p call with
  | error e =>
    cases h₂ : d₂.reach p call with
    | ok n₂ =>
      rw [h₁, h₂] at hreach
      exact absurd hreach (by simp [Except.map])
    | error e₂ =>
      rw [h₁, h₂] at hreach
      exact ⟨congrArg Except.error (Except.error.inj hreach), h⟩
  | ok n₁ =>
    cases h₂ : d₂.reach p call with
    | error e₂ =>
      rw [h₁, h₂] at hreach
      exact absurd hreach (by simp [Except.map])
    | ok n₂ =>
      rw [h₁, h₂] at hreach
      obtain ⟨hr, hn⟩ := hstep.congr (Except.ok.inj hreach)
      exact ⟨hr, h.setNetwork p hn⟩

/-- A call reads if its step does not see the windows and keeps what lasts of the network. -/
theorem reads_of_through (hx : ∀ d, x.on d = d.through p call step) (hstep : step.Blind)
    (hkeep : ∀ n, (step n).2.lasting = n.lasting) : Reads x where
  steady := steady_of_through hx hstep
  lasting d := by
    rw [hx]
    unfold Desk.through
    cases h : d.reach p call with
    | error e => rfl
    | ok n => exact Desk.lasting_setNetwork (Desk.network?_of_reach h) (hkeep n)

/-- A call is atomic if its step changes nothing where it fails. -/
theorem atomic_of_through (hx : ∀ d, x.on d = d.through p call step)
    (hfail : ∀ n e, (step n).1 = .error e → (step n).2 = n) : Atomic x := by
  intro d e d' hon
  rw [hx] at hon
  unfold Desk.through at hon
  cases h : d.reach p call with
  | error e₁ =>
    rw [h] at hon
    obtain ⟨-, rfl⟩ := Prod.mk.inj hon
    rfl
  | ok n =>
    rw [h] at hon
    obtain ⟨hr, rfl⟩ := Prod.mk.inj hon
    rw [hfail n e hr, Desk.setNetwork_self (Desk.network?_of_reach h)]

end through

/-- What fails or does nothing by the lasting view of a desk is reading. -/
theorem reads_of_view {x : Action α} {r : Desk → Except Failure α} (hx : ∀ d, x.on d = (r d, d))
    (hr : ∀ d, r d.lasting = r d) : Reads x where
  steady d₁ d₂ h := by
    rw [hx, hx]
    refine ⟨?_, h⟩
    show r d₁ = r d₂
    rw [← hr d₁, h.lasting_eq, hr d₂]
  lasting d := by rw [hx]

theorem reads_enter (p : Platform) (call : Call) : Reads (enter p call) :=
  reads_of_view (on_enter p call) fun _ => rfl

theorem reads_enterUnrefused (p : Platform) (call : Call) : Reads (enterUnrefused p call) :=
  reads_of_view (on_enterUnrefused p call) fun _ => rfl

/-- To go on with a network is reading, if what goes on does not see the windows. -/
theorem reads_network_bind (p : Platform) {f : Network → Action α} (hf : ∀ n, Reads (f n))
    (hblind : ∀ n, f n.lasting = f n) : Reads (network p >>= f) where
  steady d₁ d₂ h := by
    have hnet := h.network? p
    rw [on_bind, on_bind, on_network, on_network]
    cases h₁ : d₁.network? p with
    | none =>
      rw [h₁] at hnet
      rw [Option.map_eq_none_iff.1 hnet.symm]
      exact ⟨rfl, h⟩
    | some n₁ =>
      rw [h₁] at hnet
      obtain ⟨n₂, h₂, hn⟩ := Option.map_eq_some_iff.1 hnet.symm
      have heq : f n₁ = f n₂ := by rw [← hblind n₁, ← hn, hblind n₂]
      rw [h₂]
      show ((f n₁).on d₁).1 = ((f n₂).on d₂).1 ∧ Desk.Alike ((f n₁).on d₁).2 ((f n₂).on d₂).2
      rw [heq]
      exact (hf n₂).steady d₁ d₂ h
  lasting d := by
    rw [on_bind, on_network]
    cases d.network? p with
    | none => rfl
    | some n => exact (hf n).lasting d

theorem reads_network (p : Platform) : Reads (discard (network p)) :=
  reads_network_bind p (fun _ => .pure ()) fun _ => rfl

theorem reads_listCampaigns (p : Platform) : Reads (listCampaigns p) :=
  reads_network_bind p (fun n => (reads_enter p _).bind fun _ => .pure n.data.campaigns)
    fun _ => rfl

theorem reads_findCampaign (p : Platform) (id : String) : Reads (findCampaign p id) :=
  (reads_listCampaigns p).bind fun _ => .pure _

theorem reads_campaignFields (p : Platform) : Reads (campaignFields p) :=
  reads_network_bind p (fun n => (reads_enterUnrefused p _).bind fun _ => .pure n.campaignFields)
    fun _ => rfl

theorem reads_widgetFields (p : Platform) : Reads (widgetFields p) :=
  reads_network_bind p (fun n => (reads_enterUnrefused p _).bind fun _ => .pure n.widgetFields)
    fun _ => rfl

theorem reads_campaignStats (p : Platform) (campaign : Option String) (w : Window) :
    Reads (campaignStats p campaign w) :=
  reads_of_through (on_campaignStats p campaign w) (Network.Step.blind_campaignStats campaign w)
    fun _ => rfl

theorem reads_widgetStats (p : Platform) (campaign : String) (w : Window) :
    Reads (widgetStats p campaign w) := by
  refine reads_of_through (on_widgetStats p campaign w)
    (Network.Step.blind_widgetStats p campaign w) fun n => ?_
  unfold Network.Step.widgetStats
  cases n.widgetStats? campaign <;> rfl

theorem steady_pauseWidgets (p : Platform) (campaign : String) (ids : List String) :
    Steady (pauseWidgets p campaign ids) :=
  steady_of_through (on_pauseWidgets p campaign ids)
    (Network.Step.blind_pauseWidgets p campaign ids)

/-- **Pausing that fails pauses nothing.** -/
theorem atomic_pauseWidgets (p : Platform) (campaign : String) (ids : List String) :
    Atomic (pauseWidgets p campaign ids) := by
  refine atomic_of_through (on_pauseWidgets p campaign ids) fun n e h => ?_
  unfold Network.Step.pauseWidgets at h ⊢
  cases hp : n.pause? campaign ids with
  | none => rfl
  | some n' =>
    rw [hp] at h
    exact absurd h (by simp)

/-- **Pausing adds to the paused widgets of its campaign** and changes nothing else that is paused.
-/
theorem paused_pauseWidgets {p : Platform} {campaign : String} {ids : List String} {d d' : Desk}
    (h : (pauseWidgets p campaign ids).on d = (.ok (), d')) :
    d'.paused = d.pausedWith p campaign ((d.paused p campaign).insertAll ids) := by
  rw [on_pauseWidgets] at h
  obtain ⟨n, hn, hr, rfl⟩ := Desk.through_eq_ok h
  have hnet : d.network? p = some n := Desk.network?_of_reach hn
  unfold Network.Step.pauseWidgets at hr ⊢
  cases hp : n.pause? campaign ids with
  | none =>
    rw [hp] at hr
    exact absurd hr (by simp)
  | some n' =>
    refine Desk.paused_setNetwork_eq hnet fun c => ?_
    rw [Desk.paused_eq hnet]
    exact Network.pausedWidgets_of_pause? hp c

theorem steady_resumeAllWidgets (p : Platform) (campaign : String) :
    Steady (resumeAllWidgets p campaign) :=
  steady_of_through (on_resumeAllWidgets p campaign)
    (Network.Step.blind_resumeAllWidgets p campaign)

/-- **Resuming that fails resumes nothing.** -/
theorem atomic_resumeAllWidgets (p : Platform) (campaign : String) :
    Atomic (resumeAllWidgets p campaign) := by
  refine atomic_of_through (on_resumeAllWidgets p campaign) fun n e h => ?_
  unfold Network.Step.resumeAllWidgets at h ⊢
  cases hp : n.resumeAll? campaign with
  | none => rfl
  | some r =>
    rw [hp] at h
    exact absurd h (by simp)

/-- **Resuming empties the paused widgets of its campaign** and changes nothing else that is
paused. -/
theorem paused_resumeAllWidgets {p : Platform} {campaign : String} {count : Nat} {d d' : Desk}
    (h : (resumeAllWidgets p campaign).on d = (.ok count, d')) :
    d'.paused = d.pausedWith p campaign NameSet.empty := by
  rw [on_resumeAllWidgets] at h
  obtain ⟨n, hn, hr, rfl⟩ := Desk.through_eq_ok h
  have hnet : d.network? p = some n := Desk.network?_of_reach hn
  unfold Network.Step.resumeAllWidgets at hr ⊢
  cases hp : n.resumeAll? campaign with
  | none =>
    rw [hp] at hr
    exact absurd hr (by simp)
  | some r =>
    obtain ⟨count', n'⟩ := r
    exact Desk.paused_setNetwork_eq hnet (Network.pausedWidgets_of_resumeAll? hp)

end Action

/-! ## Calls to the tracker

The tracker is always there, and all its calls read: they note windows and remember names, and
neither shows in an answer as long as the tracker is faithful. -/

namespace TrackerAction

open AdOps.Action

variable {α : Type}

/-- A change of what the tracker remembers or notes is reading, if it stays faithful. -/
theorem reads_modify (g : Tracker → Tracker) (hdata : ∀ t, (g t).data = t.data)
    (hg : ∀ t, t.Faithful → (g t).Faithful) :
    Reads (modify fun d => { d with tracker := g d.tracker } : Action Unit) where
  steady _ _ h :=
    ⟨rfl, h.setTracker (hdata _) (hdata _) (hg _ h.left) (hg _ h.right)⟩
  lasting d := by
    show { d with tracker := g d.tracker }.lasting = d.lasting
    unfold Desk.lasting Tracker.lasting
    simp only [hdata]

theorem reads_note (w : Window) : Reads (note w) :=
  reads_modify (·.note w) (fun _ => rfl) fun _ h => h.note w

theorem on_tracker_bind (f : Tracker → Action α) (d : Desk) :
    (tracker >>= f).on d = (f d.tracker).on d := rfl

/-- What a call with a window comes to: the window is noted, and the tracker as it is then tells
something unless the call runs into a fault. -/
theorem on_noted (w : Window) (call : Call) (f : Tracker → α) (d : Desk) :
    ((note w >>= fun _ => enter call >>= fun _ => tracker >>= fun t => pure (f t)).on d).1 =
      match d.fault? .thrive call with
      | some e => .error e
      | none => .ok (f (d.tracker.note w)) := by
  have hnote : (note w).on d = (.ok (), { d with tracker := d.tracker.note w }) := rfl
  have hfault : ({ d with tracker := d.tracker.note w } : Desk).fault? .thrive call =
      d.fault? .thrive call := rfl
  unfold enter
  rw [on_bind_ok hnote, on_bind, on_enter, hfault]
  cases d.fault? .thrive call <;> rfl

theorem on_campaignStats (campaign : Option String) (w : Window) (d : Desk) :
    ((campaignStats campaign w).on d).1 =
      match d.fault? .thrive .campaignStats with
      | some e => .error e
      | none => .ok (d.tracker.campaignStats campaign) :=
  on_noted w .campaignStats (·.campaignStats campaign) d

theorem on_widgetStats (campaign : String) (p : Platform) (w : Window) (d : Desk) :
    ((widgetStats campaign p w).on d).1 =
      match d.fault? .thrive .widgetStats with
      | some e => .error e
      | none => .ok (d.tracker.widgetStats campaign p) :=
  on_noted w .widgetStats (·.widgetStats campaign p) d

/-- To go on with the tracker is reading, if what goes on sees its data only. -/
theorem reads_tracker_bind {f : Tracker → Action α} (hf : ∀ t, Reads (f t))
    (hblind : ∀ t, f t.lasting = f t) : Reads (tracker >>= f) where
  steady d₁ d₂ h := by
    have hdata : d₁.tracker.lasting = d₂.tracker.lasting := by
      show Tracker.mk _ _ _ = Tracker.mk _ _ _
      rw [h.tracker_data]
    have heq : f d₁.tracker = f d₂.tracker := by
      rw [← hblind d₁.tracker, hdata, hblind d₂.tracker]
    rw [on_tracker_bind, on_tracker_bind, heq]
    exact (hf d₂.tracker).steady d₁ d₂ h
  lasting d := (hf d.tracker).lasting d

theorem reads_listCampaigns : Reads listCampaigns :=
  (reads_enter .thrive _).bind fun _ =>
    (reads_modify Tracker.remember (fun _ => rfl) fun _ h => h.remember).bind fun _ =>
      reads_tracker_bind (fun _ => .pure _) fun _ => rfl

theorem reads_listSources (w : Window) : Reads (listSources w) :=
  (reads_note w).bind fun _ =>
    (reads_enter .thrive _).bind fun _ => reads_tracker_bind (fun _ => .pure _) fun _ => rfl

theorem reads_campaignStats (campaign : Option String) (w : Window) :
    Reads (campaignStats campaign w) :=
  (reads_note w).bind fun _ =>
    (reads_enter .thrive _).bind fun _ => reads_tracker_bind (fun _ => .pure _) fun _ => rfl

theorem reads_widgetStats (campaign : String) (p : Platform) (w : Window) :
    Reads (widgetStats campaign p w) :=
  (reads_note w).bind fun _ =>
    (reads_enter .thrive _).bind fun _ => reads_tracker_bind (fun _ => .pure _) fun _ => rfl

theorem reads_campaignFields : Reads campaignFields :=
  (reads_enterUnrefused .thrive _).bind fun _ =>
    reads_tracker_bind (fun _ => .pure _) fun _ => rfl

theorem reads_sourceFields : Reads sourceFields :=
  (reads_enterUnrefused .thrive _).bind fun _ =>
    reads_tracker_bind (fun _ => .pure _) fun _ => rfl

/-- **Asking for a campaign's name is reading**: the answer is in the data, remembered or not. -/
theorem reads_campaignName (id : String) : Reads (campaignName id) := by
  have hon : ∀ d, (tracker >>= fun t =>
      (modify fun d => { d with tracker := (t.campaignName id).2 } : Action Unit) >>= fun _ =>
        pure (t.campaignName id).1).on d =
      (.ok (d.tracker.campaignName id).1, { d with tracker := (d.tracker.campaignName id).2 }) :=
    fun _ => rfl
  refine (reads_enter .thrive _).bind fun _ => ⟨?_, ?_⟩
  · intro d₁ d₂ h
    show (Action.on (tracker >>= _) d₁).1 = (Action.on (tracker >>= _) d₂).1 ∧ _
    rw [hon, hon]
    refine ⟨?_, ?_⟩
    · -- One tracker may remember the name and the other look it up.
      rw [Tracker.campaignName_eq h.left, Tracker.campaignName_eq h.right, h.tracker_data]
    · exact h.setTracker (Tracker.data_campaignName _ id) (Tracker.data_campaignName _ id)
        (h.left.campaignName id) (h.right.campaignName id)
  · intro d
    show (Action.on (tracker >>= _) d).2.lasting = d.lasting
    rw [hon]
    unfold Desk.lasting Tracker.lasting
    rw [Tracker.data_campaignName]

end TrackerAction

end AdOps
