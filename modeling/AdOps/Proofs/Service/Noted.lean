import AdOps.Proofs.Service.Calls

/-!
# Which windows are noted

Every service notes the windows it is asked for. An action is *silent* if no service notes anything.
An action that asks for stats notes the window it was given, and an action put together from such
calls and silent ones, all given one window, notes nothing but this window.

* **`Notes`** — the action fails and nothing is noted, or one window is noted, at least once.
* **`Notes.window`** — the window may be worked out on the way; that it cannot be is a failure.
* **`Notes.bind`** — more calls may follow, as long as they ask for the same window.
* **`NotedSince.eq_of_askedSince`** — where one window was noted, nothing else was asked for.
-/

namespace AdOps

namespace Desk

/-- The windows that a service was asked for so far, the latest first. -/
def noted (d : Desk) (p : Platform) : List Window :=
  match p with
  | .thrive => d.tracker.windows
  | .mgid | .zeropark => ((d.network? p).map Network.windows).getD []

/-- A network that takes the place of another brings the windows it noted. -/
theorem noted_setNetwork {d : Desk} {p : Platform} {n : Network} (h : d.network? p = some n)
    (m : Network) (q : Platform) :
    (d.setNetwork p m).noted q = if q = p then m.windows else d.noted q := by
  cases p with
  | thrive => exact absurd h (by simp [network?])
  | mgid => cases q <;> rfl
  | zeropark => cases q <;> rfl

theorem noted_eq {d : Desk} {p : Platform} {n : Network} (h : d.network? p = some n) :
    d.noted p = n.windows := by
  cases p with
  | thrive => exact absurd h (by simp [network?])
  | mgid => simp [noted, h]
  | zeropark => simp [noted, h]

/-- A network that noted the same windows makes no difference. -/
theorem noted_setNetwork_same {d : Desk} {p : Platform} {n m : Network}
    (h : d.network? p = some n) (hm : m.windows = n.windows) :
    (d.setNetwork p m).noted = d.noted := by
  funext q
  rw [noted_setNetwork h]
  by_cases hq : q = p
  · rw [if_pos hq, hq, noted_eq h, hm]
  · rw [if_neg hq]

/-- Since the desk before, each service noted the window so many times, and no other window. -/
def NotedSince (before after : Desk) (w : Window) (times : Platform → Nat) : Prop :=
  ∀ p, after.noted p = List.replicate (times p) w ++ before.noted p

/-- Where nothing was noted, the window was noted no times. -/
theorem NotedSince.of_eq {before after : Desk} (h : after.noted = before.noted) (w : Window) :
    NotedSince before after w fun _ => 0 := by
  intro p
  rw [h]
  rfl

/-- What was noted in two stretches adds up. -/
theorem NotedSince.trans {d₁ d₂ d₃ : Desk} {w : Window} {k l : Platform → Nat}
    (h : NotedSince d₁ d₂ w k) (h' : NotedSince d₂ d₃ w l) :
    NotedSince d₁ d₃ w fun p => l p + k p := by
  intro p
  rw [h' p, h p, ← List.append_assoc, List.replicate_append_replicate]

/-- Since the desk before, the service was asked for the window. -/
def AskedSince (before after : Desk) (p : Platform) (w : Window) : Prop :=
  ∃ ws, after.noted p = ws ++ before.noted p ∧ w ∈ ws

/-- Where nothing was noted, no service was asked. -/
theorem not_askedSince_of_eq {before after : Desk} (h : after.noted = before.noted) (p : Platform)
    (w : Window) : ¬ AskedSince before after p w := by
  rintro ⟨ws, hws, hw⟩
  rw [h, List.self_eq_append_left] at hws
  rw [hws] at hw
  exact absurd hw List.not_mem_nil

/-- **Where one window was noted, nothing else was asked for.** -/
theorem NotedSince.eq_of_askedSince {before after : Desk} {w w' : Window} {times : Platform → Nat}
    {p : Platform} (h : NotedSince before after w times) (hasked : AskedSince before after p w') :
    w' = w := by
  obtain ⟨ws, hws, hw⟩ := hasked
  rw [h p] at hws
  obtain rfl := List.append_cancel_right hws
  exact List.eq_of_mem_replicate hw

/-- A service that notes the window once. -/
theorem notedSince_setNetwork {d : Desk} {p : Platform} {n m : Network}
    (h : d.network? p = some n) {w : Window} (hm : m.windows = w :: n.windows) :
    NotedSince d (d.setNetwork p m) w fun q => if q = p then 1 else 0 := by
  intro q
  show _ = List.replicate (if q = p then 1 else 0) w ++ d.noted q
  rw [noted_setNetwork h]
  by_cases hq : q = p
  · rw [if_pos hq, if_pos hq, hq, noted_eq h, hm]
    rfl
  · rw [if_neg hq, if_neg hq]
    rfl

end Desk

namespace Action

open Desk

variable {α β : Type} {w : Window} {r : Except Failure Window}

/-! ## Silent actions

What asks for no stats is silent, whether it fails or not, and so is a sequence of such parts. -/

/-- No service notes anything. -/
def Silent (x : Action α) : Prop := ∀ d, (x.on d).2.noted = d.noted

namespace Silent

theorem pure (a : α) : Silent (pure a : Action α) := fun _ => rfl

theorem throw (e : Failure) : Silent (throw e : Action α) := fun _ => rfl

theorem lift (r : Except Failure α) : Silent (liftM r : Action α) := fun _ => rfl

theorem bind {x : Action α} {f : α → Action β} (hx : Silent x) (hf : ∀ a, Silent (f a)) :
    Silent (x >>= f) := by
  intro d
  have hd := hx d
  rcases hon : x.on d with ⟨res, d₁⟩
  rw [hon] at hd
  cases res with
  | ok a => rw [on_bind_ok hon, hf a d₁, hd]
  | error e => rw [on_bind_error hon, hd]

theorem mapM {f : α → Action β} (hf : ∀ a, Silent (f a)) (items : List α) :
    Silent (items.mapM f) := by
  induction items with
  | nil =>
    rw [List.mapM_nil]
    exact .pure []
  | cons a items ih =>
    rw [List.mapM_cons]
    exact (hf a).bind fun b => ih.bind fun bs => .pure (b :: bs)

/-- What leaves the desk as it is is silent. -/
theorem of_snd {x : Action α} (h : ∀ d, (x.on d).2 = d) : Silent x := by
  intro d
  rw [h]

end Silent

/-! ## Actions that note one window

An action that fails early notes nothing, and then it noted no window at all. `Notes` keeps that
apart from an action that asked for stats, and the parts after the first may note more of the same
window or nothing. -/

/-- Whatever is noted is the window. -/
def OnlyNotes (w : Window) (x : Action α) : Prop := ∀ d, ∃ times, NotedSince d (x.on d).2 w times

/-- The action fails and nothing is noted, or `r` is a window, and it is noted at least once and
nothing else is. -/
def Notes (r : Except Failure Window) (x : Action α) : Prop :=
  ∀ d, (∃ e, (x.on d).1 = .error e ∧ (x.on d).2.noted = d.noted) ∨
    ∃ w times, r = .ok w ∧ (∃ p, 0 < times p) ∧ NotedSince d (x.on d).2 w times

theorem Silent.onlyNotes {x : Action α} (hx : Silent x) (w : Window) : OnlyNotes w x :=
  fun d => ⟨_, .of_eq (hx d) w⟩

/-- Parts that note one window can be put in sequence. -/
theorem OnlyNotes.bind {x : Action α} {f : α → Action β} (hx : OnlyNotes w x)
    (hf : ∀ a, OnlyNotes w (f a)) : OnlyNotes w (x >>= f) := by
  intro d
  obtain ⟨k, hk⟩ := hx d
  rcases hon : x.on d with ⟨res, d₁⟩
  rw [hon] at hk
  cases res with
  | ok a =>
    obtain ⟨l, hl⟩ := hf a d₁
    rw [on_bind_ok hon]
    exact ⟨_, hk.trans hl⟩
  | error e =>
    rw [on_bind_error hon]
    exact ⟨k, hk⟩

namespace Notes

/-- An action that notes the window it was given notes no other. -/
theorem onlyNotes {x : Action α} (hx : Notes (.ok w) x) : OnlyNotes w x := by
  intro d
  rcases hx d with ⟨e, -, hd⟩ | ⟨w', k, hw, -, hk⟩
  · exact ⟨_, .of_eq hd w⟩
  · obtain rfl : w = w' := Except.ok.inj hw
    exact ⟨k, hk⟩

theorem throw (e : Failure) : Notes r (throw e : Action α) := fun _ => .inl ⟨e, rfl, rfl⟩

/-- Something silent may come first. -/
theorem after {x : Action α} {f : α → Action β} (hx : Silent x) (hf : ∀ a, Notes r (f a)) :
    Notes r (x >>= f) := by
  intro d
  have hd := hx d
  rcases hon : x.on d with ⟨res, d₁⟩
  rw [hon] at hd
  cases res with
  | ok a =>
    rw [on_bind_ok hon]
    have hnotes := hf a d₁
    unfold NotedSince at hnotes ⊢
    rwa [hd] at hnotes
  | error e =>
    rw [on_bind_error hon]
    exact .inl ⟨e, rfl, hd⟩

/-- **The window may be worked out first.** -/
theorem window {f : Window → Action β} (hf : ∀ w, Notes (.ok w) (f w)) :
    Notes r (liftM r >>= f) := by
  intro d
  cases r with
  | ok w => exact hf w d
  | error e => exact .inl ⟨e, rfl, rfl⟩

/-- **More may follow that asks for the same window.** -/
theorem bind {x : Action α} {f : α → Action β} (hx : Notes r x)
    (hf : ∀ w, r = .ok w → ∀ a, OnlyNotes w (f a)) : Notes r (x >>= f) := by
  intro d
  have hd := hx d
  rcases hon : x.on d with ⟨res, d₁⟩
  rw [hon] at hd
  cases res with
  | error e =>
    rw [on_bind_error hon]
    rcases hd with ⟨_, -, hsame⟩ | hnoted
    · exact .inl ⟨e, rfl, hsame⟩
    · exact .inr hnoted
  | ok a =>
    rw [on_bind_ok hon]
    rcases hd with ⟨_, herror, -⟩ | ⟨w, k, hw, ⟨p, hp⟩, hk⟩
    · exact absurd herror (by simp)
    · obtain ⟨l, hl⟩ := hf w hw a d₁
      exact .inr ⟨w, _, hw, ⟨p, by omega⟩, hk.trans hl⟩

theorem followed {x : Action α} {f : α → Action β} (hx : Notes r x) (hf : ∀ a, Silent (f a)) :
    Notes r (x >>= f) :=
  hx.bind fun w _ a => (hf a).onlyNotes w

end Notes

/-! ## Calls to a network

A network notes the window of a stats call once it is reached, before it looks for the rows. -/

/-- To go on with a network is silent, if what goes on is. -/
theorem silent_network_bind (p : Platform) {f : Network → Action α} (hf : ∀ n, Silent (f n)) :
    Silent (network p >>= f) := by
  intro d
  rw [on_bind, on_network]
  cases d.network? p with
  | none => rfl
  | some n => exact hf n d

theorem silent_network (p : Platform) : Silent (discard (network p)) :=
  silent_network_bind p fun _ => .pure ()

theorem silent_enterUnrefused (p : Platform) (call : Call) : Silent (enterUnrefused p call) := by
  refine .of_snd fun d => ?_
  rw [on_enterUnrefused]

theorem silent_campaignFields (p : Platform) : Silent (campaignFields p) :=
  silent_network_bind p fun n => (silent_enterUnrefused p _).bind fun _ => .pure n.campaignFields

theorem silent_widgetFields (p : Platform) : Silent (widgetFields p) :=
  silent_network_bind p fun n => (silent_enterUnrefused p _).bind fun _ => .pure n.widgetFields

theorem silent_findCampaign (p : Platform) (id : String) : Silent (findCampaign p id) := by
  intro d
  rw [on_findCampaign]

theorem silent_pauseWidgets (p : Platform) (campaign : String) (ids : List String) :
    Silent (pauseWidgets p campaign ids) := by
  intro d
  rw [on_pauseWidgets]
  unfold Desk.through
  cases hn : d.reach p .pauseWidgets with
  | error e => rfl
  | ok n =>
    refine noted_setNetwork_same (Desk.network?_of_reach hn) ?_
    unfold Network.Step.pauseWidgets Network.pause?
    cases n.data.widgetStats.contains campaign <;> rfl

/-- A call whose step notes the window fails before its network or notes the window once. -/
theorem notes_of_through {x : Action α} {p : Platform} {call : Call} {step : Network.Step α}
    (hx : ∀ d, x.on d = d.through p call step)
    (hstep : ∀ n, (step n).2.windows = w :: n.windows) : Notes (.ok w) x := by
  intro d
  rw [hx]
  unfold Desk.through
  cases hn : d.reach p call with
  | error e => exact .inl ⟨e, rfl, rfl⟩
  | ok n =>
    have hnoted := notedSince_setNetwork (Desk.network?_of_reach hn) (hstep n)
    exact .inr ⟨w, _, rfl, ⟨p, by simp⟩, hnoted⟩

theorem notes_campaignStats (p : Platform) (campaign : Option String) (w : Window) :
    Notes (.ok w) (campaignStats p campaign w) :=
  notes_of_through (on_campaignStats p campaign w) fun _ => rfl

theorem notes_widgetStats (p : Platform) (campaign : String) (w : Window) :
    Notes (.ok w) (widgetStats p campaign w) := by
  refine notes_of_through (on_widgetStats p campaign w) fun n => ?_
  unfold Network.Step.widgetStats
  cases n.widgetStats? campaign <;> rfl

end Action

/-! ## Calls to the tracker

The tracker notes the window first, so its stats calls note it even where they run into a fault. -/

namespace TrackerAction

open AdOps.Action

variable {α : Type}

theorem silent_enter (call : Call) : Silent (enter call) := by
  refine .of_snd fun d => ?_
  show ((Action.enter .thrive call).on d).2 = d
  rw [on_enter]

theorem silent_tracker : Silent tracker := fun _ => rfl

theorem silent_campaignFields : Silent campaignFields :=
  (silent_enterUnrefused .thrive _).bind fun _ => silent_tracker.bind fun _ => .pure _

theorem silent_sourceFields : Silent sourceFields :=
  (silent_enterUnrefused .thrive _).bind fun _ => silent_tracker.bind fun _ => .pure _

/-- The tracker notes a window before anything else. -/
theorem notes_note (w : Window) : Notes (.ok w) (note w) := by
  intro d
  refine .inr ⟨w, fun p => if p = .thrive then 1 else 0, rfl, ⟨.thrive, by simp⟩, fun p => ?_⟩
  cases p <;> rfl

/-- The tracker may list its campaigns for a name, and notes no window for that. -/
theorem silent_campaignName (id : String) : Silent (campaignName id) := by
  refine (silent_enter _).bind fun _ d => ?_
  show { d with tracker := (d.tracker.campaignName id).2 }.noted = d.noted
  have hwindows : (d.tracker.campaignName id).2.windows = d.tracker.windows := by
    unfold Tracker.campaignName
    cases d.tracker.names.get? id <;> rfl
  funext p
  cases p with
  | thrive => exact hwindows
  | mgid => rfl
  | zeropark => rfl

theorem notes_listSources (w : Window) : Notes (.ok w) (listSources w) :=
  (notes_note w).followed fun _ => (silent_enter _).bind fun _ =>
    silent_tracker.bind fun _ => .pure _

theorem notes_campaignStats (campaign : Option String) (w : Window) :
    Notes (.ok w) (campaignStats campaign w) :=
  (notes_note w).followed fun _ => (silent_enter _).bind fun _ =>
    silent_tracker.bind fun _ => .pure _

theorem notes_widgetStats (campaign : String) (p : Platform) (w : Window) :
    Notes (.ok w) (widgetStats campaign p w) :=
  (notes_note w).followed fun _ => (silent_enter _).bind fun _ =>
    silent_tracker.bind fun _ => .pure _

end TrackerAction

end AdOps
