import AdOps.Proofs.Service.Lasting

/-!
# Steps of a network

When a call reaches its network, the network takes one step: it gives a result or a failure, and is
some network afterwards. What a call does to a desk follows from what its step does to the network.
No step looks at the windows (`Step.Blind`), and the two steps that change more than the windows
change the paused widgets of one campaign.

* **`blind_pauseWidgets`**, **`blind_resumeAllWidgets`** — the steps do not see the windows.
* **`pausedWidgets_of_pause?`**, **`pausedWidgets_of_resumeAll?`** — what is paused afterwards.
* **`paused_setNetwork_eq`** — what one campaign on a network does to the desk.
-/

namespace AdOps

namespace Network

abbrev Step (α : Type) := Network → Except Failure α × Network

/-! ## What is paused after a step

Pausing adds identifiers to the set of one campaign, and resuming takes that set away. The sets of
other campaigns are looked up past it. -/

theorem pause?_lasting (n : Network) (campaign : String) (ids : List String) :
    n.lasting.pause? campaign ids = (n.pause? campaign ids).map lasting := by
  unfold pause?
  rw [apply_ite (Option.map lasting)]
  rfl

theorem resumeAll?_lasting (n : Network) (campaign : String) :
    n.lasting.resumeAll? campaign = (n.resumeAll? campaign).map (Prod.map id lasting) := by
  unfold resumeAll?
  rw [apply_ite (Option.map (Prod.map id lasting))]
  rfl

/-- **Pausing adds to the set of its campaign** and leaves the others. -/
theorem pausedWidgets_of_pause? {n n' : Network} {campaign : String} {ids : List String}
    (h : n.pause? campaign ids = some n') (c : String) :
    n'.pausedWidgets c =
      if c = campaign then (n.pausedWidgets campaign).insertAll ids else n.pausedWidgets c := by
  unfold pause? at h
  split at h
  · obtain rfl := Option.some.inj h
    unfold pausedWidgets
    rw [NameMap.get?_insert]
    split <;> rfl
  · exact absurd h (by simp)

/-- **Resuming empties the set of its campaign** and leaves the others. -/
theorem pausedWidgets_of_resumeAll? {n n' : Network} {campaign : String} {count : Nat}
    (h : n.resumeAll? campaign = some (count, n')) (c : String) :
    n'.pausedWidgets c = if c = campaign then NameSet.empty else n.pausedWidgets c := by
  unfold resumeAll? at h
  split at h
  · obtain ⟨-, rfl⟩ := Prod.mk.inj (Option.some.inj h)
    unfold pausedWidgets
    rw [NameMap.get?_erase]
    split <;> rfl
  · exact absurd h (by simp)

namespace Step

/-! ## The steps of the calls

The windows are stored by a network and read by none of its steps, so each step comes to the same
without them. -/

def campaignStats (campaign : Option String) (w : Window) : Step (List Record) := fun n =>
  (.ok (n.campaignStats campaign), n.note w)

def widgetStats (p : Platform) (campaign : String) (w : Window) : Step (List Record) := fun n =>
  match n.widgetStats? campaign with
  | some rows => (.ok rows, n.note w)
  | none => (.error (.service (notFound p campaign)), n.note w)

def pauseWidgets (p : Platform) (campaign : String) (ids : List String) : Step Unit := fun n =>
  match n.pause? campaign ids with
  | some n' => (.ok (), n')
  | none => (.error (.service (notFound p campaign)), n)

def resumeAllWidgets (p : Platform) (campaign : String) : Step Nat := fun n =>
  match n.resumeAll? campaign with
  | some (count, n') => (.ok count, n')
  | none => (.error (.service (notFound p campaign)), n)

/-- The step comes to the same, up to the windows, on a network without its windows. -/
def Blind {α : Type} (step : Step α) : Prop :=
  ∀ n, (step n.lasting).1 = (step n).1 ∧ (step n.lasting).2.lasting = (step n).2.lasting

/-- A step that does not see the windows comes to the same on networks that look the same. -/
theorem Blind.congr {α : Type} {step : Step α} (h : Blind step) {n₁ n₂ : Network}
    (hn : n₁.lasting = n₂.lasting) :
    (step n₁).1 = (step n₂).1 ∧ (step n₁).2.lasting = (step n₂).2.lasting := by
  obtain ⟨hr₁, hn₁⟩ := h n₁
  obtain ⟨hr₂, hn₂⟩ := h n₂
  rw [hn] at hr₁ hn₁
  exact ⟨hr₁.symm.trans hr₂, hn₁.symm.trans hn₂⟩

theorem blind_campaignStats (campaign : Option String) (w : Window) :
    Blind (campaignStats campaign w) :=
  fun _ => ⟨rfl, rfl⟩

theorem blind_widgetStats (p : Platform) (campaign : String) (w : Window) :
    Blind (widgetStats p campaign w) := by
  intro n
  have hrows : n.lasting.widgetStats? campaign = n.widgetStats? campaign := rfl
  unfold widgetStats
  rw [hrows]
  cases n.widgetStats? campaign <;> exact ⟨rfl, rfl⟩

theorem blind_pauseWidgets (p : Platform) (campaign : String) (ids : List String) :
    Blind (pauseWidgets p campaign ids) := by
  intro n
  unfold pauseWidgets
  rw [pause?_lasting]
  cases n.pause? campaign ids <;> exact ⟨rfl, rfl⟩

theorem blind_resumeAllWidgets (p : Platform) (campaign : String) :
    Blind (resumeAllWidgets p campaign) := by
  intro n
  unfold resumeAllWidgets
  rw [resumeAll?_lasting]
  cases n.resumeAll? campaign <;> exact ⟨rfl, rfl⟩

/-! ## Steps by the rows of a campaign

A campaign without widget rows has no widgets to show, to pause or to resume. -/

section rows

variable {n : Network} {campaign : String}
  (h : n.data.widgetStats.contains campaign = true) (p : Platform)
include h

/-- The widgets of a campaign with rows can be paused. -/
theorem pauseWidgets_of_contains (ids : List String) :
    ∃ n', pauseWidgets p campaign ids n = (.ok (), n') ∧ n'.data = n.data ∧
      ∀ c, n'.pausedWidgets c =
        if c = campaign then (n.pausedWidgets campaign).insertAll ids else n.pausedWidgets c := by
  obtain ⟨n', hpause, hdata⟩ : ∃ n', n.pause? campaign ids = some n' ∧ n'.data = n.data :=
    ⟨_, if_pos h, rfl⟩
  refine ⟨n', ?_, hdata, pausedWidgets_of_pause? hpause⟩
  unfold pauseWidgets
  rw [hpause]

/-- The widgets of a campaign with rows can be resumed, and what comes back is how many of them were
paused. -/
theorem resumeAllWidgets_of_contains :
    ∃ n', resumeAllWidgets p campaign n = (.ok (n.pausedWidgets campaign).size, n') ∧
      n'.data = n.data ∧
      ∀ c, n'.pausedWidgets c = if c = campaign then NameSet.empty else n.pausedWidgets c := by
  obtain ⟨n', hresume, hdata⟩ : ∃ n', n.resumeAll? campaign =
      some ((n.pausedWidgets campaign).size, n') ∧ n'.data = n.data :=
    ⟨_, if_pos h, rfl⟩
  refine ⟨n', ?_, hdata, pausedWidgets_of_resumeAll? hresume⟩
  unfold resumeAllWidgets
  rw [hresume]

end rows

section missing

variable {n : Network} {campaign : String}
  (h : n.data.widgetStats.contains campaign = false) (p : Platform)
include h

theorem pauseWidgets_of_missing (ids : List String) :
    pauseWidgets p campaign ids n = (.error (.service (notFound p campaign)), n) := by
  unfold pauseWidgets pause?
  rw [if_neg (Bool.eq_false_iff.1 h)]

theorem resumeAllWidgets_of_missing :
    resumeAllWidgets p campaign n = (.error (.service (notFound p campaign)), n) := by
  unfold resumeAllWidgets resumeAll?
  rw [if_neg (Bool.eq_false_iff.1 h)]

/-- The window is noted even where there are no rows. -/
theorem widgetStats_of_missing (w : Window) :
    widgetStats p campaign w n = (.error (.service (notFound p campaign)), n.note w) := by
  have hrows : n.data.widgetStats.get? campaign = none :=
    Option.isNone_iff_eq_none.1 (Option.isSome_eq_false_iff.1 h)
  unfold widgetStats widgetStats?
  rw [hrows]
  rfl

end missing

theorem widgetStats_of_rows {n : Network} {campaign : String} {rows : List Record}
    (h : n.data.widgetStats.get? campaign = some rows) (p : Platform) (w : Window) :
    widgetStats p campaign w n = (.ok (rows.map (n.withStatus campaign)), n.note w) := by
  unfold widgetStats widgetStats?
  rw [h]
  rfl

theorem snd_widgetStats (p : Platform) (campaign : String) (w : Window) (n : Network) :
    (widgetStats p campaign w n).2 = n.note w := by
  unfold widgetStats
  cases n.widgetStats? campaign <;> rfl

/-- The step with nothing said about what it gives. -/
def silent {α : Type} (step : Step α) : Step Unit := fun n =>
  ((step n).1.map fun _ => (), (step n).2)

/-- The step that tells something of the network and changes nothing. -/
def view {α : Type} (f : Network → α) : Step α := fun n => (.ok (f n), n)

theorem silent_eq {α : Type} {step : Step α} {n n' : Network} {r : Except Failure α}
    (h : step n = (r, n')) : step.silent n = (r.map fun _ => (), n') := by
  unfold silent
  rw [h]

end Step
end Network

/-! ## Steps of a network of the desk

A call that gets through puts the network back after its step, and one that does not leaves the desk
as it was. -/

namespace Desk

/-- A call to a network: the step of the network that it reaches. -/
def through {α : Type} (d : Desk) (p : Platform) (call : Call) (step : Network.Step α) :
    Except Failure α × Desk :=
  match d.reach p call with
  | .ok n => ((step n).1, d.setNetwork p (step n).2)
  | .error e => (.error e, d)

/-- A call that succeeds reached its network and took the step. -/
theorem through_eq_ok {α : Type} {d d' : Desk} {p : Platform} {call : Call}
    {step : Network.Step α} {a : α} (h : d.through p call step = (.ok a, d')) :
    ∃ n, d.reach p call = .ok n ∧ (step n).1 = .ok a ∧ d' = d.setNetwork p (step n).2 := by
  unfold through at h
  cases hn : d.reach p call with
  | error e =>
    rw [hn] at h
    exact absurd h (by simp)
  | ok n =>
    rw [hn] at h
    obtain ⟨hr, hd⟩ := Prod.mk.inj h
    exact ⟨n, rfl, hr, hd.symm⟩

/-- Where a network changes the paused widgets of one campaign, so does the desk. -/
theorem paused_setNetwork_eq {d : Desk} {p : Platform} {n m : Network} {campaign : String}
    {ids : NameSet} (h : d.network? p = some n)
    (hm : ∀ c, m.pausedWidgets c = if c = campaign then ids else n.pausedWidgets c) :
    (d.setNetwork p m).paused = d.pausedWith p campaign ids := by
  funext q c
  rw [paused_setNetwork h, hm]
  unfold pausedWith
  by_cases hq : q = p
  · subst hq
    rw [if_pos rfl, paused_eq h]
    by_cases hc : c = campaign
    · rw [if_pos hc, if_pos ⟨rfl, hc⟩]
    · rw [if_neg hc, if_neg fun hboth => hc hboth.2]
  · rw [if_neg hq, if_neg fun hboth => hq hboth.1]

end Desk

end AdOps
