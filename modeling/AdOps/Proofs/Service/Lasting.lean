import AdOps.Proofs.Service.Names
import AdOps.Service.Desk

/-!
# What of a desk lasts

Commands leave traces on a desk: windows are noted, names are remembered, widgets are paused. Only
the last of these can show in a later answer. `lasting` is the view of a desk that keeps the data,
the paused widgets and the faults, and forgets the windows and the remembered names. Desks are
*alike* when they look the same in this view and their trackers remember names faithfully.

* **`lasting_setNetwork`** — a network that looks the same does not change the view.
* **`Alike.reach`** — on alike desks a call reaches networks that look the same, or fails alike.
-/

namespace AdOps

/-- The network without the windows it was asked for. -/
def Network.lasting (n : Network) : Network := { n with windows := [] }

/-- The tracker without what it remembers and without the windows it was asked for. -/
def Tracker.lasting (t : Tracker) : Tracker := { data := t.data }

namespace Desk

/-- What of a desk can show in a later answer. -/
def lasting (d : Desk) : Desk where
  mgid := d.mgid.map Network.lasting
  zeropark := d.zeropark.map Network.lasting
  tracker := d.tracker.lasting
  faults := d.faults

/-- The paused widgets of a campaign on a platform, none where no network is configured. -/
def paused (d : Desk) (p : Platform) (campaign : String) : NameSet :=
  match d.network? p with
  | some n => n.pausedWidgets campaign
  | none => NameSet.empty

/-- The paused widgets of a desk, but others for one campaign on one platform. -/
def pausedWith (d : Desk) (p : Platform) (campaign : String) (ids : NameSet) :
    Platform → String → NameSet := fun q c =>
  if q = p ∧ c = campaign then ids else d.paused q c

/-- The failure that the fault of a call ends with, if it has one. -/
def fault? (d : Desk) (p : Platform) (call : Call) : Option Failure :=
  (d.faults p call).map fun
    | .crash message => Fault.crashed message
    | .refusal cause => .service cause

/-- The network that a call gets through to, or the failure that it ends with. -/
def reach (d : Desk) (p : Platform) (call : Call) : Except Failure Network :=
  match d.network? p, d.fault? p call with
  | none, _ => .error (.service (.notConfigured p))
  | some _, some e => .error e
  | some n, none => .ok n

/-! ## The view

The view is built field by field, so what is looked up in it is the view of what is looked up in the
desk. -/

theorem network?_lasting (d : Desk) (p : Platform) :
    d.lasting.network? p = (d.network? p).map Network.lasting := by
  cases p <;> rfl

/-- Where one of two desks that look the same has a network, so has the other. -/
theorem network?_of_lasting_eq {d₁ d₂ : Desk} (h : d₁.lasting = d₂.lasting) {p : Platform}
    {n₁ : Network} (h₁ : d₁.network? p = some n₁) :
    ∃ n₂, d₂.network? p = some n₂ ∧ n₂.lasting = n₁.lasting := by
  have hnet : (d₁.network? p).map Network.lasting = (d₂.network? p).map Network.lasting := by
    rw [← network?_lasting, h, network?_lasting]
  rw [h₁] at hnet
  exact Option.map_eq_some_iff.1 hnet.symm

/-- A network that takes the place of another is found there, and the others where they were. -/
theorem network?_setNetwork {d : Desk} {p : Platform} {n : Network} (h : d.network? p = some n)
    (m : Network) (q : Platform) :
    (d.setNetwork p m).network? q = if q = p then some m else d.network? q := by
  cases p with
  | thrive => exact absurd h (by simp [network?])
  | mgid => cases q <;> rfl
  | zeropark => cases q <;> rfl

/-- A network put back in its own place changes nothing. -/
theorem setNetwork_self {d : Desk} {p : Platform} {n : Network} (h : d.network? p = some n) :
    d.setNetwork p n = d := by
  cases p with
  | thrive => rfl
  | mgid =>
    show { d with mgid := some n } = d
    rw [← show d.mgid = some n from h]
  | zeropark =>
    show { d with zeropark := some n } = d
    rw [← show d.zeropark = some n from h]

/-- **A network that looks the same does not change the view.** -/
theorem lasting_setNetwork {d : Desk} {p : Platform} {n m : Network} (h : d.network? p = some n)
    (hm : m.lasting = n.lasting) : (d.setNetwork p m).lasting = d.lasting := by
  cases p with
  | thrive => rfl
  | mgid => simp [setNetwork, lasting, show d.mgid = some n from h, hm]
  | zeropark => simp [setNetwork, lasting, show d.zeropark = some n from h, hm]

/-- What is paused can be read off the view. -/
theorem paused_lasting (d : Desk) : d.lasting.paused = d.paused := by
  funext p campaign
  unfold paused
  rw [network?_lasting]
  cases d.network? p <;> rfl

theorem paused_congr {d₁ d₂ : Desk} (h : d₁.lasting = d₂.lasting) : d₁.paused = d₂.paused := by
  rw [← paused_lasting, h, paused_lasting]

theorem paused_eq {d : Desk} {p : Platform} {n : Network} (h : d.network? p = some n) :
    d.paused p = n.pausedWidgets := by
  funext campaign
  unfold paused
  rw [h]

/-- A network that takes the place of another brings its own paused widgets. -/
theorem paused_setNetwork {d : Desk} {p : Platform} {n : Network} (h : d.network? p = some n)
    (m : Network) (q : Platform) (campaign : String) :
    (d.setNetwork p m).paused q campaign =
      if q = p then m.pausedWidgets campaign else d.paused q campaign := by
  unfold paused
  rw [network?_setNetwork h]
  by_cases hq : q = p
  · rw [if_pos hq, if_pos hq]
  · rw [if_neg hq, if_neg hq]

theorem tracker_setNetwork (d : Desk) (p : Platform) (n : Network) :
    (d.setNetwork p n).tracker = d.tracker := by
  cases p <;> rfl

theorem faults_setNetwork (d : Desk) (p : Platform) (n : Network) :
    (d.setNetwork p n).faults = d.faults := by
  cases p <;> rfl

/-- A call reaches in the view what it reaches on the desk. -/
theorem reach_lasting (d : Desk) (p : Platform) (call : Call) :
    d.lasting.reach p call = (d.reach p call).map Network.lasting := by
  unfold reach
  rw [network?_lasting, show d.lasting.fault? p call = d.fault? p call from rfl]
  cases d.network? p with
  | none => rfl
  | some n => cases d.fault? p call <;> rfl

theorem reach_of_network? {d : Desk} {p : Platform} {call : Call} {n : Network}
    (hn : d.network? p = some n) (h : d.fault? p call = none) : d.reach p call = .ok n := by
  unfold reach
  rw [hn, h]

/-- What a call reaches is the network of the desk. -/
theorem network?_of_reach {d : Desk} {p : Platform} {call : Call} {n : Network}
    (h : d.reach p call = .ok n) : d.network? p = some n := by
  unfold reach at h
  split at h
  · exact absurd h (by simp)
  · exact absurd h (by simp)
  · next hn _ => rw [hn, Except.ok.inj h]

end Desk

/-! ## Alike desks

What lasts is the same, and so are the names that the trackers answer with, since both remember
faithfully. The relation is kept by the two ways in which a desk is changed. -/

/-- The desks look the same in the lasting view, and their trackers remember names faithfully. -/
structure Desk.Alike (d₁ d₂ : Desk) : Prop where
  lasting_eq : d₁.lasting = d₂.lasting
  left : d₁.tracker.Faithful
  right : d₂.tracker.Faithful

namespace Desk.Alike

variable {d₁ d₂ d₃ : Desk}

theorem refl {d : Desk} (h : d.tracker.Faithful) : Alike d d := ⟨rfl, h, h⟩

theorem trans (h : Alike d₁ d₂) (h' : Alike d₂ d₃) : Alike d₁ d₃ :=
  ⟨h.lasting_eq.trans h'.lasting_eq, h.left, h'.right⟩

theorem tracker_data (h : Alike d₁ d₂) : d₁.tracker.data = d₂.tracker.data := by
  show d₁.lasting.tracker.data = d₂.lasting.tracker.data
  rw [h.lasting_eq]

theorem network? (h : Alike d₁ d₂) (p : Platform) :
    (d₁.network? p).map Network.lasting = (d₂.network? p).map Network.lasting := by
  rw [← network?_lasting, h.lasting_eq, network?_lasting]

/-- **On alike desks a call reaches networks that look the same, or fails with one failure.** -/
theorem reach (h : Alike d₁ d₂) (p : Platform) (call : Call) :
    (d₁.reach p call).map Network.lasting = (d₂.reach p call).map Network.lasting := by
  rw [← reach_lasting, h.lasting_eq, reach_lasting]

/-- Networks that look the same keep desks alike. -/
theorem setNetwork (h : Alike d₁ d₂) (p : Platform) {n₁ n₂ : Network}
    (hn : n₁.lasting = n₂.lasting) : Alike (d₁.setNetwork p n₁) (d₂.setNetwork p n₂) where
  lasting_eq := by
    have heq := h.lasting_eq
    -- A desk has its networks in two fields, and none is stored for the tracker itself.
    cases p with
    | thrive => exact heq
    | mgid =>
      unfold Desk.lasting at heq ⊢
      simp only [Desk.mk.injEq] at heq
      simp [Desk.setNetwork, hn, heq]
    | zeropark =>
      unfold Desk.lasting at heq ⊢
      simp only [Desk.mk.injEq] at heq
      simp [Desk.setNetwork, hn, heq]
  left := by
    rw [tracker_setNetwork]
    exact h.left
  right := by
    rw [tracker_setNetwork]
    exact h.right

/-- Faithful trackers with the same data keep desks alike. -/
theorem setTracker (h : Alike d₁ d₂) {t₁ t₂ : Tracker} (h₁ : t₁.data = d₁.tracker.data)
    (h₂ : t₂.data = d₂.tracker.data) (hf₁ : t₁.Faithful) (hf₂ : t₂.Faithful) :
    Alike { d₁ with tracker := t₁ } { d₂ with tracker := t₂ } where
  lasting_eq := by
    have heq := h.lasting_eq
    unfold Desk.lasting Tracker.lasting at heq ⊢
    simp only [Desk.mk.injEq, Tracker.mk.injEq] at heq ⊢
    simp [h₁, h₂, heq]
  left := hf₁
  right := hf₂

end Desk.Alike

end AdOps
