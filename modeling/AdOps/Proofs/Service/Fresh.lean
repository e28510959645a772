import AdOps.Proofs.Service.Calls

/-!
# Desks with the same data

A desk is *fresh* if nothing happened on it yet: no widget is paused, no name is remembered and no
window was noted. `Desk.fresh` forgets all of that, and two desks have the same data and run into
the same faults if they are the same once fresh. What an action gives on two such desks can still
differ in what shows that a widget is paused, so results are compared by a relation (`Matches`).

* **`reach_same`** — desks with the same data are reached alike.
* **`Matches.bind`** — actions that read and match can be put in sequence.
* **`matches_widgetStats`** — widget rows match up to their status.
-/

namespace AdOps

def Network.fresh (n : Network) : Network := { data := n.data }

theorem Network.data_of_fresh_eq {n n' : Network} (h : n.fresh = n'.fresh) : n.data = n'.data := by
  show n.fresh.data = n'.fresh.data
  rw [h]

namespace Desk

/-- The desk with these data and these faults on which nothing happened yet. -/
def fresh (d : Desk) : Desk where
  mgid := d.mgid.map Network.fresh
  zeropark := d.zeropark.map Network.fresh
  tracker := d.tracker.lasting
  faults := d.faults

theorem network?_fresh (d : Desk) (p : Platform) :
    d.fresh.network? p = (d.network? p).map Network.fresh := by
  cases p <;> rfl

theorem fresh_fresh (d : Desk) : d.fresh.fresh = d.fresh := by
  unfold fresh
  simp only [Option.map_map]
  rfl

theorem fresh_lasting (d : Desk) : d.lasting.fresh = d.fresh := by
  unfold fresh lasting
  simp only [Option.map_map]
  rfl

theorem fresh_congr {d d' : Desk} (h : d.lasting = d'.lasting) : d.fresh = d'.fresh := by
  rw [← fresh_lasting, h, fresh_lasting]

/-- Nothing is paused on a fresh desk. -/
theorem paused_fresh (d : Desk) (p : Platform) (campaign : String) :
    d.fresh.paused p campaign = NameSet.empty := by
  unfold paused
  rw [network?_fresh]
  cases d.network? p <;> rfl

/-- A network with the same data in its place makes no difference once fresh. -/
theorem fresh_setNetwork {d : Desk} {p : Platform} {n m : Network} (h : d.network? p = some n)
    (hm : m.data = n.data) : (d.setNetwork p m).fresh = d.fresh := by
  cases p with
  | thrive => rfl
  | mgid => simp [setNetwork, fresh, show d.mgid = some n from h, Network.fresh, hm]
  | zeropark => simp [setNetwork, fresh, show d.zeropark = some n from h, Network.fresh, hm]

section same

variable {d d' : Desk} (h : d.fresh = d'.fresh)
include h

theorem network?_same (p : Platform) :
    (d.network? p).map Network.fresh = (d'.network? p).map Network.fresh := by
  rw [← network?_fresh, h, network?_fresh]

theorem tracker_same : d.tracker.data = d'.tracker.data := by
  show d.fresh.tracker.data = d'.fresh.tracker.data
  rw [h]

theorem faults_same : d.faults = d'.faults := by
  show d.fresh.faults = d'.fresh.faults
  rw [h]

theorem fault?_same (p : Platform) (call : Call) : d.fault? p call = d'.fault? p call := by
  unfold fault?
  rw [faults_same h]

/-- **Desks with the same data are reached alike.** -/
theorem reach_same (p : Platform) (call : Call) :
    (d.reach p call).map Network.fresh = (d'.reach p call).map Network.fresh := by
  have hnet := network?_same h p
  unfold reach
  rw [fault?_same h p call]
  -- Either both desks have a network here or neither has.
  cases hn : d.network? p with
  | none =>
    rw [hn] at hnet
    rw [Option.map_eq_none_iff.1 hnet.symm]
  | some n =>
    rw [hn] at hnet
    obtain ⟨n', hn', heq⟩ := Option.map_eq_some_iff.1 hnet.symm
    rw [hn']
    cases d'.fault? p call with
    | some e => rfl
    | none => exact congrArg Except.ok heq.symm

end same

end Desk

/-- Both fail with one failure, or both succeed with related results. -/
inductive Agree {α β : Type} (R : α → β → Prop) : Except Failure α → Except Failure β → Prop where
  | ok {a : α} {b : β} (h : R a b) : Agree R (.ok a) (.ok b)
  | error (e : Failure) : Agree R (.error e) (.error e)

/-- Results are the same under two maps if they agree in what these maps make of them. -/
theorem Agree.map_iff {α β γ : Type} {f : α → γ} {g : β → γ} {r : Except Failure α}
    {s : Except Failure β} : r.map f = s.map g ↔ Agree (fun a b => f a = g b) r s := by
  constructor
  · intro h
    cases r with
    | ok a =>
      cases s with
      | ok b => exact .ok (Except.ok.inj h)
      | error e => exact absurd h (by simp [Except.map])
    | error e =>
      cases s with
      | ok b => exact absurd h (by simp [Except.map])
      | error e' =>
        obtain rfl : e = e' := Except.error.inj h
        exact .error e
  · rintro (⟨h⟩ | ⟨e⟩)
    · exact congrArg Except.ok h
    · rfl

namespace Action

variable {α β γ δ : Type}

/-- On desks with the same data the actions agree. -/
def Matches (R : α → β → Prop) (x : Action α) (y : Action β) : Prop :=
  ∀ d d', d.fresh = d'.fresh → Agree R (x.on d).1 (y.on d').1

theorem Reads.fresh_eq {x : Action α} (hx : Reads x) (d : Desk) : (x.on d).2.fresh = d.fresh :=
  Desk.fresh_congr (hx.lasting d)

namespace Matches

variable {R : α → β → Prop} {S : γ → δ → Prop}

theorem pure {a : α} {b : β} (h : R a b) : Matches R (pure a : Action α) (pure b : Action β) :=
  fun _ _ _ => .ok h

theorem throw (e : Failure) : Matches R (throw e : Action α) (throw e : Action β) :=
  fun _ _ _ => .error e

theorem lift (r : Except Failure α) : Matches Eq (liftM r : Action α) (liftM r) := by
  intro d d' _
  rw [on_lift, on_lift]
  cases r with
  | ok a => exact .ok rfl
  | error e => exact .error e

/-- **Actions that read and match can be put in sequence.** -/
theorem bind {x : Action α} {y : Action β} {f : α → Action γ} {g : β → Action δ} (hx : Reads x)
    (hy : Reads y) (h : Matches R x y) (hfg : ∀ a b, R a b → Matches S (f a) (g b)) :
    Matches S (x >>= f) (y >>= g) := by
  intro d d' hsame
  have hagree := h d d' hsame
  have hd : (x.on d).2.fresh = (y.on d').2.fresh := by
    rw [hx.fresh_eq d, hy.fresh_eq d', hsame]
  rw [on_bind, on_bind]
  -- What the first parts did is in their desks, which have the same data, so the rest matches on
  -- these.
  generalize x.on d = rx, y.on d' = ry at hagree hd
  obtain ⟨r, d₁⟩ := rx
  obtain ⟨s, d₂⟩ := ry
  cases hagree with
  | ok hab => exact hfg _ _ hab d₁ d₂ hd
  | error e => exact .error e

/-- An action that reads matches itself, so what it gives can be taken for one value. -/
theorem bind_same {x : Action α} {f : α → Action γ} {g : α → Action δ} (hx : Reads x)
    (h : Matches Eq x x) (hfg : ∀ a, Matches S (f a) (g a)) : Matches S (x >>= f) (x >>= g) :=
  bind hx hx h fun a _ hab => hab ▸ hfg a

end Matches

/-! ## Calls

A call is answered from the data of the network that it reaches. So the two answers agree, but for
the status of a widget, which tells of what was paused. -/

theorem matches_network (p : Platform) :
    Matches Eq (discard (network p)) (discard (network p)) := by
  intro d d' h
  have hnet := Desk.network?_same h p
  show Agree Eq ((network p >>= fun _ => pure ()).on d).1 ((network p >>= fun _ => pure ()).on d').1
  rw [on_bind, on_bind, on_network, on_network]
  cases hn : d.network? p with
  | none =>
    rw [hn] at hnet
    rw [Option.map_eq_none_iff.1 hnet.symm]
    exact .error _
  | some n =>
    rw [hn] at hnet
    obtain ⟨n', hn', -⟩ := Option.map_eq_some_iff.1 hnet.symm
    rw [hn']
    exact .ok rfl

theorem matches_findCampaign (p : Platform) (id : String) :
    Matches Eq (findCampaign p id) (findCampaign p id) := by
  intro d d' h
  have hreach := Agree.map_iff.1 (Desk.reach_same h p .listCampaigns)
  rw [on_findCampaign, on_findCampaign]
  generalize d.reach p .listCampaigns = r, d'.reach p .listCampaigns = r' at hreach
  cases hreach with
  | @ok n n' heq =>
    have hdata : n.data = n'.data := Network.data_of_fresh_eq heq
    show Agree Eq (.ok (n.data.campaigns.find? _)) (.ok (n'.data.campaigns.find? _))
    rw [hdata]
    exact .ok rfl
  | error e => exact .error e

end Action

/-- The row as it looks while its widget is not paused. -/
def Record.resumed (r : Record) : Record := r.insert "status" (.string "active")

/-- The rows are the same but for their status. -/
def SameButStatus (rows rows' : List Record) : Prop :=
  rows.map Record.resumed = rows'.map Record.resumed

theorem Record.get?_resumed (r : Record) (field : String) :
    r.resumed.get? field = if field = "status" then some (.string "active") else r.get? field :=
  NameMap.get?_insert r "status" field _

/-- Rows that have the same fields but for the status look the same once resumed. -/
theorem Record.resumed_congr {r r' : Record}
    (h : ∀ field, field ≠ "status" → r.get? field = r'.get? field) : r.resumed = r'.resumed := by
  refine NameMap.ext_get? fun field => ?_
  rw [get?_resumed, get?_resumed]
  split
  · rfl
  · next hne => exact h field hne

/-- Rows that look the same once resumed differ in no field but the status. -/
theorem Record.get?_of_resumed_eq {r r' : Record} (h : r.resumed = r'.resumed) {field : String}
    (hfield : field ≠ "status") : r.get? field = r'.get? field := by
  have hget := congrArg (fun row : Record => row.get? field) h
  simpa only [get?_resumed, if_neg hfield] using hget

theorem Record.resumed_resumed (r : Record) : r.resumed.resumed = r.resumed :=
  resumed_congr fun field hfield => by rw [get?_resumed, if_neg hfield]

/-- The status that a network adds to a row is all that it adds. -/
theorem Network.resumed_withStatus (n : Network) (campaign : String) (row : Record) :
    Record.resumed (n.withStatus campaign row) = row.resumed :=
  Record.resumed_congr fun field hfield => by
    unfold withStatus
    rw [NameMap.get?_insert, if_neg hfield]

namespace Action

/-- **Widget rows match up to their status.** -/
theorem matches_widgetStats (p : Platform) (campaign : String) (w : Window) :
    Matches SameButStatus (widgetStats p campaign w) (widgetStats p campaign w) := by
  intro d d' h
  have hreach := Agree.map_iff.1 (Desk.reach_same h p .widgetStats)
  rw [on_widgetStats, on_widgetStats]
  unfold Desk.through
  generalize d.reach p .widgetStats = r, d'.reach p .widgetStats = r' at hreach
  cases hreach with
  | @ok n n' heq =>
    have hdata : n.data = n'.data := Network.data_of_fresh_eq heq
    dsimp only [Network.Step.widgetStats]
    unfold Network.widgetStats?
    rw [hdata]
    cases n'.data.widgetStats.get? campaign with
    | none => exact .error _
    | some rows =>
      refine .ok ?_
      unfold SameButStatus
      rw [List.map_map, List.map_map]
      refine List.map_congr_left fun row _ => ?_
      show Record.resumed (n.withStatus campaign row) = Record.resumed (n'.withStatus campaign row)
      rw [Network.resumed_withStatus, Network.resumed_withStatus]
  | error e => exact .error e

end Action

namespace TrackerAction

open AdOps.Action

theorem matches_widgetStats (campaign : String) (p : Platform) (w : Window) :
    Matches Eq (widgetStats campaign p w) (widgetStats campaign p w) := by
  intro d d' h
  have hrows : d.tracker.widgetStats campaign p = d'.tracker.widgetStats campaign p := by
    unfold Tracker.widgetStats
    rw [Desk.tracker_same h]
  rw [on_widgetStats, on_widgetStats, Desk.fault?_same h, hrows]
  cases d'.fault? .thrive .widgetStats with
  | some e => exact .error e
  | none => exact .ok rfl

end TrackerAction

end AdOps
