import AdOps.Proofs.Service.Calls

/-!
# What calls leave in the tracker's memory

A call either leaves the names that the tracker remembers as they were, or lists the campaigns and
remembers every name that they give. A fresh tracker remembers none, so from there on its memory is
empty or *whole*: it holds the name that the campaigns give to each identifier, and no other.

* **`named_lastName?`** — which of several campaigns gives an identifier its name.
* **`Inquiry.next`** — what one call can do to the tracker.
* **`Settled.next`**, **`get?_of_next`** — the memory stays empty or whole, and loses nothing.
* **`Desk.settled_inquired`** — so it does along every run of calls.
-/

namespace AdOps

namespace Tracker

/-! ## Names of campaigns

The tracker stores one campaign after another, so the last one counts. Said without the storing, the
name of an identifier is given by the last campaign that has both. -/

/-- What campaigns say the name of an identifier is. -/
inductive Named (campaigns : List Record) (id : String) : Option String → Prop
  /-- The last campaign with the identifier and a name gives it. -/
  | last (before : List Record) (c : Record) (after : List Record) (name : String) :
      campaigns = before ++ c :: after → c.id? = some id → c.name? = some name →
        (∀ c' ∈ after, c'.id? = some id → c'.name? = none) → Named campaigns id (some name)
  | none : (∀ c ∈ campaigns, c.id? = some id → c.name? = none) → Named campaigns id none

variable {campaigns : List Record} {id : String}

/-- There is no name where no campaign with the identifier has one. -/
theorem lastName?_eq_none :
    lastName? campaigns id = none ↔ ∀ c ∈ campaigns, c.id? = some id → c.name? = none := by
  unfold lastName?
  rw [List.findSome?_eq_none_iff]
  constructor
  · intro h c hc hid
    have hnone := h c (List.mem_reverse.2 hc)
    rwa [if_pos hid] at hnone
  · intro h c hc
    split
    · next hid => exact h c (List.mem_reverse.1 hc) hid
    · rfl

/-- **The last of the campaigns that have the identifier and a name gives it.** -/
theorem named_lastName? (campaigns : List Record) (id : String) :
    Named campaigns id (lastName? campaigns id) := by
  -- Induction on the campaigns: the first of them counts only where no later one gives a name.
  induction campaigns with
  | nil => exact .none fun c hc => absurd hc List.not_mem_nil
  | cons c campaigns ih =>
    rw [lastName?_cons]
    cases hlater : lastName? campaigns id with
    | some name =>
      rw [hlater] at ih
      cases ih with
      | last before c' after _ heq hid hname hafter =>
        exact .last (c :: before) c' after name (by rw [heq, List.cons_append]) hid hname hafter
    | none =>
      have hlast := lastName?_eq_none.1 hlater
      rw [Option.none_or]
      by_cases hid : c.id? = some id
      · rw [if_pos hid]
        cases hname : c.name? with
        | some name => exact .last [] c campaigns name rfl hid hname hlast
        | none => exact .none (List.forall_mem_cons.2 ⟨fun _ => hname, hlast⟩)
      · rw [if_neg hid]
        exact .none (List.forall_mem_cons.2 ⟨fun h => absurd h hid, hlast⟩)

/-! ## One call

Only two calls change the memory, and both do it by listing the campaigns. So one call leaves the
names as they were or makes them whole. -/

/-- What a call can make of a tracker: its data stay, and the names it remembers stay or are those
after it has listed its campaigns. -/
structure Next (t t' : Tracker) : Prop where
  data : t'.data = t.data
  names : t'.names = t.names ∨ t'.names = t.remember.names

/-- The memory is empty, or it holds what the campaigns say of each identifier. -/
def Settled (t : Tracker) : Prop :=
  t.names = NameMap.empty ∨ ∀ id, t.names.get? id = lastName? t.data.campaigns id

variable {t t' : Tracker}

theorem Next.refl (t : Tracker) : Next t t := ⟨rfl, .inl rfl⟩

theorem next_note (t : Tracker) (w : Window) : Next t (t.note w) := ⟨rfl, .inl rfl⟩

theorem next_remember (t : Tracker) : Next t t.remember := ⟨rfl, .inr rfl⟩

/-- Asking for a name lists the campaigns if it is not remembered. -/
theorem next_campaignName (t : Tracker) (id : String) : Next t (t.campaignName id).2 := by
  unfold campaignName
  cases t.names.get? id with
  | some name => exact .refl t
  | none => exact next_remember t

/-- A memory that is empty or whole is faithful. -/
theorem Settled.faithful (h : t.Settled) : t.Faithful := by
  rcases h with hempty | hwhole
  · exact faithful_of_names_empty hempty
  · intro id name hname
    rw [← hwhole, hname]

/-- Once it has listed its campaigns, a faithful tracker remembers what they say and no more. -/
theorem get?_remember_of_faithful (h : t.Faithful) (id : String) :
    t.remember.names.get? id = lastName? t.data.campaigns id := by
  rw [get?_remember]
  cases hknown : t.names.get? id with
  | none => exact Option.or_none
  | some name => rw [h id name hknown, Option.or_self]

/-- **The memory stays empty or whole.** -/
theorem Settled.next (h : t.Settled) (hnext : Next t t') : t'.Settled := by
  unfold Settled
  rw [hnext.data]
  rcases hnext.names with hsame | hlisted
  · rw [hsame]
    exact h
  · rw [hlisted]
    exact .inr (get?_remember_of_faithful h.faithful)

/-- **What is remembered stays remembered as it is.** -/
theorem get?_of_next (h : t.Settled) (hnext : Next t t') {name : String}
    (hname : t.names.get? id = some name) : t'.names.get? id = some name := by
  rcases hnext.names with hsame | hlisted
  · rw [hsame, hname]
  · rw [hlisted, get?_remember_of_faithful h.faithful]
    exact h.faithful id name hname

end Tracker

/-! ## What the tracker can be asked for

There is one inquiry for each call, and with it its arguments. What it answers does not count here,
so all inquiries are actions of one type. -/

inductive Inquiry where
  | listCampaigns
  | listSources (w : Window)
  | campaignStats (campaign : Option String) (w : Window)
  | widgetStats (campaign : String) (p : Platform) (w : Window)
  | campaignName (id : String)
  | campaignFields
  | sourceFields

namespace TrackerAction

open AdOps.Action

variable {α : Type}

/-- What follows an entrance happens on the desk as it was, or not at all. -/
theorem snd_on_enter_bind {call : Call} {f : Unit → Action α} {d : Desk} {P : Desk → Prop}
    (hfault : P d) (hf : P ((f ()).on d).2) : P ((enter call >>= f).on d).2 := by
  unfold enter
  rw [on_bind, on_enter]
  cases d.fault? .thrive call with
  | some e => exact hfault
  | none => exact hf

/-- A call with a window leaves the window noted, whether it runs into a fault or not. -/
theorem snd_on_noted (w : Window) (call : Call) (f : Tracker → α) (d : Desk) :
    ((note w >>= fun _ => enter call >>= fun _ => tracker >>= fun t => pure (f t)).on d).2 =
      { d with tracker := d.tracker.note w } := by
  have hnote : (note w).on d = (.ok (), { d with tracker := d.tracker.note w }) := rfl
  rw [on_bind_ok hnote]
  exact snd_on_enter_bind (P := (· = _)) rfl rfl

/-- A call for a list of fields leaves the desk as it was. -/
theorem snd_on_fields (call : Call) (f : Tracker → α) (d : Desk) :
    ((enterUnrefused .thrive call >>= fun _ => tracker >>= fun t => pure (f t)).on d).2 = d := by
  rw [on_bind, on_enterUnrefused]
  rcases d.faults .thrive call with _ | ⟨_ | _⟩ <;> rfl

theorem on_campaignName (id : String) (d : Desk) :
    ((campaignName id).on d).1 =
      match d.fault? .thrive .campaignName with
      | some e => .error e
      | none => .ok (d.tracker.campaignName id).1 := by
  unfold campaignName enter
  rw [on_bind, on_enter]
  cases d.fault? .thrive .campaignName <;> rfl

end TrackerAction

namespace Inquiry

open AdOps.Action

/-- The call for an inquiry, whatever it answers. -/
def action : Inquiry → Action Unit
  | listCampaigns => discard TrackerAction.listCampaigns
  | listSources w => discard (TrackerAction.listSources w)
  | campaignStats campaign w => discard (TrackerAction.campaignStats campaign w)
  | widgetStats campaign p w => discard (TrackerAction.widgetStats campaign p w)
  | campaignName id => discard (TrackerAction.campaignName id)
  | campaignFields => discard TrackerAction.campaignFields
  | sourceFields => discard TrackerAction.sourceFields

/-- All inquiries read. -/
theorem reads_action (i : Inquiry) : Reads i.action := by
  cases i with
  | listCampaigns => exact TrackerAction.reads_listCampaigns.bind fun _ => .pure ()
  | listSources w => exact (TrackerAction.reads_listSources w).bind fun _ => .pure ()
  | campaignStats campaign w =>
    exact (TrackerAction.reads_campaignStats campaign w).bind fun _ => .pure ()
  | widgetStats campaign p w =>
    exact (TrackerAction.reads_widgetStats campaign p w).bind fun _ => .pure ()
  | campaignName id => exact (TrackerAction.reads_campaignName id).bind fun _ => .pure ()
  | campaignFields => exact TrackerAction.reads_campaignFields.bind fun _ => .pure ()
  | sourceFields => exact TrackerAction.reads_sourceFields.bind fun _ => .pure ()

/-- **What one call does to the tracker**, whether it runs into a fault or not. -/
theorem next (i : Inquiry) (d : Desk) : d.tracker.Next (i.action.on d).2.tracker := by
  cases i with
  | listCampaigns =>
    show d.tracker.Next ((discard TrackerAction.listCampaigns).on d).2.tracker
    rw [on_discard]
    exact TrackerAction.snd_on_enter_bind (P := fun d' => d.tracker.Next d'.tracker) (.refl _)
      (Tracker.next_remember _)
  | listSources w =>
    show d.tracker.Next ((discard (TrackerAction.listSources w)).on d).2.tracker
    rw [on_discard, TrackerAction.listSources, TrackerAction.snd_on_noted]
    exact Tracker.next_note _ w
  | campaignStats campaign w =>
    show d.tracker.Next ((discard (TrackerAction.campaignStats campaign w)).on d).2.tracker
    rw [on_discard, TrackerAction.campaignStats, TrackerAction.snd_on_noted]
    exact Tracker.next_note _ w
  | widgetStats campaign p w =>
    show d.tracker.Next ((discard (TrackerAction.widgetStats campaign p w)).on d).2.tracker
    rw [on_discard, TrackerAction.widgetStats, TrackerAction.snd_on_noted]
    exact Tracker.next_note _ w
  | campaignName id =>
    show d.tracker.Next ((discard (TrackerAction.campaignName id)).on d).2.tracker
    rw [on_discard]
    exact TrackerAction.snd_on_enter_bind (P := fun d' => d.tracker.Next d'.tracker) (.refl _)
      (Tracker.next_campaignName _ id)
  | campaignFields =>
    show d.tracker.Next ((discard TrackerAction.campaignFields).on d).2.tracker
    rw [on_discard, TrackerAction.campaignFields, TrackerAction.snd_on_fields]
    exact .refl _
  | sourceFields =>
    show d.tracker.Next ((discard TrackerAction.sourceFields).on d).2.tracker
    rw [on_discard, TrackerAction.sourceFields, TrackerAction.snd_on_fields]
    exact .refl _

end Inquiry

/-! ## Runs

A run asks one thing after another and goes on after a failure. What one call keeps is kept by
induction on what is asked, from any desk. -/

namespace Desk

/-- The desk after the tracker was asked, one thing after another. -/
def inquired (d : Desk) (asked : List Inquiry) : Desk :=
  asked.foldl (fun d i => (i.action.on d).2) d

variable {d d₀ : Desk}

/-- A desk stays as good as it was along every run. -/
theorem alike_inquired (h : Alike d d₀) (asked : List Inquiry) : Alike (d.inquired asked) d₀ := by
  induction asked generalizing d with
  | nil => exact h
  | cons i asked ih => exact ih (i.reads_action.alike_on h)

/-- **The memory is empty or whole along every run of calls.** -/
theorem settled_inquired (h : d.tracker.Settled) (asked : List Inquiry) :
    (d.inquired asked).tracker.Settled := by
  induction asked generalizing d with
  | nil => exact h
  | cons i asked ih => exact ih (h.next (i.next d))

/-- **No run of calls forgets or changes a name that is remembered.** -/
theorem get?_names_inquired (h : d.tracker.Settled) {id name : String}
    (hname : d.tracker.names.get? id = some name) (asked : List Inquiry) :
    (d.inquired asked).tracker.names.get? id = some name := by
  induction asked generalizing d with
  | nil => exact hname
  | cons i asked ih => exact ih (h.next (i.next d)) (Tracker.get?_of_next h (i.next d) hname)

end Desk

end AdOps
