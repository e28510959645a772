import AdOps.Service.Tracker

/-!
# What the tracker remembers

The tracker remembers the names of its campaigns once it has listed them. What it remembers is
*faithful* as long as every remembered name is the one that its campaigns have now, and its data
never changes, so the memory saves a look at the campaigns and never changes an answer.

* **`get?_remember`** — what the tracker knows after it has listed its campaigns.
* **`campaignName_eq`** — a faithful tracker answers what its campaigns say.
-/

namespace AdOps.Tracker

/-- The name of a campaign by its identifier: of several campaigns that have one, the last one's. -/
def lastName? (campaigns : List Record) (id : String) : Option String :=
  campaigns.reverse.findSome? fun c => if c.id? = some id then c.name? else none

/-- Every remembered name is the name of a campaign. -/
def Faithful (t : Tracker) : Prop :=
  ∀ id name, t.names.get? id = some name → lastName? t.data.campaigns id = some name

/-- The first campaign has its say only where no later one gives the name. -/
theorem lastName?_cons (c : Record) (campaigns : List Record) (id : String) :
    lastName? (c :: campaigns) id =
      (lastName? campaigns id).or (if c.id? = some id then c.name? else none) := by
  unfold lastName?
  rw [List.reverse_cons, List.findSome?_append]
  simp

/-- One campaign changes what is remembered for its own identifier only. -/
theorem get?_rememberOne (names : NameMap String) (c : Record) (id : String) :
    (rememberOne names c).get? id =
      (if c.id? = some id then c.name? else none).or (names.get? id) := by
  unfold rememberOne
  cases hid : c.id? with
  | none => simp
  | some key =>
    cases hname : c.name? with
    | none => simp
    | some name =>
      by_cases hkey : id = key
      · simp [hkey]
      · simp [hkey, Ne.symm hkey]

/-- Remembering campaigns one after another leaves the last name of each identifier. -/
theorem get?_foldl_rememberOne (campaigns : List Record) (names : NameMap String) (id : String) :
    (campaigns.foldl rememberOne names).get? id =
      (lastName? campaigns id).or (names.get? id) := by
  -- Induction on the campaigns. A later one stores over an earlier one, so `names` is any map.
  induction campaigns generalizing names with
  | nil => rfl
  | cons c campaigns ih =>
    rw [List.foldl_cons, ih, get?_rememberOne, lastName?_cons, Option.or_assoc]

/-- **After it has listed its campaigns the tracker knows every name they give**, and what it knew
of other identifiers. -/
theorem get?_remember (t : Tracker) (id : String) :
    t.remember.names.get? id = (lastName? t.data.campaigns id).or (t.names.get? id) :=
  get?_foldl_rememberOne t.data.campaigns t.names id

/-! ## Faithful trackers

A tracker that remembers nothing is faithful, and listing the campaigns keeps it so, because a name
that it did not look up again is the one it would find. -/

theorem faithful_of_names_empty {t : Tracker} (h : t.names = NameMap.empty) : t.Faithful := by
  intro id name hname
  rw [h] at hname
  exact absurd hname (by simp)

/-- Listing the campaigns keeps a tracker faithful. -/
theorem Faithful.remember {t : Tracker} (h : t.Faithful) : t.remember.Faithful := by
  intro id name hname
  show lastName? t.data.campaigns id = some name
  rw [get?_remember] at hname
  rcases Option.or_eq_some_iff.1 hname with hlast | ⟨_, hknown⟩
  · exact hlast
  · exact h id name hknown

theorem Faithful.note {t : Tracker} (h : t.Faithful) (w : Window) : (t.note w).Faithful := h

/-- **A faithful tracker answers what its campaigns say**, whatever it remembers. -/
theorem campaignName_eq {t : Tracker} (h : t.Faithful) (id : String) :
    (t.campaignName id).1 = lastName? t.data.campaigns id := by
  unfold campaignName
  cases hname : t.names.get? id with
  | some name => exact (h id name hname).symm
  | none =>
    -- Nothing is remembered of the campaign, so the list that was just made decides.
    show t.remember.names.get? id = _
    rw [get?_remember, hname, Option.or_none]

/-- Being asked for a name keeps a tracker faithful. -/
theorem Faithful.campaignName {t : Tracker} (h : t.Faithful) (id : String) :
    (t.campaignName id).2.Faithful := by
  unfold Tracker.campaignName
  cases t.names.get? id with
  | some name => exact h
  | none => exact h.remember

theorem data_campaignName (t : Tracker) (id : String) : (t.campaignName id).2.data = t.data := by
  unfold campaignName
  cases t.names.get? id <;> rfl

end AdOps.Tracker
