import AdOps.Proofs.Reconcile.Keyed
import AdOps.Reconcile.Join

/-!
# What a join does with each record

In a lenient join every platform record has one fate: it is reported because its name links it to
nothing, it is joined with the first tracker record that answers to its link, or it is left out
because no tracker record does. Links and answers are said here without the scanning of names and
the search through the tracker's records, and `fate_iff` ties the two together.

* **`joinKey?_eq_some_iff`** — the key of a name is the run of digits that a space ends.
* **`fate_iff`** — the fates are what joining one record comes to, and each record has one.
* **`exists_join_lenient`** — a lenient join puts together what its records come to, one by one.
* **`mem_join`** — the rows that a join can have.
* **`join_fates`** — a join puts the fates of its records together, in their order.
-/

namespace AdOps

/-! ## Links

The key of a name is scanned from its front. Said without the scan, a name is linked to a key if it
begins with the key, made of digits, and a space behind it. -/

/-- The name begins with the key, a run of digits, and a space behind it. -/
def IsLink (name key : String) : Prop :=
  Text.isDigits key.toList = true ∧ ∃ rest, name.toList = key.toList ++ ' ' :: rest

theorem not_isDigit_space : Text.isDigit ' ' = false := by decide

/-- The scan finds nothing but links: what it stops at is a space, and what it took is not empty. -/
theorem isLink_of_joinKey? {name key : String} (h : joinKey? name = some key) :
    IsLink name key := by
  unfold joinKey? at h
  dsimp only at h
  split at h
  · next rest hrest =>
    cases hempty : (name.toList.takeWhile Text.isDigit).isEmpty with
    | true =>
      rw [hempty] at h
      exact absurd h (by simp)
    | false =>
      rw [hempty] at h
      obtain rfl := Option.some.inj h
      have hall : (name.toList.takeWhile Text.isDigit).all Text.isDigit = true :=
        List.all_takeWhile
      refine ⟨?_, rest, ?_⟩
      · rw [String.toList_ofList]
        unfold Text.isDigits
        rw [hempty, hall]
        rfl
      · rw [String.toList_ofList, ← hrest, List.takeWhile_append_dropWhile]
  · exact absurd h (by simp)

/-- The scan finds every link, so no name is linked to two keys. -/
theorem joinKey?_of_isLink {name key : String} (h : IsLink name key) :
    joinKey? name = some key := by
  obtain ⟨hdigits, rest, hname⟩ := h
  obtain ⟨hne, hall⟩ := Bool.and_eq_true_iff.1 hdigits
  have hmem : ∀ c ∈ key.toList, Text.isDigit c = true := List.all_eq_true.1 hall
  -- The run of digits ends at the space and not before.
  have htake : name.toList.takeWhile Text.isDigit = key.toList := by
    rw [hname, List.takeWhile_append_of_pos hmem, List.takeWhile_cons, not_isDigit_space]
    simp
  have hdrop : name.toList.dropWhile Text.isDigit = ' ' :: rest := by
    rw [hname, List.dropWhile_append_of_pos hmem, List.dropWhile_cons, not_isDigit_space]
    simp
  have hempty : key.toList.isEmpty = false := by simpa using hne
  unfold joinKey?
  rw [hdrop, htake]
  simp [hempty]

/-- **The key of a name is the run of digits at its front that a space ends.** -/
theorem joinKey?_eq_some_iff {name key : String} : joinKey? name = some key ↔ IsLink name key :=
  ⟨isLink_of_joinKey?, joinKey?_of_isLink⟩

namespace Record

/-- The name of the record is a string that links it to the key. -/
def LinksTo (r : Record) (key : String) : Prop :=
  ∃ name, r.get? "name" = some (.string name) ∧ IsLink name key

/-- The record holds something, and the text of its identifier is the key. -/
def AnswersTo (t : Record) (key : String) : Prop := t ≠ NameMap.empty ∧ t.id? = some key

theorem isEmpty_iff {t : Record} : t.isEmpty = true ↔ t = NameMap.empty := by
  unfold NameMap.isEmpty
  rw [List.isEmpty_iff]
  exact ⟨fun h => NameMap.ext_entries h, fun h => h ▸ rfl⟩

theorem name?_eq_some_iff {r : Record} {name : String} :
    r.name? = some name ↔ r.get? "name" = some (.string name) := by
  unfold name?
  cases hv : r.get? "name" with
  | none => simp
  | some v => cases v <;> simp [Json.string?]

/-- A record links to the key that the scan finds in its name. -/
theorem linksTo_iff {r : Record} {key : String} :
    r.LinksTo key ↔ joinKey? (r.name?.getD "") = some key := by
  unfold LinksTo
  simp only [← name?_eq_some_iff, ← joinKey?_eq_some_iff]
  cases hname : r.name? with
  | some name => simp
  | none =>
    -- A record without a name is looked at as if its name were blank, and that links to nothing.
    have hblank : joinKey? "" = none := rfl
    simp [hblank]

/-- Whether a record answers to a key is what the search through the tracker tests. An empty record
answers to none. -/
theorem answersTo_iff {t : Record} {key : String} :
    t.AnswersTo key ↔ (!t.isEmpty && t.id? == some key) = true := by
  unfold AnswersTo
  rw [Bool.and_eq_true, Bool.not_eq_true', ← Bool.not_eq_true, isEmpty_iff, beq_iff_eq]

/-- **The joined record holds the fields of both**, the platform's where both have one. -/
theorem get?_joined (r t : Record) (field : String) :
    (r.joined (some t)).get? field = (r.get? field).or (t.get? field) := by
  have h := Entries.get?_foldl_insert r.sorted (fun _ v => v) t field
  rwa [Option.map_id'] at h

/-- A joined record is determined field by field. -/
theorem eq_joined_iff {m r t : Record} :
    m = r.joined (some t) ↔ ∀ field, m.get? field = (r.get? field).or (t.get? field) := by
  constructor
  · rintro rfl field
    exact get?_joined r t field
  · intro h
    exact NameMap.ext_get? fun field => (h field).trans (get?_joined r t field).symm

end Record

namespace Reconcile

/-! ## Counterparts

The search stops at the first record of the tracker that answers to the key, so what it finds is
told by what stands before it. -/

/-- The counterpart of a key is the first record that answers to it. -/
theorem counterpart?_eq_some_iff {tracker : List Record} {key : String} {t : Record} :
    counterpart? tracker key = some t ↔
      t.AnswersTo key ∧ ∃ before after, tracker = before ++ t :: after ∧
        ∀ u ∈ before, ¬ u.AnswersTo key := by
  unfold counterpart?
  simp only [List.find?_eq_some_iff_append, Record.answersTo_iff, Bool.not_eq_true']
  simp

/-- A key has no counterpart if no record answers to it. -/
theorem counterpart?_eq_none_iff {tracker : List Record} {key : String} :
    counterpart? tracker key = none ↔ ∀ t ∈ tracker, ¬ t.AnswersTo key := by
  unfold counterpart?
  rw [List.find?_eq_none]
  simp only [Record.answersTo_iff]

/-! ## Fates

There are three fates, one constructor each, and they exclude one another: a name links or it does
not, and where it links, some record answers or none does. -/

/-- What a platform record adds to the records and to the issues of a lenient join. -/
inductive Fate (tracker : List Record) (p : Platform) (r : Record) : Joined → Prop where
  | reported (hkey : ∀ key, ¬ r.LinksTo key) :
      Fate tracker p r ⟨[], [{
        message := "Missing Tracker ID Reference"
        id := some (r.id?.getD "")
        name := some (r.name?.getD "")
        platform := some p }]⟩
  | merged {key : String} {before after : List Record} {t m : Record} (hkey : r.LinksTo key)
      (htracker : tracker = before ++ t :: after) (hfirst : ∀ u ∈ before, ¬ u.AnswersTo key)
      (ht : t.AnswersTo key) (hm : ∀ field, m.get? field = (r.get? field).or (t.get? field)) :
      Fate tracker p r ⟨[m], []⟩
  | dropped {key : String} (hkey : r.LinksTo key) (hnone : ∀ t ∈ tracker, ¬ t.AnswersTo key) :
      Fate tracker p r ⟨[], []⟩

/-- What joining one record leniently comes to. -/
def fateOf (tracker : List Record) (p : Platform) (r : Record) : Joined :=
  match joinKey? (r.name?.getD "") with
  | none => ⟨[], [.unjoinable p (r.id?.getD "") (r.name?.getD "")]⟩
  | some key => ⟨((counterpart? tracker key).map fun t => r.joined (some t)).toList, []⟩

variable {tracker : List Record} {p : Platform} {r : Record}

/-- Joining one record leniently never fails. -/
theorem joinOne_lenient (tracker : List Record) (p : Platform) (r : Record) :
    joinOne tracker p .lenient r = .ok (fateOf tracker p r) := by
  unfold joinOne fateOf
  dsimp only
  cases joinKey? (r.name?.getD "") <;> rfl

theorem fateOf_of_linksTo {key : String} (h : r.LinksTo key) :
    fateOf tracker p r =
      ⟨((counterpart? tracker key).map fun t => r.joined (some t)).toList, []⟩ := by
  unfold fateOf
  rw [Record.linksTo_iff.1 h]

/-- What joining a record comes to is a fate of it. -/
theorem fate_fateOf (tracker : List Record) (p : Platform) (r : Record) :
    Fate tracker p r (fateOf tracker p r) := by
  cases hkey : joinKey? (r.name?.getD "") with
  | none =>
    unfold fateOf
    rw [hkey]
    -- The scan found nothing, so no key is linked.
    refine .reported fun key hlink => ?_
    rw [Record.linksTo_iff, hkey] at hlink
    exact absurd hlink (by simp)
  | some key =>
    have hlink : r.LinksTo key := Record.linksTo_iff.2 hkey
    rw [fateOf_of_linksTo hlink]
    cases ht : counterpart? tracker key with
    | none => exact .dropped hlink (counterpart?_eq_none_iff.1 ht)
    | some t =>
      obtain ⟨hanswers, before, after, htracker, hfirst⟩ := counterpart?_eq_some_iff.1 ht
      exact .merged hlink htracker hfirst hanswers (Record.get?_joined r t)

/-- **Each record has exactly one fate**, and joining it comes to that. -/
theorem fate_iff {j : Joined} : Fate tracker p r j ↔ j = fateOf tracker p r := by
  constructor
  · intro h
    cases h with
    | reported hkey =>
      have hnone : joinKey? (r.name?.getD "") = none := by
        cases hk : joinKey? (r.name?.getD "") with
        | none => rfl
        | some key => exact absurd (Record.linksTo_iff.2 hk) (hkey key)
      unfold fateOf
      rw [hnone]
      rfl
    | merged hkey htracker hfirst ht hm =>
      rw [fateOf_of_linksTo hkey, counterpart?_eq_some_iff.2 ⟨ht, _, _, htracker, hfirst⟩,
        Record.eq_joined_iff.2 hm]
      rfl
    | dropped hkey hnone =>
      rw [fateOf_of_linksTo hkey, counterpart?_eq_none_iff.2 hnone]
      rfl
  · rintro rfl
    exact fate_fateOf tracker p r

/-! ## The whole join

The records are joined one by one, so a join is told by what each record comes to. A tracker that
answers with one empty record had nothing to say, and then nothing is joined. -/

/-- The tracker's answer stands for no data if it is one empty record. -/
theorem isPlaceholder_iff {tracker : List Record} :
    isPlaceholder tracker = true ↔ tracker = [NameMap.empty] := by
  cases tracker with
  | nil => simp [isPlaceholder]
  | cons t rest =>
    cases rest with
    | nil => simp [isPlaceholder, Record.isEmpty_iff]
    | cons u rest => simp [isPlaceholder]

/-- Without data of the tracker the records stay as they are, in both modes. -/
theorem join_of_placeholder (p : Platform) (mode : JoinMode) (records : List Record) :
    join [NameMap.empty] p mode records = .ok ⟨records, []⟩ := by
  unfold join
  rw [if_pos (isPlaceholder_iff.2 rfl)]

/-- A lenient join never fails. -/
theorem join_lenient (htracker : tracker ≠ [NameMap.empty]) (records : List Record) :
    join tracker p .lenient records =
      .ok ⟨records.flatMap fun r => (fateOf tracker p r).records,
        records.flatMap fun r => (fateOf tracker p r).issues⟩ := by
  have hparts : records.mapM (joinOne tracker p .lenient) = .ok (records.map (fateOf tracker p)) := by
    rw [funext (joinOne_lenient tracker p)]
    exact List.mapM_pure
  unfold join
  rw [if_neg fun h => htracker (isPlaceholder_iff.1 h), hparts]
  show Except.ok (Joined.mk _ _) = _
  rw [List.flatMap_map, List.flatMap_map]

/-- **A lenient join puts together what each record comes to by itself.** -/
theorem exists_join_lenient (tracker : List Record) (p : Platform) :
    ∃ part : Record → Joined, ∀ records, join tracker p .lenient records =
      .ok ⟨records.flatMap fun r => (part r).records,
        records.flatMap fun r => (part r).issues⟩ := by
  by_cases htracker : tracker = [NameMap.empty]
  · -- Without data of the tracker each record comes to itself.
    refine ⟨fun r => ⟨[r], []⟩, fun records => ?_⟩
    rw [htracker, join_of_placeholder, List.flatMap_singleton']
    congr 2
    exact (List.flatMap_eq_nil_iff.2 fun _ _ => rfl).symm
  · exact ⟨fateOf tracker p, join_lenient htracker⟩

/-- Each result of a run over a list is the result of one of its elements. -/
theorem exists_of_mem_mapM {α β : Type} {f : α → Except Failure β} {l : List α} {bs : List β}
    (h : l.mapM f = .ok bs) {b : β} (hb : b ∈ bs) : ∃ a ∈ l, f a = .ok b := by
  -- Induction on the list. The results of the tail are other results, so `bs` is any list.
  induction l generalizing bs with
  | nil =>
    obtain rfl := Except.ok.inj h
    exact absurd hb List.not_mem_nil
  | cons a l ih =>
    rw [List.mapM_cons] at h
    cases hfa : f a with
    | error e =>
      rw [hfa] at h
      exact absurd h (by simp [bind, Except.bind])
    | ok b' =>
      cases hrest : l.mapM f with
      | error e =>
        rw [hfa, hrest] at h
        exact absurd h (by simp [bind, Except.bind])
      | ok bs' =>
        rw [hfa, hrest] at h
        obtain rfl := Except.ok.inj h
        rcases List.mem_cons.1 hb with rfl | hmem
        · exact ⟨a, List.mem_cons_self, hfa⟩
        · obtain ⟨a', ha', heq⟩ := ih hrest hmem
          exact ⟨a', List.mem_cons_of_mem _ ha', heq⟩

/-- Whatever the mode, the row of one record is that record joined with one of the tracker's. -/
theorem exists_of_mem_joinOne {mode : JoinMode} {j : Joined}
    (h : joinOne tracker p mode r = .ok j) {m : Record} (hm : m ∈ j.records) :
    ∃ t ∈ tracker, m = r.joined (some t) := by
  unfold joinOne at h
  dsimp only at h
  cases hkey : joinKey? (r.name?.getD "") with
  | none =>
    rw [hkey] at h
    cases mode with
    | strict => exact absurd h (by simp)
    | lenient =>
      obtain rfl := Except.ok.inj h
      exact absurd hm List.not_mem_nil
  | some key =>
    rw [hkey] at h
    obtain rfl := Except.ok.inj h
    obtain ⟨t, ht, rfl⟩ := Option.map_eq_some_iff.1 (Option.mem_toList.1 hm)
    exact ⟨t, List.mem_of_find?_eq_some ht, rfl⟩

/-- **The rows of a join**, strict or lenient: a platform record as it is, or joined with a record
of the tracker. -/
theorem mem_join {mode : JoinMode} {records : List Record} {joined : Joined}
    (h : join tracker p mode records = .ok joined) {m : Record} (hm : m ∈ joined.records) :
    m ∈ records ∨ ∃ r ∈ records, ∃ t ∈ tracker, m = r.joined (some t) := by
  unfold join at h
  split at h
  · obtain rfl := Except.ok.inj h
    exact .inl hm
  · cases hparts : records.mapM (joinOne tracker p mode) with
    | error e =>
      rw [hparts] at h
      exact absurd h (by simp [bind, Except.bind])
    | ok parts =>
      rw [hparts] at h
      obtain rfl := Except.ok.inj h
      -- The row is in the share of one record, and that share was made of this record alone.
      obtain ⟨j, hj, hmj⟩ := List.mem_flatMap.1 hm
      obtain ⟨r, hr, hone⟩ := exists_of_mem_mapM hparts hj
      obtain ⟨t, ht, heq⟩ := exists_of_mem_joinOne hone hmj
      exact .inr ⟨r, hr, t, ht, heq⟩

/-- **A lenient join accounts for every record.** Each platform record has exactly one fate: it is
reported, it is merged with the first tracker record that answers to its link, or it is dropped. The
merged records and the issues stand in the order of the platform records. But where the tracker
gives a single empty record, all platform records are returned as they are, in both modes. -/
theorem join_fates (tracker : List Record) (p : Platform) (records : List Record) :
    (∀ mode, join [NameMap.empty] p mode records = .ok ⟨records, []⟩) ∧
      (tracker = [NameMap.empty] ∨
        ∃ fate : Record → Joined, (∀ r j, Fate tracker p r j ↔ j = fate r) ∧
          join tracker p .lenient records =
            .ok ⟨records.flatMap fun r => (fate r).records,
              records.flatMap fun r => (fate r).issues⟩) := by
  refine ⟨fun mode => join_of_placeholder p mode records, ?_⟩
  by_cases htracker : tracker = [NameMap.empty]
  · exact .inl htracker
  · exact .inr ⟨fateOf tracker p, fun _ _ => fate_iff, join_lenient htracker records⟩

end Reconcile

end AdOps
