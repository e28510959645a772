import AdOps.Reconcile.Keyed

/-!
# What a merge on a key gives

The combined record of a pair answers field by field (`get?_combine`): the left value stands, numbers
on both sides are added, and where the left record lacks a field the right one fills in. From this
follows which rows an outer merge can have (`mem_mergeOn_outer`).
-/

namespace AdOps

/-! ## Records that are built up

A combined record is made by inserting one field after the other into the right record. Names of
sorted entries are distinct, so no insertion undoes another. -/

namespace Entries

variable {α : Type}

/-- Inserting values for sorted entries, each made from its entry, answers each name by its entry. -/
theorem get?_foldl_insert {l : List (String × α)} (h : Sorted l) (g : String → α → α)
    (m : NameMap α) (name : String) :
    (l.foldl (fun acc e => acc.insert e.1 (g e.1 e.2)) m).get? name =
      ((find name l).map (g name)).or (m.get? name) := by
  induction l generalizing m with
  | nil => rfl
  | cons e l ih =>
    obtain ⟨k, x⟩ := e
    have hl : Sorted l := (List.pairwise_cons.1 h).2
    rw [List.foldl_cons, ih hl]
    by_cases hk : name = k
    · -- The name stands in front, so no later entry has it.
      subst hk
      have hnone : find name l = none := find_eq_none_of_lt (List.pairwise_cons.1 h).1
      rw [hnone]
      simp [find]
    · rw [NameMap.get?_insert, if_neg hk]
      simp [find, hk]

end Entries

namespace Record

/-- The text of a field depends on the field only. -/
theorem text?_congr {r s : Record} {field : String} (h : r.get? field = s.get? field) :
    r.text? field = s.text? field := by
  unfold text?
  rw [h]

theorem text?_insert_of_ne {field other : String} (h : other ≠ field) (r : Record) (v : Json) :
    text? (r.insert field v) other = r.text? other :=
  text?_congr (by rw [NameMap.get?_insert, if_neg h])

end Record

namespace Reconcile

/-- **The combined record, field by field.** -/
theorem get?_combine (key : String) (left right : Record) (field : String) :
    (combine key left right).get? field =
      ((left.get? field).map fun v =>
        if field = key then v else combineValue v (right.get? field)).or (right.get? field) :=
  Entries.get?_foldl_insert left.sorted
    (fun name v => if name = key then v else combineValue v (right.get? name)) right field

/-- **A combined record has the key of its left record.** -/
theorem text?_combine_key {key text : String} {left : Record} (h : left.text? key = some text)
    (right : Record) : (combine key left right).text? key = some text := by
  rw [← h]
  apply Record.text?_congr
  rw [get?_combine]
  cases hkey : left.get? key with
  | none =>
    unfold Record.text? at h
    rw [hkey] at h
    exact absurd h (by simp)
  | some v =>
    show some (if key = key then v else _) = some v
    rw [if_pos rfl]

/-- A text on the left stands. -/
theorem get?_combine_string {key field s : String} {left : Record}
    (h : left.get? field = some (.string s)) (right : Record) :
    (combine key left right).get? field = some (.string s) := by
  rw [get?_combine, h]
  show some (if field = key then Json.string s else Json.string s) = _
  rw [ite_self]

/-- A record that is found by its key is in the list and has the key. -/
theorem mem_of_withKey? {records : List Record} {key text : String} {r : Record}
    (h : withKey? records key text = some r) : r ∈ records ∧ r.text? key = some text := by
  refine ⟨List.mem_of_find?_eq_some h, ?_⟩
  have hkey := List.find?_some h
  exact eq_of_beq hkey

/-- **The rows of an outer merge.** A row is combined of a left row and a right row with the key of
the left row, is a left row, or is a right row whose key no left row has. -/
theorem mem_mergeOn_outer {key : String} {left right : List Record} {row : Record}
    (h : row ∈ mergeOn key .outer left right) :
    (∃ l ∈ left, ∃ r ∈ right, ∃ text, l.text? key = some text ∧ row = combine key l r) ∨
      (row ∈ left ∧ (row.text? key).isSome) ∨
        ∃ text, row.text? key = some text ∧ ∀ l ∈ left, l.text? key ≠ some text := by
  -- Pairs with a common key, rows that are alone on the left, and rows that are alone on the right.
  rcases List.mem_append.1 h with h | hright
  · rcases List.mem_append.1 h with hcommon | hleft
    · obtain ⟨l, hl, hmatch⟩ := List.mem_filterMap.1 hcommon
      obtain ⟨text, htext, hfound⟩ := Option.bind_eq_some_iff.1 hmatch
      obtain ⟨r, hr, hrow⟩ := Option.map_eq_some_iff.1 hfound
      exact .inl ⟨l, hl, r, (mem_of_withKey? hr).1, text, htext, hrow.symm⟩
    · obtain ⟨hmem, halone⟩ := List.mem_filter.1 hleft
      refine .inr (.inl ⟨hmem, ?_⟩)
      unfold isAlone at halone
      cases htext : row.text? key with
      | none =>
        rw [htext] at halone
        exact absurd halone (by simp)
      | some text => rfl
  · obtain ⟨-, halone⟩ := List.mem_filter.1 hright
    unfold isAlone at halone
    cases htext : row.text? key with
    | none =>
      rw [htext] at halone
      exact absurd halone (by simp)
    | some text =>
      rw [htext] at halone
      refine .inr (.inr ⟨text, rfl, fun l hl hkey => ?_⟩)
      have hnone : withKey? left key text = none := Option.isNone_iff_eq_none.1 halone
      exact List.find?_eq_none.1 hnone l hl (beq_iff_eq.2 hkey)

end Reconcile

end AdOps
