import Mathlib.Data.List.Forall2
import Mathlib.Data.List.Induction
import AdOps.Proofs.Record.Fields
import AdOps.Record.Projection

/-!
# What a projection keeps

A requested name stands for a field of the record that compares equal to it, and where several fields
do, for the greatest of them. The projection holds what the requested names stand for, and nothing
else. So it depends on how the requested names compare and on nothing else of them, and what it keeps
is what a second projection keeps.

* **`fieldFor?_eq_some_iff`** — the field that is found is the field that a name stands for.
* **`isProjection_iff`** — the projection of a record is determined by what it holds.
* **`project_selects`** — records are projected one by one, whatever the order of the names.
-/

namespace AdOps

/-! ## Maps made of entries

The entries of a map are sorted by name, so it holds each of them, and a map built of entries holds
those that no later one replaced. -/

/-- Of sorted entries the search finds each one, as no other has its name. -/
theorem Entries.find_of_mem {α : Type} {l : List (String × α)} {name : String} {x : α}
    (h : Sorted l) (hmem : (name, x) ∈ l) : find name l = some x := by
  induction l with
  | nil => exact absurd hmem List.not_mem_nil
  | cons e l ih =>
    obtain ⟨hlt, hl⟩ := List.pairwise_cons.1 h
    rw [find]
    rcases List.mem_cons.1 hmem with rfl | hmem
    · rw [if_pos rfl]
    · rw [if_neg (String.ne_of_lt (hlt _ hmem)).symm]
      exact ih hl hmem

namespace NameMap

variable {α : Type} {name : String} {x : α}

theorem mem_entries_iff {m : NameMap α} : (name, x) ∈ m.entries ↔ m.get? name = some x :=
  ⟨Entries.find_of_mem m.sorted, Entries.mem_of_find⟩

theorem get?_ofList_concat (l : List (String × α)) (e : String × α) (name : String) :
    (ofList (l ++ [e])).get? name = if name = e.1 then some e.2 else (ofList l).get? name := by
  unfold ofList
  rw [List.foldl_append, List.foldl_cons, List.foldl_nil, get?_insert]

/-- Entries that agree where they have one name are all kept. -/
theorem get?_ofList_eq_some_iff {l : List (String × α)}
    (h : ∀ e ∈ l, ∀ e' ∈ l, e.1 = e'.1 → e = e') :
    (ofList l).get? name = some x ↔ (name, x) ∈ l := by
  induction l using List.reverseRecOn with
  | nil => simp [ofList]
  | append_singleton l e ih =>
    have hl : ∀ e ∈ l, ∀ e' ∈ l, e.1 = e'.1 → e = e' := fun e he e' he' =>
      h e (List.mem_append_left _ he) e' (List.mem_append_left _ he')
    rw [get?_ofList_concat, List.mem_append, List.mem_singleton]
    split
    · next hname =>
      -- An earlier entry of this name is the last entry.
      subst hname
      have hlast : (e.1, x) ∈ l → (e.1, x) = e := fun hmem =>
        h _ (List.mem_append_left _ hmem) e (List.mem_append_right _ List.mem_cons_self) rfl
      constructor
      · intro hx
        exact .inr (Prod.ext rfl (Option.some.inj hx).symm)
      · intro hmem
        have heq : (e.1, x) = e := hmem.elim hlast id
        rw [← heq]
    · next hname =>
      have hne : (name, x) ≠ e := fun heq => hname (congrArg Prod.fst heq)
      rw [ih hl, or_iff_left hne]

end NameMap

namespace Record

variable {exact : Bool} {wanted : List String} {r out : Record} {w name : String} {v : Json}

/-! ## The field of a requested name

Several fields of a record can compare equal to one requested name, as in lower case. The search
goes through the entries from the last one, so it finds the greatest of them. -/

/-- A requested name stands for a field of the record: the field compares equal to it, and of all
fields that do it is the greatest in the order of code points. -/
structure IsFieldFor (exact : Bool) (r : Record) (w name : String) (v : Json) : Prop where
  held : r.get? name = some v
  alike : matchForm exact name = matchForm exact w
  greatest : ∀ other ∈ r.keys, matchForm exact other = matchForm exact w → other ≤ name

theorem IsFieldFor.mem_keys (h : IsFieldFor exact r w name v) : name ∈ r.keys :=
  NameMap.mem_keys_iff.2 (by rw [h.held]; rfl)

/-- A requested name stands for one field at most. -/
theorem IsFieldFor.unique {name' : String} {v' : Json} (h : IsFieldFor exact r w name v)
    (h' : IsFieldFor exact r w name' v') : name = name' ∧ v = v' := by
  have hname : name = name' := String.le_antisymm
    (h'.greatest name h.mem_keys h.alike) (h.greatest name' h'.mem_keys h'.alike)
  subst hname
  exact ⟨rfl, Option.some.inj (h.held.symm.trans h'.held)⟩

/-- Names that compare equal stand for the same field. -/
theorem IsFieldFor.congr {w' : String} (hw : matchForm exact w = matchForm exact w') :
    IsFieldFor exact r w name v ↔ IsFieldFor exact r w' name v := by
  constructor
  · rintro ⟨hheld, halike, hgreatest⟩
    exact ⟨hheld, halike.trans hw, fun other hother h => hgreatest other hother (h.trans hw.symm)⟩
  · rintro ⟨hheld, halike, hgreatest⟩
    exact ⟨hheld, halike.trans hw.symm, fun other hother h => hgreatest other hother (h.trans hw)⟩

/-- **The field that is found is the field that the name stands for.** -/
theorem fieldFor?_eq_some_iff :
    fieldFor? exact r w = some (name, v) ↔ IsFieldFor exact r w name v := by
  unfold fieldFor?
  rw [List.find?_eq_some_iff_append, decide_eq_true_eq]
  constructor
  · rintro ⟨halike, before, after, hentries, hbefore⟩
    -- The entries are sorted, so what stands behind the field is greater, and does not compare equal.
    have hsplit : r.entries = after.reverse ++ (name, v) :: before.reverse := by
      rw [← r.entries.reverse_reverse, hentries]
      simp
    have hsorted := r.sorted
    unfold Entries.Sorted at hsorted
    rw [hsplit, List.pairwise_append] at hsorted
    obtain ⟨-, -, hless⟩ := hsorted
    refine ⟨NameMap.mem_entries_iff.1 (by rw [hsplit]; simp), halike, fun other hother h => ?_⟩
    obtain ⟨e, he, rfl⟩ := List.mem_map.1 hother
    rw [hsplit] at he
    rcases List.mem_append.1 he with hafter | hmem
    · exact Std.le_of_lt (hless e hafter _ List.mem_cons_self)
    · rcases List.mem_cons.1 hmem with rfl | hmem
      · exact String.le_refl _
      · have hnot := hbefore e (List.mem_reverse.1 hmem)
        rw [decide_eq_true h] at hnot
        exact absurd hnot (by decide)
  · rintro ⟨hheld, halike, hgreatest⟩
    obtain ⟨after, before, hsplit⟩ := List.append_of_mem (NameMap.mem_entries_iff.2 hheld)
    have hsorted := r.sorted
    unfold Entries.Sorted at hsorted
    rw [hsplit, List.pairwise_append, List.pairwise_cons] at hsorted
    obtain ⟨-, ⟨hgreater, -⟩, -⟩ := hsorted
    refine ⟨halike, before.reverse, after.reverse, by rw [hsplit]; simp, fun e he => ?_⟩
    have hmem : e ∈ before := List.mem_reverse.1 he
    have hkey : e.1 ∈ r.keys := List.mem_map_of_mem (by rw [hsplit]; simp [hmem])
    -- A field behind this one is greater, so it does not compare equal.
    have hne : matchForm exact e.1 ≠ matchForm exact w := fun h =>
      absurd (hgreatest _ hkey h) (String.not_le.2 (hgreater e hmem))
    rw [decide_eq_false hne]
    rfl

/-- A requested name that a field compares equal to stands for a field. -/
theorem exists_isFieldFor (hname : name ∈ r.keys) (h : matchForm exact name = matchForm exact w) :
    ∃ name v, IsFieldFor exact r w name v := by
  obtain ⟨e, he, rfl⟩ := List.mem_map.1 hname
  have hfound : (fieldFor? exact r w).isSome = true := by
    unfold fieldFor?
    exact List.find?_isSome.2 ⟨e, List.mem_reverse.2 he, decide_eq_true h⟩
  obtain ⟨⟨name, v⟩, hfield⟩ := Option.isSome_iff_exists.1 hfound
  exact ⟨name, v, fieldFor?_eq_some_iff.1 hfield⟩

/-! ## Projections

The projection is built by one search per requested name. It is said here by what it holds, from
which follow what it depends on and that it can be repeated. -/

/-- The record is the projection of `r` to the requested names: for every requested name that a field
of `r` compares equal to, it holds the field that the name stands for, and it holds nothing else. -/
structure IsProjection (exact : Bool) (wanted : List String) (r out : Record) : Prop where
  selected : ∀ w ∈ wanted, ∀ name ∈ r.keys, matchForm exact name = matchForm exact w →
    ∃ own v, IsFieldFor exact r w own v ∧ out.get? own = some v
  nothingElse : ∀ name v, out.get? name = some v → ∃ w ∈ wanted, IsFieldFor exact r w name v

/-- What is kept is what the requested names stand for. -/
theorem get?_keep_iff :
    (keep exact wanted r).get? name = some v ↔ ∃ w ∈ wanted, IsFieldFor exact r w name v := by
  unfold keep
  rw [NameMap.get?_ofList_eq_some_iff]
  · simp only [List.mem_filterMap, fieldFor?_eq_some_iff]
  · -- Fields of one name are one field of the record.
    rintro ⟨name, v⟩ hv ⟨name', v'⟩ hv' rfl
    obtain ⟨w, -, hw⟩ := List.mem_filterMap.1 hv
    obtain ⟨w', -, hw'⟩ := List.mem_filterMap.1 hv'
    have hheld := (fieldFor?_eq_some_iff.1 hw).held
    rw [(fieldFor?_eq_some_iff.1 hw').held] at hheld
    rw [Option.some.inj hheld]

/-- What is kept is a projection of the record. -/
theorem isProjection_keep (exact : Bool) (wanted : List String) (r : Record) :
    IsProjection exact wanted r (keep exact wanted r) where
  selected w hw name hname h := by
    obtain ⟨own, v, hfield⟩ := exists_isFieldFor hname h
    exact ⟨own, v, hfield, get?_keep_iff.2 ⟨w, hw, hfield⟩⟩
  nothingElse _ _ h := get?_keep_iff.1 h

/-- A projection holds exactly the fields that the requested names stand for. -/
theorem IsProjection.get?_iff (h : IsProjection exact wanted r out) :
    out.get? name = some v ↔ ∃ w ∈ wanted, IsFieldFor exact r w name v := by
  refine ⟨h.nothingElse name v, ?_⟩
  rintro ⟨w, hw, hfield⟩
  obtain ⟨own, u, hown, hout⟩ := h.selected w hw name hfield.mem_keys hfield.alike
  obtain ⟨rfl, rfl⟩ := hown.unique hfield
  exact hout

/-- **The projection of a record is determined by what it holds.** -/
theorem isProjection_iff : IsProjection exact wanted r out ↔ out = keep exact wanted r := by
  constructor
  · intro h
    refine NameMap.ext_get? fun name => Option.ext fun v => ?_
    rw [h.get?_iff, get?_keep_iff]
  · rintro rfl
    exact isProjection_keep exact wanted r

/-- Names that compare alike, in any order and however often, make the same projection. -/
theorem keep_congr {wanted' : List String}
    (h : ∀ form, form ∈ wanted.map (matchForm exact) ↔ form ∈ wanted'.map (matchForm exact)) :
    keep exact wanted r = keep exact wanted' r := by
  have hsub : ∀ {ws ws' : List String},
      (∀ form ∈ ws.map (matchForm exact), form ∈ ws'.map (matchForm exact)) →
      ∀ {name v}, (∃ w ∈ ws, IsFieldFor exact r w name v) →
        ∃ w ∈ ws', IsFieldFor exact r w name v := by
    rintro ws ws' hforms name v ⟨w, hw, hfield⟩
    obtain ⟨w', hw', hform⟩ := List.mem_map.1 (hforms _ (List.mem_map_of_mem hw))
    exact ⟨w', hw', (IsFieldFor.congr hform.symm).1 hfield⟩
  refine NameMap.ext_get? fun name => Option.ext fun v => ?_
  rw [get?_keep_iff, get?_keep_iff]
  exact ⟨hsub fun form => (h form).1, hsub fun form => (h form).2⟩

/-- What a name stands for in the record it stands for in the projection. -/
theorem isFieldFor_keep (hw : w ∈ wanted) (h : IsFieldFor exact r w name v) :
    IsFieldFor exact (keep exact wanted r) w name v where
  held := get?_keep_iff.2 ⟨w, hw, h⟩
  alike := h.alike
  greatest other hother hform := by
    -- The fields of the projection are fields of the record.
    obtain ⟨u, hu⟩ := Option.isSome_iff_exists.1 (NameMap.mem_keys_iff.1 hother)
    obtain ⟨w', -, hfield⟩ := get?_keep_iff.1 hu
    exact h.greatest other hfield.mem_keys hform

/-- A second projection keeps what the first one kept. -/
theorem keep_keep (exact : Bool) (wanted : List String) (r : Record) :
    keep exact wanted (keep exact wanted r) = keep exact wanted r := by
  refine NameMap.ext_get? fun name => Option.ext fun v => ?_
  rw [get?_keep_iff]
  constructor
  · rintro ⟨w, -, hfield⟩
    exact hfield.held
  · intro h
    obtain ⟨w, hw, hfield⟩ := get?_keep_iff.1 h
    exact ⟨w, hw, isFieldFor_keep hw hfield⟩

theorem project_of_ne_nil (h : wanted ≠ []) (exact : Bool) (records : List Record) :
    project exact wanted records = records.map (keep exact wanted) := by
  unfold project
  rw [if_neg (by simpa using h)]

/-- **A projection selects exactly the requested fields**, whether names are matched exactly or in
lower case. With a name or more requested:

* The records are projected one by one, in their order, and each result holds the fields that the
  requested names stand for and nothing else, which leaves one result only.
* The result depends on the set of forms in which the requested names are matched, not on their order
  or repetition.
* Projecting again changes nothing. -/
theorem project_selects (exact : Bool) {wanted : List String} (hwanted : wanted ≠ [])
    (records : List Record) :
    (∀ outs, List.Forall₂ (IsProjection exact wanted) records outs ↔
      outs = project exact wanted records) ∧
    (∀ wanted', (∀ form, form ∈ wanted.map (matchForm exact) ↔ form ∈ wanted'.map (matchForm exact)) →
      project exact wanted' records = project exact wanted records) ∧
    project exact wanted (project exact wanted records) = project exact wanted records := by
  refine ⟨fun outs => ?_, fun wanted' hforms => ?_, ?_⟩
  -- Being a projection is being what is kept, so the results are the records with that applied.
  · have hrel : IsProjection exact wanted = fun r out => keep exact wanted r = out :=
      funext fun r => funext fun out => propext (isProjection_iff.trans eq_comm)
    rw [project_of_ne_nil hwanted, hrel, ← List.forall₂_map_left_iff, List.forall₂_eq_eq_eq]
    exact eq_comm
  · have hwanted' : wanted' ≠ [] := by
      rintro rfl
      obtain ⟨w, hw⟩ := List.exists_mem_of_ne_nil wanted hwanted
      exact absurd ((hforms _).1 (List.mem_map_of_mem hw)) List.not_mem_nil
    rw [project_of_ne_nil hwanted, project_of_ne_nil hwanted']
    exact List.map_congr_left fun r _ => (keep_congr hforms).symm
  · rw [project_of_ne_nil hwanted, project_of_ne_nil hwanted, List.map_map]
    exact List.map_congr_left fun r _ => keep_keep exact wanted r

/-! A record with two fields that differ in case only: a requested name in any case stands for the one
in small letters, which is the greater of the two. -/

namespace Colliding

def row : Record :=
  NameMap.ofList [("ID", .int 1), ("Name", .string "7 Spring"), ("id", .int 2)]

end Colliding

theorem project_selects_colliding :
    ["iD", "none"] ≠ [] ∧
      (project false ["none", "ID", "id"] [Colliding.row]).map NameMap.keys = [["id"]] ∧
      project false ["none", "ID", "id"] [Colliding.row] =
        project false ["iD", "none"] [Colliding.row] ∧
      project false ["iD", "none"] (project false ["iD", "none"] [Colliding.row]) =
        project false ["iD", "none"] [Colliding.row] := by
  have hwanted : ["iD", "none"] ≠ [] := by decide
  obtain ⟨-, hforms, hagain⟩ := project_selects false hwanted [Colliding.row]
  have hsame : ["iD", "none"].map (matchForm false) = ["id", "none"] ∧
      ["none", "ID", "id"].map (matchForm false) = ["none", "id", "id"] := by
    decide +kernel
  refine ⟨hwanted, by decide +kernel, hforms ["none", "ID", "id"] fun form => ?_, hagain⟩
  rw [hsame.1, hsame.2]
  simp [or_comm]

end Record
end AdOps
