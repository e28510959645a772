import AdOps.Handler.Invocation
import AdOps.Proofs.Reconcile.Join

/-!
# The fields of records

Which fields a record has after it was built up. A record that is joined or combined of two has the
fields of both, and the view with the cost per acquisition has one more at most. The identifier is a
field that joining and deriving leave alone.

* **`mem_keys_joined`**, **`mem_keys_combine`** — the fields of both records.
* **`mem_keys_withCpa`** — the fields of a row with its cost per acquisition.
* **`get?_withFieldsOf`** — some fields of a record over those of another one.
* **`id?_joined`**, **`id?_withCpa`** — the identifier is the platform record's.
* **`FieldsIn`** — all fields of some records have a property.
-/

namespace AdOps

namespace Entries

variable {α : Type} {l : List (String × α)} {name : String}

theorem mem_of_find {x : α} (h : find name l = some x) : (name, x) ∈ l := by
  induction l with
  | nil => exact absurd h (by simp [find])
  | cons e l ih =>
    obtain ⟨k, y⟩ := e
    rw [find] at h
    split at h
    · next heq =>
      subst heq
      obtain rfl := Option.some.inj h
      exact List.mem_cons_self
    · exact List.mem_cons_of_mem _ (ih h)

theorem isSome_find_of_mem {e : String × α} (h : e ∈ l) : (find e.1 l).isSome = true := by
  induction l with
  | nil => exact absurd h List.not_mem_nil
  | cons e' l ih =>
    rw [find]
    split
    · rfl
    · next hne =>
      rcases List.mem_cons.1 h with rfl | hmem
      · exact absurd rfl hne
      · exact ih hmem

end Entries

namespace NameMap

variable {α : Type} {m : NameMap α} {name other : String}

/-- A name is a key of a map if the map holds something under it. -/
theorem mem_keys_iff : name ∈ m.keys ↔ (m.get? name).isSome = true := by
  constructor
  · intro h
    obtain ⟨e, he, rfl⟩ := List.mem_map.1 h
    exact Entries.isSome_find_of_mem he
  · intro h
    obtain ⟨x, hx⟩ := Option.isSome_iff_exists.1 h
    exact List.mem_map.2 ⟨_, Entries.mem_of_find hx, rfl⟩

theorem mem_values_of_get? {x : α} (h : m.get? name = some x) : x ∈ m.values :=
  List.mem_map.2 ⟨_, Entries.mem_of_find h, rfl⟩

theorem not_mem_keys_empty : name ∉ (empty : NameMap α).keys := List.not_mem_nil

/-- A map that is built of entries is empty only if there are none. -/
theorem ofList_eq_empty_iff {l : List (String × α)} :
    ofList l = empty ↔ l = [] := by
  rcases l.eq_nil_or_concat with rfl | ⟨l, e, rfl⟩
  · exact ⟨fun _ => rfl, fun _ => rfl⟩
  · refine ⟨fun h => ?_, fun h => absurd h (by simp)⟩
    -- The last entry was stored, whatever the others are.
    have hlast : ofList (l.concat e) = (ofList l).insert e.1 e.2 := by
      unfold ofList
      rw [List.concat_eq_append, List.foldl_append, List.foldl_cons, List.foldl_nil]
    have hfound := congrArg (·.get? e.1) (hlast.symm.trans h)
    exact absurd hfound (by simp)

theorem mem_keys_insert {value : α} :
    name ∈ (m.insert other value).keys ↔ name = other ∨ name ∈ m.keys := by
  rw [mem_keys_iff, mem_keys_iff, get?_insert]
  by_cases h : name = other <;> simp [h]

theorem mem_keys_erase : name ∈ (m.erase other).keys ↔ name ≠ other ∧ name ∈ m.keys := by
  rw [mem_keys_iff, mem_keys_iff, get?_erase]
  by_cases h : name = other <;> simp [h]

end NameMap

/-! ## Derived records

A derived record gets its fields from what it was made of. Each lemma bounds them by the fields of
its parts. -/

variable {name : String}

theorem Record.mem_keys_joined {r t : Record} :
    name ∈ (r.joined (some t)).keys ↔ name ∈ r.keys ∨ name ∈ t.keys := by
  simp only [NameMap.mem_keys_iff, get?_joined, Option.isSome_or, Bool.or_eq_true]

/-- A combined record has the fields of both. -/
theorem Reconcile.mem_keys_combine {key : String} {left right : Record} :
    name ∈ (combine key left right).keys ↔ name ∈ left.keys ∨ name ∈ right.keys := by
  simp only [NameMap.mem_keys_iff, get?_combine, Option.isSome_or, Option.isSome_map,
    Bool.or_eq_true]

/-- The view with the cost per acquisition adds that field at most. -/
theorem Record.mem_keys_withCpa {r : Record} (h : name ∈ r.withCpa.keys) :
    name = cpaField ∨ name ∈ r.keys := by
  unfold withCpa at h
  split at h
  · exact NameMap.mem_keys_insert.1 h
  · exact .inr h

/-- Some fields of a record are put over another record: where the record holds something in them it
counts, and elsewhere what lies under it. -/
theorem Handler.get?_withFieldsOf (r : Record) (fields : List String) (under : Record)
    (name : String) : (withFieldsOf r fields under).get? name =
      if name ∈ fields then (r.get? name).or (under.get? name) else under.get? name := by
  unfold withFieldsOf
  induction fields generalizing under with
  | nil => rfl
  | cons field fields ih =>
    rw [List.foldl_cons, ih]
    by_cases hname : name = field
    · subst hname
      cases r.get? name <;> simp
    · cases r.get? field <;> simp [hname]

theorem Handler.mem_keys_withFieldsOf {r under : Record} {fields : List String}
    (h : name ∈ (withFieldsOf r fields under).keys) : name ∈ fields ∨ name ∈ under.keys := by
  by_cases hname : name ∈ fields
  · exact .inl hname
  · rw [NameMap.mem_keys_iff, get?_withFieldsOf, if_neg hname] at h
    exact .inr (NameMap.mem_keys_iff.2 h)

/-! ## Identifiers

An identifier is read off one field, and joining and deriving leave that field as it was where the
platform record has it. -/

namespace Record

/-- A joined record has the identifier of the platform record, if that has one. -/
theorem id?_joined {r : Record} (h : r.id?.isSome = true) (t : Record) :
    id? (r.joined (some t)) = r.id? := by
  apply text?_congr
  rw [get?_joined]
  cases hid : r.get? "id" with
  | some v => rfl
  | none =>
    unfold id? text? at h
    rw [hid] at h
    exact absurd h (by simp)

/-- The view with the cost per acquisition keeps the identifier. -/
theorem id?_withCpa (r : Record) : r.withCpa.id? = r.id? := by
  unfold withCpa
  cases r.cpa? with
  | none => rfl
  | some cpa => exact text?_insert_of_ne (by decide) r _

end Record

/-! ## Fields of many records

The lists of fields bound the fields of whole tables. What is done to a table keeps the bound if it
is kept row by row. -/

/-- Every field of the records has the property. -/
def FieldsIn (S : String → Prop) (rs : List Record) : Prop := ∀ r ∈ rs, ∀ name ∈ r.keys, S name

namespace FieldsIn

variable {S S' : String → Prop} {rs rs' : List Record}

theorem sub (h : FieldsIn S rs) (hsub : rs' ⊆ rs) : FieldsIn S rs' :=
  fun r hr => h r (hsub hr)

theorem mono (h : FieldsIn S rs) (hS : ∀ name, S name → S' name) : FieldsIn S' rs :=
  fun r hr name hname => hS name (h r hr name hname)

/-- Records that are made of these ones, each with its fields and perhaps others with the property.
-/
theorem filterMap {f : Record → Option Record} (h : FieldsIn S rs)
    (hf : ∀ r row, f r = some row → ∀ name ∈ row.keys, name ∈ r.keys ∨ S name) :
    FieldsIn S (rs.filterMap f) := by
  intro row hrow name hname
  obtain ⟨r, hr, heq⟩ := List.mem_filterMap.1 hrow
  exact (hf r row heq name hname).elim (h r hr name) id

theorem map {f : Record → Record} (h : FieldsIn S rs)
    (hf : ∀ r, ∀ name ∈ (f r).keys, name ∈ r.keys ∨ S name) : FieldsIn S (rs.map f) := by
  intro row hrow name hname
  obtain ⟨r, hr, rfl⟩ := List.mem_map.1 hrow
  exact (hf r name hname).elim (h r hr name) id

theorem withCpa (h : FieldsIn S rs) (hcpa : S Record.cpaField) :
    FieldsIn S (rs.map Record.withCpa) := by
  refine h.map fun r name hname => ?_
  rcases Record.mem_keys_withCpa hname with rfl | hmem
  · exact .inr hcpa
  · exact .inl hmem

end FieldsIn

end AdOps
