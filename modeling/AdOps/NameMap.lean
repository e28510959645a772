/-!
# Maps from names

A `NameMap` is a finite map from names to values. Its entries are kept strictly sorted by name, so
that a map has one form only: two maps that answer every `get?` alike are equal (`ext_get?`), and
the order of the entries is the order in which every part of the program lists them. Names are
ordered by code points.

* **`get?_insert`** — inserting changes the answer for one name and no other.
* **`get?_erase`** — erasing forgets one name and no other.
* **`ext_get?`** — a map is determined by its answers.
-/

namespace AdOps

universe u

variable {α : Type u}

namespace Entries

/-- The entries stand in the strict order of their names. -/
def Sorted (l : List (String × α)) : Prop := l.Pairwise fun a b => a.1 < b.1

def find (name : String) : List (String × α) → Option α
  | [] => none
  | (k, x) :: rest => if name = k then some x else find name rest

/-- Puts an entry at its place, over an entry of the same name. -/
def insert (name : String) (value : α) : List (String × α) → List (String × α)
  | [] => [(name, value)]
  | (k, x) :: rest =>
    if name < k then (name, value) :: (k, x) :: rest
    else if name = k then (name, value) :: rest
    else (k, x) :: insert name value rest

theorem mem_insert {name : String} {value : α} {e : String × α} {l : List (String × α)} :
    e ∈ insert name value l → e = (name, value) ∨ e ∈ l := by
  induction l with
  | nil => simp [insert]
  | cons hd tl ih =>
    rw [insert]
    split
    · simp
    · split
      · simp only [List.mem_cons]; grind
      · simp only [List.mem_cons]; grind

theorem Sorted.insert {name : String} {value : α} {l : List (String × α)} (h : Sorted l) :
    Sorted (insert name value l) := by
  induction l with
  | nil => simp [Entries.insert, Sorted]
  | cons hd tl ih =>
    obtain ⟨k, x⟩ := hd
    have htl : Sorted tl := (List.pairwise_cons.1 h).2
    have hhd := (List.pairwise_cons.1 h).1
    rw [Entries.insert]
    split
    · next hlt =>
      refine List.pairwise_cons.2 ⟨fun e he => ?_, h⟩
      rcases List.mem_cons.1 he with rfl | he
      · exact hlt
      · exact String.lt_trans hlt (hhd e he)
    · next hge =>
      split
      · next heq =>
        subst heq
        exact List.pairwise_cons.2 ⟨hhd, htl⟩
      · next hne =>
        refine List.pairwise_cons.2 ⟨fun e he => ?_, ih htl⟩
        rcases mem_insert he with rfl | he
        · exact Std.lt_of_le_of_ne (String.not_lt.1 hge) (Ne.symm hne)
        · exact hhd e he

theorem find_insert (name other : String) (value : α) (l : List (String × α)) :
    find other (insert name value l) = if other = name then some value else find other l := by
  induction l with
  | nil => simp [insert, find]
  | cons hd tl ih =>
    obtain ⟨k, x⟩ := hd
    rw [insert]
    split
    · simp [find]
    · split
      · next heq => subst heq; simp only [find]; split <;> rfl
      · next hne => simp only [find, ih]; grind

theorem find_eq_none_of_lt {name : String} {l : List (String × α)} (h : ∀ e ∈ l, name < e.1) :
    find name l = none := by
  induction l with
  | nil => rfl
  | cons hd tl ih =>
    have hne : name ≠ hd.1 := fun heq =>
      String.lt_irrefl name (by simpa [← heq] using h hd List.mem_cons_self)
    simp only [find, hne, if_false]
    exact ih fun e he => h e (List.mem_cons_of_mem _ he)

/-- Sorted entries are determined by what is found in them. -/
theorem eq_of_find_eq {l₁ l₂ : List (String × α)} (h₁ : Sorted l₁) (h₂ : Sorted l₂)
    (h : ∀ name, find name l₁ = find name l₂) : l₁ = l₂ := by
  induction l₁ generalizing l₂ with
  | nil =>
    cases l₂ with
    | nil => rfl
    | cons b l₂ => simpa [find] using h b.1
  | cons a l₁ ih =>
    cases l₂ with
    | nil => simpa [find] using h a.1
    | cons b l₂ =>
      obtain ⟨ka, xa⟩ := a
      obtain ⟨kb, xb⟩ := b
      have ha := (List.pairwise_cons.1 h₁).1
      have hb := (List.pairwise_cons.1 h₂).1
      have hk : ka = kb := by
        rcases Std.lt_trichotomy ka kb with hlt | heq | hgt
        · have hnone : find ka ((kb, xb) :: l₂) = none :=
            find_eq_none_of_lt fun e he => by
              rcases List.mem_cons.1 he with rfl | he
              · exact hlt
              · exact String.lt_trans hlt (hb e he)
          exact absurd (hnone.symm.trans (h ka).symm) (by simp [find])
        · exact heq
        · have hnone : find kb ((ka, xa) :: l₁) = none :=
            find_eq_none_of_lt fun e he => by
              rcases List.mem_cons.1 he with rfl | he
              · exact hgt
              · exact String.lt_trans hgt (ha e he)
          exact absurd (hnone.symm.trans (h kb)) (by simp [find])
      subst hk
      have hx : xa = xb := by simpa [find] using h ka
      subst hx
      have htl : l₁ = l₂ := ih (List.pairwise_cons.1 h₁).2 (List.pairwise_cons.1 h₂).2 <| by
        intro name
        by_cases hn : name = ka
        · subst hn
          rw [find_eq_none_of_lt ha, find_eq_none_of_lt hb]
        · simpa [find, hn] using h name
      rw [htl]

end Entries

structure NameMap (α : Type u) where
  /-- The entries, strictly sorted by name. -/
  entries : List (String × α)
  sorted : Entries.Sorted entries

namespace NameMap

def empty : NameMap α := ⟨[], .nil⟩

instance : EmptyCollection (NameMap α) := ⟨empty⟩
instance : Inhabited (NameMap α) := ⟨empty⟩

theorem ext_entries {m₁ m₂ : NameMap α} (h : m₁.entries = m₂.entries) : m₁ = m₂ := by
  cases m₁; cases m₂; cases h; rfl

instance [DecidableEq α] : DecidableEq (NameMap α) := fun m₁ m₂ =>
  if h : m₁.entries = m₂.entries then isTrue (ext_entries h)
  else isFalse fun heq => h (heq ▸ rfl)

def get? (m : NameMap α) (name : String) : Option α := Entries.find name m.entries

def contains (m : NameMap α) (name : String) : Bool := (m.get? name).isSome

/-- Stores a value under a name, over the value stored before. -/
def insert (m : NameMap α) (name : String) (value : α) : NameMap α :=
  ⟨Entries.insert name value m.entries, m.sorted.insert⟩

/-- Stores a value under a name that holds none yet. -/
def insertIfAbsent (m : NameMap α) (name : String) (value : α) : NameMap α :=
  if m.contains name then m else m.insert name value

def erase (m : NameMap α) (name : String) : NameMap α :=
  ⟨m.entries.filter fun e => e.1 ≠ name, m.sorted.sublist List.filter_sublist⟩

/-- The entries of a list, a later one over an earlier one of the same name. -/
def ofList (l : List (String × α)) : NameMap α :=
  l.foldl (fun m e => m.insert e.1 e.2) empty

/-- The entries of `m`, over those of `under`. -/
def onTopOf (m under : NameMap α) : NameMap α :=
  m.entries.foldl (fun acc e => acc.insert e.1 e.2) under

def keys (m : NameMap α) : List String := m.entries.map (·.1)

def values (m : NameMap α) : List α := m.entries.map (·.2)

def size (m : NameMap α) : Nat := m.entries.length

def isEmpty (m : NameMap α) : Bool := m.entries.isEmpty

@[simp] theorem get?_empty (name : String) : (empty : NameMap α).get? name = none := rfl

@[simp] theorem get?_insert (m : NameMap α) (name other : String) (value : α) :
    (m.insert name value).get? other = if other = name then some value else m.get? other :=
  Entries.find_insert name other value m.entries

@[simp] theorem get?_erase (m : NameMap α) (name other : String) :
    (m.erase name).get? other = if other = name then none else m.get? other := by
  obtain ⟨l, hl⟩ := m
  simp only [erase, get?]
  clear hl
  induction l with
  | nil => simp [Entries.find]
  | cons e l ih =>
    obtain ⟨k, x⟩ := e
    by_cases hk : k = name
    · subst hk
      rw [List.filter_cons_of_neg (by simp), ih]
      simp only [Entries.find]
      split <;> rfl
    · rw [List.filter_cons_of_pos (by simp [hk])]
      simp only [Entries.find, ih]
      grind

/-- A map is determined by its answers. -/
theorem ext_get? {m₁ m₂ : NameMap α} (h : ∀ name, m₁.get? name = m₂.get? name) : m₁ = m₂ :=
  ext_entries (Entries.eq_of_find_eq m₁.sorted m₂.sorted h)

end NameMap

end AdOps
