/-!
# Sets of names

A `NameSet` is a finite set of names, kept strictly sorted: a set has one form only and lists its
names in order.

* **`mem_insert`**, **`mem_ofList`** — what a set holds after it was built up.
* **`ext_mem`** — a set is determined by its members.
-/

namespace AdOps

namespace Names

/-- Puts a name at its place among sorted names. -/
def insert (name : String) : List String → List String
  | [] => [name]
  | n :: rest =>
    if name < n then name :: n :: rest
    else if name = n then n :: rest
    else n :: insert name rest

theorem mem_insert {name x : String} {l : List String} :
    x ∈ insert name l ↔ x = name ∨ x ∈ l := by
  induction l with
  | nil => simp [insert]
  | cons n rest ih =>
    rw [insert]
    split
    · simp
    · split
      · next heq => subst heq; simp
      · simp only [List.mem_cons, ih]; grind

theorem pairwise_insert {name : String} {l : List String} (h : l.Pairwise (· < ·)) :
    (insert name l).Pairwise (· < ·) := by
  induction l with
  | nil => simp [insert]
  | cons n rest ih =>
    have hrest := (List.pairwise_cons.1 h).2
    have hn := (List.pairwise_cons.1 h).1
    rw [insert]
    split
    · next hlt =>
      refine List.pairwise_cons.2 ⟨fun x hx => ?_, h⟩
      rcases List.mem_cons.1 hx with rfl | hx
      · exact hlt
      · exact String.lt_trans hlt (hn x hx)
    · next hge =>
      split
      · exact h
      · next hne =>
        refine List.pairwise_cons.2 ⟨fun x hx => ?_, ih hrest⟩
        rcases mem_insert.1 hx with rfl | hx
        · exact Std.lt_of_le_of_ne (String.not_lt.1 hge) (Ne.symm hne)
        · exact hn x hx

/-- Sorted lists of names with the same members are equal. -/
theorem eq_of_mem_iff {l₁ l₂ : List String} (h₁ : l₁.Pairwise (· < ·)) (h₂ : l₂.Pairwise (· < ·))
    (h : ∀ x, x ∈ l₁ ↔ x ∈ l₂) : l₁ = l₂ := by
  induction l₁ generalizing l₂ with
  | nil =>
    cases l₂ with
    | nil => rfl
    | cons b l₂ => simpa using (h b).2
  | cons a l₁ ih =>
    cases l₂ with
    | nil => simpa using (h a).1
    | cons b l₂ =>
      have ha := (List.pairwise_cons.1 h₁).1
      have hb := (List.pairwise_cons.1 h₂).1
      have hab : a = b := by
        rcases List.mem_cons.1 ((h a).1 List.mem_cons_self) with heq | hin
        · exact heq
        · rcases List.mem_cons.1 ((h b).2 List.mem_cons_self) with heq | hin'
          · exact heq.symm
          · exact absurd (ha b hin') (String.lt_asymm (hb a hin))
      subst hab
      have htl : l₁ = l₂ := ih (List.pairwise_cons.1 h₁).2 (List.pairwise_cons.1 h₂).2 fun x => by
        constructor
        · intro hx
          rcases List.mem_cons.1 ((h x).1 (List.mem_cons_of_mem _ hx)) with rfl | hx'
          · exact absurd (ha x hx) (String.lt_irrefl x)
          · exact hx'
        · intro hx
          rcases List.mem_cons.1 ((h x).2 (List.mem_cons_of_mem _ hx)) with rfl | hx'
          · exact absurd (hb x hx) (String.lt_irrefl x)
          · exact hx'
      rw [htl]

end Names

structure NameSet where
  /-- The names, strictly sorted. -/
  names : List String
  sorted : names.Pairwise (· < ·)

namespace NameSet

def empty : NameSet := ⟨[], .nil⟩

instance : EmptyCollection NameSet := ⟨empty⟩
instance : Inhabited NameSet := ⟨empty⟩
instance : Membership String NameSet := ⟨fun s name => name ∈ s.names⟩

instance (name : String) (s : NameSet) : Decidable (name ∈ s) :=
  inferInstanceAs (Decidable (name ∈ s.names))

theorem ext_names {s t : NameSet} (h : s.names = t.names) : s = t := by
  cases s; cases t; cases h; rfl

instance : DecidableEq NameSet := fun s t =>
  if h : s.names = t.names then isTrue (ext_names h) else isFalse fun heq => h (heq ▸ rfl)

def contains (s : NameSet) (name : String) : Bool := s.names.contains name

def insert (s : NameSet) (name : String) : NameSet :=
  ⟨Names.insert name s.names, Names.pairwise_insert s.sorted⟩

def insertAll (s : NameSet) (names : List String) : NameSet := names.foldl insert s

def ofList (names : List String) : NameSet := empty.insertAll names

def toList (s : NameSet) : List String := s.names

def size (s : NameSet) : Nat := s.names.length

def isEmpty (s : NameSet) : Bool := s.names.isEmpty

@[simp] theorem not_mem_empty (name : String) : ¬ name ∈ empty :=
  List.not_mem_nil

@[simp] theorem mem_insert {s : NameSet} {name x : String} : x ∈ s.insert name ↔ x = name ∨ x ∈ s :=
  Names.mem_insert

@[simp] theorem mem_insertAll {s : NameSet} {names : List String} {x : String} :
    x ∈ s.insertAll names ↔ x ∈ names ∨ x ∈ s := by
  induction names generalizing s with
  | nil => simp [insertAll]
  | cons n names ih =>
    have : x ∈ s.insertAll (n :: names) ↔ x ∈ (s.insert n).insertAll names := Iff.rfl
    rw [this, ih, mem_insert, List.mem_cons]
    grind

@[simp] theorem mem_ofList {names : List String} {x : String} : x ∈ ofList names ↔ x ∈ names := by
  simp [ofList]

/-- A set is determined by its members. -/
theorem ext_mem {s t : NameSet} (h : ∀ x, x ∈ s ↔ x ∈ t) : s = t :=
  ext_names (Names.eq_of_mem_iff s.sorted t.sorted h)

end NameSet

end AdOps
