import AdOps.Proofs.CommandLine.Words

/-!
# Walks over the words of a line, cut into parts

A flag walks over the words of a line and looks one word ahead, so what a word is to a flag may
depend on the word behind it. A part of a line is *closed* for a flag when the walk over it comes to
the same whatever stands behind, and goes on behind it as if it began there. Lines that are made of
closed parts can be read part by part.

* **`given_append`** — where the walk splits, each part gives a flag what it gives by itself.
* **`positionals_append`** — and keeps its positional words, where it splits for every flag.
* **`Closed.plain`**, **`Closed.pair`** — an unmarked word is closed, and a word with an unmarked
  word behind it is.
-/

namespace AdOps

namespace Flag

theorem mem_all (f : Flag) : f ∈ all := by
  cases f <;> decide

variable {f : Flag} {ws ws₁ ws₂ : List String}

/-- The walk over both parts is the walk over each of them. -/
def Splits (f : Flag) (ws₁ ws₂ : List String) : Prop :=
  f.roles (ws₁ ++ ws₂) = f.roles ws₁ ++ f.roles ws₂

/-- The walk over the words does not depend on what stands behind them, and ends with them. -/
def Closed (f : Flag) (ws : List String) : Prop := ∀ rest, f.Splits ws rest

/-- Words are closed if they have the same roles whatever stands behind them, and then these are
their roles. -/
theorem closed_of_roles {roles : List Role}
    (h : ∀ rest, f.roles (ws ++ rest) = roles ++ f.roles rest) :
    f.Closed ws ∧ f.roles ws = roles := by
  have hroles : f.roles ws = roles := by
    have hnil := h []
    rwa [List.append_nil, show f.roles [] = [] from rfl, List.append_nil] at hnil
  exact ⟨fun rest => (h rest).trans (by rw [hroles]), hroles⟩

/-- **What a line gives for a flag is what its parts give**, as long as the walk splits there. -/
theorem given_append (h : f.Splits ws₁ ws₂) :
    f.given (ws₁ ++ ws₂) = f.given ws₁ ++ f.given ws₂ := by
  unfold given
  rw [h, List.filterMap_append]

/-! ## Single words and pairs of words

The walk carries one thing from a word to the next, namely that the next one is owed as a value. So
a word is closed unless it may take the next one, and if it may, then the pair is closed, provided
that the second word begins nothing by itself. -/

/-- An unmarked word is nothing by itself. -/
theorem roleOf_unmarked {word : String} (h : unmark word.toList = none) (next : Option String) :
    f.roleOf word next = .outside := by
  unfold roleOf
  rw [h]

/-- A word that has the same role whatever follows, and takes no value from it, is closed. -/
theorem roles_single {word : String} {role : Role} (h : ∀ next, f.roleOf word next = role)
    (hrole : ∀ value, role ≠ .marker value) (rest : List String) :
    f.roles ([word] ++ rest) = [role] ++ f.roles rest := by
  show f.rolesFrom false (word :: rest) = role :: f.rolesFrom false rest
  rw [rolesFrom, h rest.head?]
  cases role with
  | marker value => exact absurd rfl (hrole value)
  | _ => rfl

/-- **An unmarked word is closed.** -/
theorem Closed.plain {word : String} (h : unmark word.toList = none) : f.Closed [word] :=
  (closed_of_roles <| roles_single (roleOf_unmarked h) (by simp)).1

theorem roles_plain {word : String} (h : unmark word.toList = none) : f.roles [word] = [.outside] :=
  (closed_of_roles <| roles_single (roleOf_unmarked h) (by simp)).2

/-- A word with an unmarked word behind it: the second is the value of the first or nothing. -/
theorem roles_pair {first second : String} (h : unmark second.toList = none) (rest : List String) :
    f.roles ([first, second] ++ rest) =
      (match f.roleOf first (some second) with
        | .marker value => [.marker value, .operand]
        | role => [role, .outside]) ++ f.roles rest := by
  show f.rolesFrom false (first :: second :: rest) = _
  rw [rolesFrom, List.head?_cons]
  -- If the first word does not take the second one, the walk goes on with it from the start.
  have hsecond : f.rolesFrom false (second :: rest) = .outside :: f.roles rest :=
    roles_single (roleOf_unmarked h) (by simp) rest
  cases f.roleOf first (some second) with
  | marker value => rfl
  | _ => simp [hsecond]

/-- **A word with an unmarked word behind it is closed.** -/
theorem Closed.pair {first second : String} (h : unmark second.toList = none) :
    f.Closed [first, second] :=
  (closed_of_roles (roles_pair h)).1

end Flag

/-! ## Positional words

Whether a word is taken is asked of each flag by itself. So where the walk of every flag splits, the
list of words that are taken splits, and with it the list of those that are left. -/

namespace CommandLine

variable {flags : List Flag} {ws ws₁ ws₂ : List String}

/-- Each word is taken or not. -/
theorem length_taken (flags : List Flag) (ws : List String) :
    (taken flags ws).length = ws.length := by
  induction flags with
  | nil => simp [taken]
  | cons f flags ih =>
    show ((f.roles ws).zipWith _ (taken flags ws)).length = ws.length
    rw [List.length_zipWith, Flag.length_roles, ih, Nat.min_self]

/-- A word belongs to some flag exactly if it has a role to one of them. -/
theorem getElem?_taken (flags : List Flag) (ws : List String) (i : Nat) :
    (taken flags ws)[i]? =
      ws[i]?.map fun _ => flags.any fun f => decide ((f.roles ws)[i]? ≠ some .outside) := by
  -- Induction on the flags: each one looks at the words by itself, and the answers are or-ed.
  induction flags with
  | nil =>
    show (ws.map fun _ => false)[i]? = ws[i]?.map fun _ => false
    rw [List.getElem?_map]
  | cons f flags ih =>
    show ((f.roles ws).zipWith _ (taken flags ws))[i]? = _
    rw [List.getElem?_zipWith, ih]
    cases hw : ws[i]? with
    | none =>
      have hlen : (f.roles ws).length ≤ i := by
        rw [Flag.length_roles]
        exact List.getElem?_eq_none_iff.1 hw
      rw [List.getElem?_eq_none hlen]
      rfl
    | some w =>
      have hlen : i < (f.roles ws).length := by
        rw [Flag.length_roles]
        exact (List.getElem?_eq_some_iff.1 hw).1
      rw [List.any_cons, List.getElem?_eq_getElem hlen]
      simp

/-- The words that flags take are those that they take of each part. -/
theorem taken_append (h : ∀ f ∈ flags, f.Splits ws₁ ws₂) :
    taken flags (ws₁ ++ ws₂) = taken flags ws₁ ++ taken flags ws₂ := by
  -- Induction on the flags, with the walk of each of them split at the same word.
  induction flags with
  | nil => simp [taken]
  | cons f flags ih =>
    have hf : f.Splits ws₁ ws₂ := h f List.mem_cons_self
    have hflags := ih fun g hg => h g (List.mem_cons_of_mem _ hg)
    have hlen : (f.roles ws₁).length = (taken flags ws₁).length := by
      rw [Flag.length_roles, length_taken]
    show (f.roles (ws₁ ++ ws₂)).zipWith _ (taken flags (ws₁ ++ ws₂)) = _
    rw [hf, hflags, List.zipWith_append hlen]
    rfl

/-- Words that are all marked or belong to a flag leave no positional word. -/
theorem positionals_eq_nil (h : ∀ (i : Nat) (word : String), ws[i]? = some word →
    Flag.isMarked word = true ∨ ∃ f : Flag, (f.roles ws)[i]? ≠ some .outside) :
    positionals ws = [] := by
  unfold positionals
  refine List.filterMap_eq_nil_iff.2 fun entry hentry => ?_
  obtain ⟨i, hi⟩ := List.mem_iff_getElem?.1 hentry
  obtain ⟨word, isTaken⟩ := entry
  obtain ⟨hword, htaken⟩ := List.getElem?_zip_eq_some.1 hi
  rw [getElem?_taken, hword] at htaken
  rcases h i word hword with hmark | ⟨f, hf⟩
  · simp [hmark]
  · have htrue : true = isTaken := by
      refine Eq.trans ?_ (Option.some.inj htaken)
      exact (List.any_eq_true.2 ⟨f, Flag.mem_all f, decide_eq_true hf⟩).symm
    simp [← htrue]

/-- An unmarked word by itself is positional. -/
theorem positionals_plain {word : String} (h : Flag.unmark word.toList = none) :
    positionals [word] = [word] := by
  have hlen : (taken Flag.all [word]).length = 1 := length_taken Flag.all [word]
  obtain ⟨isTaken, htaken⟩ := List.length_eq_one_iff.1 hlen
  have hfree : isTaken = false := by
    have hget := getElem?_taken Flag.all [word] 0
    rw [htaken] at hget
    simpa [Flag.roles_plain h, Flag.all] using hget
  unfold positionals
  rw [htaken, hfree]
  simp [Flag.isMarked, h]

/-- **The positional words of a line are those of its parts**, as long as the walk of every flag
splits there. -/
theorem positionals_append (h : ∀ f : Flag, f.Splits ws₁ ws₂) :
    positionals (ws₁ ++ ws₂) = positionals ws₁ ++ positionals ws₂ := by
  unfold positionals
  rw [taken_append (fun f _ => h f), List.zip_append (length_taken Flag.all ws₁).symm,
    List.filterMap_append]

end CommandLine

end AdOps
