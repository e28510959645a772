import AdOps.Proofs.Flag.Pattern

/-!
# The scan for a flag

The search for a flag takes its occurrences from left to right and goes on behind each one. Which
occurrences these are can be told without the search: they stand in the text, none begins inside of
one before, and one that stands in the text is left out only if it begins inside of one that is
taken.

* **`isScan_occurrences`** — the search gives such a list.
* **`IsScan.unique`** — a text has only one.
* **`mem_occurrences_iff`** — no occurrence of a flag is left out, but for those of `/fields`.
-/

namespace AdOps

open Text

/-- The place lies inside of the occurrence, behind its first character. -/
def Occurrence.IsInside (o : Occurrence) (place : Nat) : Prop := o.start < place ∧ place < o.resume

namespace Flag

variable {f : Flag} {cs : List Char} {i : Nat} {o o' : Occurrence}
  {found found' : List Occurrence}

/-- The occurrences of the flag in the text from a place on, from left to right and without
overlap: one that stands in the text is left out only for one that it begins inside of. -/
structure IsScanFrom (f : Flag) (cs : List Char) (i : Nat) (found : List Occurrence) : Prop where
  stands : ∀ o ∈ found, f.StandsIn cs o ∧ i ≤ o.start
  ordered : found.Pairwise fun o o' => o.resume ≤ o'.start
  complete : ∀ o, f.StandsIn cs o → i ≤ o.start → o ∈ found ∨ ∃ o' ∈ found, o'.IsInside o.start

/-- The occurrences of the flag in the whole text. -/
def IsScan (f : Flag) (cs : List Char) (found : List Occurrence) : Prop := f.IsScanFrom cs 0 found

/-! ## One step of the search

The search is at a place of the text and has a number of characters to skip. What it gives from
there is a scan from the place behind these characters. Where nothing begins, the place moves on by
one; where an occurrence begins, it moves on to where the search resumes. -/

/-- Behind the end of the text there is nothing. -/
theorem IsScanFrom.nil (h : cs.length ≤ i) : f.IsScanFrom cs i [] where
  stands := fun o ho => absurd ho List.not_mem_nil
  ordered := .nil
  complete := fun o ho hle => by
    obtain ⟨hlt, hresume⟩ := ho.start_lt
    omega

/-- Places at which nothing begins make no difference. -/
theorem IsScanFrom.of_le {j : Nat} (hle : i ≤ j)
    (hnone : ∀ o, f.StandsIn cs o → i ≤ o.start → j ≤ o.start) (h : f.IsScanFrom cs j found) :
    f.IsScanFrom cs i found where
  stands := fun o ho => ⟨(h.stands o ho).1, Nat.le_trans hle (h.stands o ho).2⟩
  ordered := h.ordered
  complete := fun o ho hi => h.complete o ho (hnone o ho hi)

/-- What begins behind an occurrence begins inside of it or where the search goes on. -/
theorem IsScanFrom.cons (ho : f.StandsIn cs o) (h : f.IsScanFrom cs o.resume found) :
    f.IsScanFrom cs o.start (o :: found) where
  stands := by
    refine List.forall_mem_cons.2 ⟨⟨ho, Nat.le_refl _⟩, fun o' ho' => ⟨(h.stands o' ho').1, ?_⟩⟩
    exact Nat.le_trans (Nat.le_of_lt ho.start_lt.1) (h.stands o' ho').2
  ordered := .cons (fun o' ho' => (h.stands o' ho').2) h.ordered
  complete := fun o' ho' hle => by
    rcases Nat.lt_or_ge o'.start o.resume with hlt | hge
    · rcases Nat.eq_or_lt_of_le hle with heq | hgt
      · exact .inl (ho'.eq_of_start ho heq.symm ▸ List.mem_cons_self)
      · exact .inr ⟨o, List.mem_cons_self, hgt, hlt⟩
    · rcases h.complete o' ho' hge with hmem | ⟨o'', hmem, hinside⟩
      · exact .inl (List.mem_cons_of_mem _ hmem)
      · exact .inr ⟨o'', List.mem_cons_of_mem _ hmem, hinside⟩

/-- The search from a place on, behind what it skips, gives the scan from there. -/
theorem isScanFrom_occurrencesFrom (f : Flag) (front rest : List Char) (skip : Nat) :
    f.IsScanFrom (front ++ rest) (front.length + skip)
      (f.occurrencesFrom front.length skip rest) := by
  -- Induction on the characters ahead: each one is skipped, begins nothing or begins an occurrence.
  induction rest generalizing front skip with
  | nil =>
    have hnil : f.occurrencesFrom front.length skip [] = [] := by cases skip <;> rfl
    rw [hnil]
    exact .nil (by simp)
  | cons c rest ih =>
    have hnext := ih (front ++ [c])
    rw [List.append_assoc, List.singleton_append, List.length_append, List.length_singleton]
      at hnext
    cases skip with
    | succ skip =>
      have hskip := hnext skip
      rwa [Nat.add_assoc, Nat.add_comm 1] at hskip
    | zero =>
      rw [occurrencesFrom]
      -- If nothing begins here, then whatever stands further on begins behind this character.
      cases hfound : f.occurrenceAt? front.length (c :: rest) with
      | none =>
        refine .of_le (Nat.le_succ _) (fun o ho hle => ?_) (hnext 0)
        refine Nat.lt_of_le_of_ne hle fun hstart => ?_
        have hsome := occurrenceAt?_eq_some_iff.2 ⟨ho, hstart.symm⟩
        rw [hfound] at hsome
        exact absurd hsome (by simp)
      | some o =>
        obtain ⟨ho, hstart⟩ := occurrenceAt?_eq_some_iff.1 hfound
        -- Of the characters of the occurrence, the one here is behind the search already.
        have hresume : front.length + 1 + (o.advance - 1) = o.resume := by
          have hlt := ho.start_lt.1
          unfold Occurrence.resume at hlt ⊢
          omega
        have htail := hnext (o.advance - 1)
        rw [hresume] at htail
        have hcons := IsScanFrom.cons ho htail
        rwa [hstart] at hcons

/-- **The search gives the scan of the text.** -/
theorem isScan_occurrences (f : Flag) (cs : List Char) : f.IsScan cs (f.occurrences cs) :=
  f.isScanFrom_occurrencesFrom [] cs 0

/-! ## A text has one scan

Two scans begin with the same occurrence, since each contains or passes over what the other begins
with; and behind it both go on from the same place. The proof is by induction on one of them. -/

/-- The first occurrence that is taken is the first one that stands in the text. -/
theorem IsScanFrom.start_le (h : f.IsScanFrom cs i (o :: found)) (ho' : f.StandsIn cs o')
    (hle : i ≤ o'.start) : o.start ≤ o'.start := by
  have hfirst : ∀ o' ∈ o :: found, o.start ≤ o'.start := by
    refine List.forall_mem_cons.2 ⟨Nat.le_refl _, fun o' hmem => ?_⟩
    have ho := (h.stands o List.mem_cons_self).1
    exact Nat.le_trans (Nat.le_of_lt ho.start_lt.1) (List.rel_of_pairwise_cons h.ordered hmem)
  rcases h.complete o' ho' hle with hmem | ⟨o'', hmem, hinside⟩
  · exact hfirst o' hmem
  · exact Nat.le_trans (hfirst o'' hmem) (Nat.le_of_lt hinside.1)

/-- Behind the first occurrence the scan goes on where the search does. -/
theorem IsScanFrom.tail (h : f.IsScanFrom cs i (o :: found)) : f.IsScanFrom cs o.resume found where
  stands := fun o' hmem =>
    ⟨(h.stands o' (List.mem_cons_of_mem _ hmem)).1, List.rel_of_pairwise_cons h.ordered hmem⟩
  ordered := h.ordered.of_cons
  complete := fun o' ho' hle => by
    obtain ⟨ho, hi⟩ := h.stands o List.mem_cons_self
    have hlt := ho.start_lt.1
    rcases h.complete o' ho' (by omega) with hmem | ⟨o'', hmem, hinside⟩
    · rcases List.mem_cons.1 hmem with rfl | hmem
      · omega
      · exact .inl hmem
    · rcases List.mem_cons.1 hmem with rfl | hmem
      · exact absurd hinside.2 (Nat.not_lt.2 hle)
      · exact .inr ⟨o'', hmem, hinside⟩

/-- **There is only one scan from a place on.** -/
theorem IsScanFrom.unique (h : f.IsScanFrom cs i found) (h' : f.IsScanFrom cs i found') :
    found = found' := by
  -- Induction on the first scan; the second one may not end earlier or later.
  induction found generalizing i found' with
  | nil =>
    cases found' with
    | nil => rfl
    | cons o' found' =>
      obtain ⟨ho', hle⟩ := h'.stands o' List.mem_cons_self
      rcases h.complete o' ho' hle with hmem | ⟨_, hmem, -⟩ <;> exact absurd hmem List.not_mem_nil
  | cons o found ih =>
    obtain ⟨ho, hle⟩ := h.stands o List.mem_cons_self
    cases found' with
    | nil =>
      rcases h'.complete o ho hle with hmem | ⟨_, hmem, -⟩ <;> exact absurd hmem List.not_mem_nil
    | cons o' found' =>
      obtain ⟨ho', hle'⟩ := h'.stands o' List.mem_cons_self
      -- Neither of the first two begins later than the other.
      obtain rfl : o = o' :=
        ho.eq_of_start ho' (Nat.le_antisymm (h.start_le ho' hle') (h'.start_le ho hle))
      rw [ih h.tail h'.tail]

/-- **A text has exactly one scan**, and the search gives it. -/
theorem isScan_iff : f.IsScan cs found ↔ found = f.occurrences cs := by
  constructor
  · exact fun h => h.unique (f.isScan_occurrences cs)
  · rintro rfl
    exact f.isScan_occurrences cs

/-! ## What is left out

An occurrence begins with its separator and ends in front of the next one, so nothing begins inside
of it but a value that is itself a marker with a value. Only `/fields` takes such values. -/

theorem standsIn_of_mem (h : o ∈ f.occurrences cs) : f.StandsIn cs o :=
  ((f.isScan_occurrences cs).stands o h).1

/-- **What stands in the text is found**, or it is the value of one that is found. -/
theorem mem_or_inside (h : f.StandsIn cs o) :
    o ∈ f.occurrences cs ∨ f = .fields ∧ ∃ o' ∈ f.occurrences cs,
      o'.IsInside o.start ∧ ['-', '-'] <+: o'.value.toList := by
  refine ((f.isScan_occurrences cs).complete o h (Nat.zero_le _)).imp_right ?_
  rintro ⟨o', hmem, hinside⟩
  obtain ⟨rfl, hdash⟩ := h.fields_of_inside (standsIn_of_mem hmem) hinside.1 hinside.2
  exact ⟨rfl, o', hmem, hinside, hdash⟩

/-- **No occurrence of a flag is left out**, but for those of `/fields`. -/
theorem mem_occurrences_iff (hf : f ≠ .fields) : o ∈ f.occurrences cs ↔ f.StandsIn cs o :=
  ⟨standsIn_of_mem, fun h => (mem_or_inside h).resolve_right fun hfields => hf hfields.1⟩

/-- The value of `/fields` can be its marker once more: the second one is the value of the first. -/
example :
    (Flag.fields.occurrences "/x list /fields --fields id".toList).map Occurrence.value =
      ["--fields"] := by
  decide

end Flag

end AdOps
