import AdOps.Proofs.Flag.Ahead

/-!
# One word and several flags

Every flag walks over the words by itself, so a word can be something to two flags. Spellings keep
the markers apart, and so the value words behind them. That leaves the value of one flag that is
also the marker of another: of all values only those of `/fields` can look like a marker, and only
with hyphens.

* **`role_cases`** — a word is told by itself, or it is the value of the word before.
* **`shared_cases`** — what a word is if it is something to two flags.
* **`fields_of_operand`** — a marked word is the value of no flag but one.
-/

namespace AdOps

namespace Flag

variable {f g : Flag} {word : String} {words : List String} {next : Option String}
  {role roleF roleG : Role} {k : Nat}

/-! ## Markers and values

A word is recognised by the name behind its marker, and no name belongs to two flags. A value is
recognised by its shape, which is never one of a marker except where anything but a blank or a colon
goes. -/

/-- A word that is something by itself holds the name of the flag behind its marker. -/
theorem isSpelled_of_roleOf (h : f.roleOf word next ≠ .outside) :
    ∃ body, unmark word.toList = some body ∧ f.isSpelled (body.takeWhile (· ≠ ':')) = true := by
  unfold roleOf at h
  cases hbody : unmark word.toList with
  | none =>
    rw [hbody] at h
    exact absurd rfl h
  | some body =>
    rw [hbody] at h
    refine ⟨body, rfl, ?_⟩
    -- The name of a switch is the whole word, which has no colon then.
    cases hswitch : f.isSwitch with
    | true =>
      have hname : f.isSpelled body = true := by
        by_contra hname
        simp [hswitch, hname] at h
      rwa [List.takeWhile_eq_self_iff.2 (all_ne_colon hname)]
    | false =>
      by_contra hname
      refine h ?_
      simp only [hswitch, Bool.false_eq_true, if_false]
      exact if_pos (by simpa using hname)

/-- **A word is something by itself to one flag only.** -/
theorem eq_of_roleOf {next' : Option String} (hf : f.roleOf word next ≠ .outside)
    (hg : g.roleOf word next' ≠ .outside) : f = g := by
  obtain ⟨body, hbody, hspelledF⟩ := isSpelled_of_roleOf hf
  obtain ⟨body', hbody', hspelledG⟩ := isSpelled_of_roleOf hg
  obtain rfl := Option.some.inj (hbody.symm.trans hbody')
  exact eq_of_isSpelled hspelledF hspelledG

/-- The next word is a value only if the flag takes it. -/
theorem accepts_of_marker {value : String} (h : f.roleOf word next = .marker value) :
    f.accepts value.toList = true := by
  unfold roleOf at h
  dsimp only at h
  repeat' split at h
  all_goals first
    | (obtain rfl := Role.marker.inj h; assumption)
    | exact absurd h (by simp)

/-- Only a value of `/fields` can carry a marker, and the marker is two hyphens. -/
theorem fields_of_accepts {cs : List Char} (h : f.accepts cs = true)
    (hmarked : (unmark cs).isSome = true) : f = .fields ∧ ['-', '-'] <+: cs := by
  -- No value begins with a slash, so the marker is the other one.
  have hdash : ['-', '-'] <+: cs := by
    by_contra hdash
    rw [unmark_of_accepts h hdash] at hmarked
    exact absurd hmarked (by simp)
  obtain ⟨rest, rfl⟩ := hdash
  refine ⟨?_, List.prefix_append _ _⟩
  have hdigit : Text.isDigit '-' = false := by decide
  have hletter : Text.isLetter '-' = false := by decide
  -- A value that begins with a hyphen: digits, dates and intervals do not.
  cases f with
  | fields => rfl
  | limit => simp [accepts, Text.isDigits, hdigit] at h
  | dateRange => simp [accepts, isDateRangeShape, isDateShape_cons hdigit] at h
  | timeRange => simp [accepts, Interval.isWritten, Text.isDigits, hdigit, hletter] at h
  | ignoreErrors => exact absurd h (by simp [accepts])
  | listFields => exact absurd h (by simp [accepts])

/-- The name of a flag with a value, by itself and without a value behind it, is nothing. -/
theorem roleOf_bare {name : List Char} (hswitch : f.isSwitch = false)
    (hname : unmark word.toList = some name) (hspelled : f.isSpelled name = true)
    (hnext : ∀ value, next = some value → f.accepts value.toList = false) :
    f.roleOf word next = .outside := by
  have hdrop : name.dropWhile (· ≠ ':') = [] :=
    List.dropWhile_eq_nil_iff.2 (all_ne_colon hspelled)
  unfold roleOf
  rw [hname]
  simp only [hswitch, hdrop, Bool.false_eq_true, if_false]
  split
  · rfl
  · cases next with
    | none => rfl
    | some value => simp [hnext value rfl]

/-! ## Roles of one word

The walk over the words carries along whether the word ahead is owed to a marker. Told by place, a
word has the role that it has by itself, or the word before it is a marker that takes it. Two flags
can share a word only in the second way. -/

/-- The next word is owed to a marker only. -/
theorem exists_rolesFrom_cons (f : Flag) (first : String) (words : List String) :
    ∃ owed, f.rolesFrom false (first :: words) =
      f.roleOf first words.head? :: f.rolesFrom owed words ∧
        (owed = true → ∃ value, f.roleOf first words.head? = .marker value) := by
  rw [rolesFrom, if_neg (by simp)]
  cases f.roleOf first words.head? with
  | marker value => exact ⟨true, rfl, fun _ => ⟨value, rfl⟩⟩
  | _ => exact ⟨false, rfl, fun h => absurd h (by simp)⟩

/-- The role of a word, wherever the walk began: it is owed from before, or it is what the word is
by itself, or the word before takes it. -/
theorem rolesFrom_cases {owed : Bool} (hrole : (f.rolesFrom owed words)[k]? = some role)
    (hword : words[k]? = some word) :
    (k = 0 ∧ owed = true ∧ role = .operand) ∨ role = f.roleOf word words[k + 1]? ∨
      (role = .operand ∧ ∃ j before, k = j + 1 ∧ words[j]? = some before ∧
        f.roleOf before (some word) = .marker word) := by
  -- Induction on the words: what a role in the tail owes, it owes to the head.
  induction words generalizing owed k with
  | nil => exact absurd hword (by simp)
  | cons first words ih =>
    cases owed with
    | true =>
      cases k with
      | zero => exact .inl ⟨rfl, rfl, (Option.some.inj hrole).symm⟩
      | succ k =>
        rcases ih hrole hword with ⟨-, howed, -⟩ | hself | ⟨hoperand, j, before, rfl, hrest⟩
        · exact absurd howed (by simp)
        · exact .inr (.inl hself)
        · exact .inr (.inr ⟨hoperand, j + 1, before, rfl, hrest⟩)
    | false =>
      obtain ⟨owed, hroles, howed⟩ := f.exists_rolesFrom_cons first words
      rw [hroles] at hrole
      cases k with
      | zero =>
        obtain rfl : first = word := Option.some.inj hword
        refine .inr (.inl ((Option.some.inj hrole).symm.trans ?_))
        rw [List.head?_eq_getElem?, List.getElem?_cons_succ]
      | succ k =>
        -- What the tail is owed at its head is the value of the first word.
        rcases ih hrole hword with ⟨rfl, howe, hoperand⟩ | hself | ⟨hoperand, j, before, rfl, hrest⟩
        · obtain ⟨value, hmarker⟩ := howed howe
          have hnext : words.head? = some word := by
            rw [List.head?_eq_getElem?]
            exact hword
          obtain rfl : word = value :=
            Option.some.inj (hnext.symm.trans (eq_of_roleOf_marker hmarker))
          rw [hnext] at hmarker
          exact .inr (.inr ⟨hoperand, 0, first, rfl, rfl, hmarker⟩)
        · exact .inr (.inl hself)
        · exact .inr (.inr ⟨hoperand, j + 1, before, rfl, hrest⟩)

/-- **A word is told by itself and the word behind it, or it is the value of the word before.** -/
theorem role_cases (hrole : (f.roles words)[k]? = some role) (hword : words[k]? = some word) :
    role = f.roleOf word words[k + 1]? ∨
      (role = .operand ∧ ∃ j before, k = j + 1 ∧ words[j]? = some before ∧
        f.roleOf before (some word) = .marker word) := by
  rcases rolesFrom_cases hrole hword with ⟨-, howed, -⟩ | h
  · exact absurd howed (by simp)
  · exact h

/-- In front of a value stands its marker. -/
theorem marker_before (hrole : (f.roles words)[k]? = some .operand)
    (hword : words[k]? = some word) :
    ∃ j before, k = j + 1 ∧ words[j]? = some before ∧
      f.roleOf before (some word) = .marker word := by
  rcases role_cases hrole hword with h | ⟨-, h⟩
  · exact absurd h.symm (roleOf_ne_operand _ _)
  · exact h

/-- **A marked word is the value of no flag but `/fields`.** -/
theorem fields_of_operand (hrole : (f.roles words)[k]? = some .operand)
    (hword : words[k]? = some word) (hmarked : isMarked word = true) :
    f = .fields ∧ ['-', '-'] <+: word.toList := by
  obtain ⟨j, before, -, -, hmarker⟩ := marker_before hrole hword
  exact fields_of_accepts (accepts_of_marker hmarker) hmarked

/-- **A word that is something to two flags** is the value of `/fields` and the marker of another.
-/
theorem shared_cases (hf : (f.roles words)[k]? = some roleF) (hg : (g.roles words)[k]? = some roleG)
    (hword : words[k]? = some word) (hne : f ≠ g) (hroleF : roleF ≠ .outside)
    (hroleG : roleG ≠ .outside) :
    (f = .fields ∧ roleF = .operand ∧ roleG ≠ .operand) ∨
      (g = .fields ∧ roleG = .operand ∧ roleF ≠ .operand) := by
  -- A word that is something by itself carries a marker.
  have hmarked : ∀ {h : Flag} {role : Role}, role = h.roleOf word words[k + 1]? →
      role ≠ .outside → isMarked word = true := by
    rintro h role rfl hrole
    obtain ⟨body, hbody, -⟩ := isSpelled_of_roleOf hrole
    rw [isMarked, hbody]
    rfl
  rcases role_cases hf hword with hselfF | ⟨rfl, j, before, hj, hbefore, hmarkerF⟩
  · rcases role_cases hg hword with hselfG | ⟨rfl, -⟩
    · exact absurd (eq_of_roleOf (hselfF ▸ hroleF) (hselfG ▸ hroleG)) hne
    · refine .inr ⟨(fields_of_operand hg hword (hmarked hselfF hroleF)).1, rfl, ?_⟩
      exact hselfF ▸ roleOf_ne_operand _ _
  · rcases role_cases hg hword with hselfG | ⟨rfl, j', before', hj', hbefore', hmarkerG⟩
    · refine .inl ⟨(fields_of_operand hf hword (hmarked hselfG hroleG)).1, rfl, ?_⟩
      exact hselfG ▸ roleOf_ne_operand _ _
    · -- The word before would be the marker of both.
      obtain rfl : j = j' := Nat.succ.inj (hj.symm.trans hj')
      obtain rfl := Option.some.inj (hbefore.symm.trans hbefore')
      have hbeforeF : f.roleOf before (some word) ≠ .outside := by simp [hmarkerF]
      have hbeforeG : g.roleOf before (some word) ≠ .outside := by simp [hmarkerG]
      exact absurd (eq_of_roleOf hbeforeF hbeforeG) hne

end Flag

end AdOps
