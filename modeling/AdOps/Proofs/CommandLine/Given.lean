import AdOps.Proofs.Flag.Walk

/-!
# What the flags of a line give

A flag that a command takes ends up as an argument of its own name, and the argument is the value
that the policy chooses among those the line gives. Every value that a line gives for a flag with a
value is one that the flag accepts.

* **`exists_of_mem_given`** — what a line gives for a flag was accepted.
* **`get?_flagArguments`** — a flag holds the value that the policy chooses.
-/

namespace AdOps

/-! ## Results that succeed

What a chain of steps that may fail says if it succeeds, and how a result that was evaluated is known
to have succeeded. -/

theorem throw_ne_ok {α : Type} (e : Failure) (a : α) : (throw e : Except Failure α) ≠ .ok a :=
  fun h => absurd h (by simp [throw, throwThe, MonadExceptOf.throw])

theorem bind_eq_ok {α β : Type} {r : Except Failure α} {f : α → Except Failure β} {b : β} :
    (r >>= f) = .ok b ↔ ∃ a, r = .ok a ∧ f a = .ok b := by
  cases r <;> simp [bind, Except.bind]

theorem toOption_eq_some_iff {α : Type} {r : Except Failure α} {a : α} :
    r.toOption = some a ↔ r = .ok a := by
  cases r <;> simp [Except.toOption]

theorem isOk_iff {α : Type} {r : Except Failure α} : r.isOk = true ↔ ∃ a, r = .ok a := by
  cases r <;> simp [Except.isOk, Except.toBool]

namespace Flag

/-! ## Accepted values

The walk over a line gives each word a role for a flag, and a role that gives a value was told only
after the value had been accepted. So it is a fact about single words, carried along the walk. -/

/-- The value of one role was accepted, by the cases in which a role has a value: behind a colon, as
the next word, or as a switch. -/
theorem accepts_of_roleOf {f : Flag} {word value : String} {next : Option String}
    (h : (f.roleOf word next).given? = some value) :
    f.isSwitch = true ∨ f.accepts value.toList = true := by
  unfold roleOf at h
  split at h
  · exact absurd h (by simp [Role.given?])
  · split at h
    · next hswitch => exact .inl hswitch
    · dsimp only at h
      split at h
      · exact absurd h (by simp [Role.given?])
      · split at h
        · split at h
          · next rest _ hrest =>
            obtain rfl := Option.some.inj h
            rw [String.toList_ofList]
            exact .inr hrest
          · exact absurd h (by simp [Role.given?])
        · split at h
          · next hnext =>
            obtain rfl := Option.some.inj h
            exact .inr hnext
          · exact absurd h (by simp [Role.given?])
        · exact absurd h (by simp [Role.given?])

/-- And so are the values of all roles along the walk. -/
theorem accepts_of_mem_rolesFrom {f : Flag} {owed : Bool} {words : List String} {role : Role}
    (hrole : role ∈ f.rolesFrom owed words) {value : String} (h : role.given? = some value) :
    f.isSwitch = true ∨ f.accepts value.toList = true := by
  induction words generalizing owed with
  | nil => exact absurd hrole List.not_mem_nil
  | cons word words ih =>
    rw [rolesFrom] at hrole
    split at hrole
    -- An operand has no value of its own; it was told with its marker.
    · rcases List.mem_cons.1 hrole with rfl | hmem
      · exact absurd h (by simp [Role.given?])
      · exact ih hmem
    · split at hrole
      · next v hv =>
        rcases List.mem_cons.1 hrole with rfl | hmem
        · exact accepts_of_roleOf (by rw [hv]; exact h)
        · exact ih hmem
      · rcases List.mem_cons.1 hrole with rfl | hmem
        · exact accepts_of_roleOf h
        · exact ih hmem

/-- **What a line gives for a flag stands for a value that the flag accepts**, unless the flag is a
switch. -/
theorem exists_of_mem_given {f : Flag} {words : List String} {a : Arg} (h : a ∈ f.given words) :
    ∃ value, f.argument? value = some a ∧ (f.isSwitch = true ∨ f.accepts value.toList = true) := by
  obtain ⟨role, hrole, ha⟩ := List.mem_filterMap.1 h
  obtain ⟨value, hvalue, harg⟩ := Option.bind_eq_some_iff.1 ha
  exact ⟨value, harg, accepts_of_mem_rolesFrom hrole hvalue⟩

end Flag

/-- A policy chooses one of the values there are. -/
theorem FlagPolicy.mem_of_choose? {policy : FlagPolicy} {given : List Arg} {a : Arg}
    (h : policy.choose? given = some a) : a ∈ given := by
  cases policy with
  | firstWins => exact List.mem_of_head? h
  | lastWins => exact List.mem_of_getLast? h
  | reject => exact List.mem_of_getLast? h

/-- A policy chooses something exactly if there is something to choose from. -/
theorem FlagPolicy.isSome_choose? (policy : FlagPolicy) {given : List Arg} :
    (policy.choose? given).isSome = true ↔ given ≠ [] := by
  cases policy <;> cases given <;> simp [choose?, List.getLast?_cons]

/-! ## Flags as arguments

Flags are collected one after the other, each under its own name. As no two flags share a name, what
is held for a flag is what its own step has stored. -/

namespace Flag

theorem eq_of_name_eq {f g : Flag} (h : f.name = g.name) : f = g := by
  cases f <;> cases g <;> first | rfl | exact absurd h (by decide)

/-- The value of a flag that the policy chooses, if the line gives one. -/
def chosen? (f : Flag) (policy : FlagPolicy) (words : List String) : Option Arg :=
  policy.choose? (f.given words)

variable {policy : FlagPolicy} {given : Flag → List Arg} {args args' : Arguments}

/-- What one step of the collection stores, and what it leaves alone. -/
theorem get?_collect {f : Flag} (h : collect policy given args f = .ok args') (name : String) :
    args'.get? name =
      if name = f.name then (policy.choose? (given f)).or (args.get? name)
      else args.get? name := by
  unfold collect at h
  split at h
  · exact absurd h (by simp)
  · split at h
    · next a ha =>
      obtain rfl := Except.ok.inj h
      rw [NameMap.get?_insert, ha]
      rfl
    · next hnone =>
      obtain rfl := Except.ok.inj h
      rw [hnone]
      split <;> rfl

/-- Collecting flags leaves alone what is not named like one of them. -/
theorem get?_foldlM_collect_of_ne {flags : List Flag} {name : String}
    (hne : ∀ f ∈ flags, name ≠ f.name) (h : flags.foldlM (collect policy given) args = .ok args') :
    args'.get? name = args.get? name := by
  induction flags generalizing args with
  | nil => rw [← Except.ok.inj h]
  | cons f flags ih =>
    obtain ⟨hf, hflags⟩ := List.forall_mem_cons.1 hne
    rw [List.foldlM_cons] at h
    obtain ⟨args₁, hstep, h⟩ := bind_eq_ok.1 h
    -- This step stores under another name, and so do the later ones.
    rw [ih hflags h, get?_collect hstep, if_neg hf]

/-- Each of the flags is collected, if its name was not there before. -/
theorem get?_foldlM_collect {flags : List Flag} (hnodup : flags.Nodup) {f : Flag} (hf : f ∈ flags)
    (hnone : args.get? f.name = none) (h : flags.foldlM (collect policy given) args = .ok args') :
    args'.get? f.name = policy.choose? (given f) := by
  induction flags generalizing args with
  | nil => exact absurd hf List.not_mem_nil
  | cons g flags ih =>
    obtain ⟨hg, hrest⟩ := List.nodup_cons.1 hnodup
    rw [List.foldlM_cons] at h
    obtain ⟨args₁, hstep, hfold⟩ := bind_eq_ok.1 h
    have hget := get?_collect hstep f.name
    rcases List.mem_cons.1 hf with rfl | hmem
    · -- It is collected here, and no later flag has its name.
      rw [if_pos rfl, hnone, Option.or_none] at hget
      have hlater : ∀ g ∈ flags, f.name ≠ g.name := fun g hmem heq =>
        hg (eq_of_name_eq heq ▸ hmem)
      rw [get?_foldlM_collect_of_ne hlater hfold, hget]
    · have hne : f.name ≠ g.name := fun heq => hg (eq_of_name_eq heq ▸ hmem)
      rw [if_neg hne, hnone] at hget
      exact ih hrest hmem hget hfold

end Flag

/-- **A flag that the command takes holds the value that the policy chooses.** -/
theorem get?_flagArguments {g : Grammar} {policy : FlagPolicy} {words : List String}
    {flags : Arguments} (h : flagArguments g.flags policy words = .ok flags) {f : Flag}
    (hf : f ∈ g.flags) : flags.get? f.name = f.chosen? policy words :=
  Flag.get?_foldlM_collect ((show Flag.all.Nodup by decide).filter _) hf rfl h

/-- Under any other name the flags hold nothing. -/
theorem get?_flagArguments_of_ne {g : Grammar} {policy : FlagPolicy} {words : List String}
    {flags : Arguments} (h : flagArguments g.flags policy words = .ok flags) {name : String}
    (hname : name ∉ Flag.all.map Flag.name) : flags.get? name = none := by
  refine Flag.get?_foldlM_collect_of_ne (fun f hf heq => hname ?_) h
  exact List.mem_map.2 ⟨f, (List.mem_filter.1 hf).1, heq.symm⟩

end AdOps
