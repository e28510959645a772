import AdOps.Proofs.CommandLine.Given
import AdOps.Proofs.Flag.Leftmost

/-!
# Repeated flags

A line can give a flag several times. The policy chooses among the arguments that the occurrences of
the flag stand for; an occurrence whose value stands for none does not count. Two of the policies
always choose, the third refuses a line that leaves a choice.

* **`collectAll_ok`** — every allowed flag holds what the policy chooses, and nothing else is held.
* **`collectAll_reject`** — the first flag that leaves a choice is named.
* **`collectAll_policies`** — what the three policies make of a text.
-/

namespace AdOps

namespace Flag

variable {policy : FlagPolicy} {given : Flag → List Arg} {args : Arguments} {flags : List Flag}
  {allowed : Flag → Bool} {f : Flag}

/-- The bag holds what is chosen for each allowed flag, under its name, and nothing else. -/
def IsBag (allowed : Flag → Bool) (chosen : Flag → Option Arg) (args : Arguments) : Prop :=
  ∀ name a, args.get? name = some a ↔ ∃ f : Flag, allowed f = true ∧ f.name = name ∧ chosen f = some a

/-- The arguments that the occurrences stand for, in order. -/
def argumentsOf (f : Flag) (found : List Occurrence) : List Arg :=
  found.filterMap fun o => f.argument? o.value

/-! ## The flags that are collected

Flags are collected one after the other into one bag, each under its own name. So the bag holds for
a flag what was chosen for it, whatever the others hold; and the collecting stops at the first flag
that the policy refuses. -/

/-- A flag is collected if the policy does not refuse it. -/
theorem exists_collect (h : policy = .reject → (given f).length < 2) (args : Arguments) :
    ∃ args', collect policy given args f = .ok args' := by
  unfold collect
  rw [if_neg fun hreject => absurd (h hreject.1) (Nat.not_lt.2 hreject.2)]
  cases policy.choose? (given f) with
  | none => exact ⟨_, rfl⟩
  | some a => exact ⟨_, rfl⟩

/-- Flags are collected if the policy refuses none of them. -/
theorem exists_foldlM_collect (flags : List Flag)
    (h : policy = .reject → ∀ f ∈ flags, (given f).length < 2) (args : Arguments) :
    ∃ args', flags.foldlM (collect policy given) args = .ok args' := by
  -- Induction on the flags still to be collected, whatever has been collected before.
  induction flags generalizing args with
  | nil => exact ⟨args, rfl⟩
  | cons f flags ih =>
    obtain ⟨args₁, hf⟩ :=
      exists_collect (fun hreject => h hreject f List.mem_cons_self) args
    obtain ⟨args₂, hflags⟩ :=
      ih (fun hreject g hg => h hreject g (List.mem_cons_of_mem _ hg)) args₁
    refine ⟨args₂, ?_⟩
    rw [List.foldlM_cons, hf]
    exact hflags

/-- **Every allowed flag holds what the policy chooses, and nothing else is held.** -/
theorem collectAll_ok
    (h : policy = .reject → ∀ f : Flag, allowed f = true → (given f).length < 2) :
    ∃ args, collectAll (all.filter allowed) policy given = .ok args ∧
      IsBag allowed (fun f => policy.choose? (given f)) args := by
  obtain ⟨args, hargs⟩ := exists_foldlM_collect (all.filter allowed)
    (fun hreject f hf => h hreject f (List.mem_filter.1 hf).2) NameMap.empty
  refine ⟨args, hargs, fun name a => ⟨fun hget => ?_, ?_⟩⟩
  · -- A name that is held is the name of a flag that is collected.
    by_cases hname : ∃ f ∈ all.filter allowed, name = f.name
    · obtain ⟨f, hf, rfl⟩ := hname
      rw [get?_foldlM_collect ((show all.Nodup by decide).filter _) hf rfl hargs] at hget
      exact ⟨f, (List.mem_filter.1 hf).2, rfl, hget⟩
    · have hne : ∀ f ∈ all.filter allowed, name ≠ f.name := fun f hf heq => hname ⟨f, hf, heq⟩
      rw [get?_foldlM_collect_of_ne hne hargs] at hget
      exact absurd hget (by simp)
  -- Flags have different names, so what was collected for this one is not overwritten.
  · rintro ⟨f, hf, rfl, hchosen⟩
    have hmem : f ∈ all.filter allowed := List.mem_filter.2 ⟨mem_all f, hf⟩
    rw [get?_foldlM_collect ((show all.Nodup by decide).filter _) hmem rfl hargs]
    exact hchosen

/-- **The first flag that leaves a choice is named**, in the order in which flags are declared. -/
theorem collectAll_reject (h : ∃ f : Flag, allowed f = true ∧ 2 ≤ (given f).length) :
    ∃ before f behind, all = before ++ f :: behind ∧
      (∀ g ∈ before, allowed g = true → (given g).length < 2) ∧
        allowed f = true ∧ 2 ≤ (given f).length ∧
          collectAll (all.filter allowed) .reject given = .error (f.repeated (given f).length) := by
  -- The flag to be named is the first one that is allowed and has two arguments.
  let leaves (f : Flag) : Bool := allowed f && 2 ≤ (given f).length
  obtain ⟨f, hfind⟩ : ∃ f, all.find? leaves = some f := by
    obtain ⟨f, hf, hlength⟩ := h
    refine Option.isSome_iff_exists.1 (List.find?_isSome.2 ⟨f, mem_all f, ?_⟩)
    simp [leaves, hf, hlength]
  obtain ⟨hf, before, behind, hall, hbefore⟩ := List.find?_eq_some_iff_append.1 hfind
  obtain ⟨hallowed, hlength⟩ : allowed f = true ∧ 2 ≤ (given f).length := by
    simpa [leaves] using hf
  have hsingle : ∀ g ∈ before, allowed g = true → (given g).length < 2 := by
    intro g hg hallowed
    simpa [leaves, hallowed] using hbefore g hg
  refine ⟨before, f, behind, hall, hsingle, hallowed, hlength, ?_⟩
  -- The flags before it are collected, and with it the collecting stops.
  have hleft : FlagPolicy.reject = .reject → ∀ g ∈ before.filter allowed, (given g).length < 2 :=
    fun _ g hg => hsingle g (List.mem_filter.1 hg).1 (List.mem_filter.1 hg).2
  obtain ⟨args, hargs⟩ := exists_foldlM_collect (before.filter allowed) hleft NameMap.empty
  unfold collectAll
  rw [hall, List.filter_append, List.filter_cons_of_pos hallowed, List.foldlM_append, hargs]
  show (f :: behind.filter allowed).foldlM (collect .reject given) args = _
  rw [List.foldlM_cons]
  unfold collect
  rw [if_pos ⟨rfl, hlength⟩]
  rfl

/-! ## Flags that leave no choice

The policies differ only on lists of at least two. Where no list is as long as that, they collect
the same bag, flag by flag. -/

/-- The policies choose alike where there is no choice. -/
theorem choose?_of_length {l : List Arg} (h : l.length < 2) (policy : FlagPolicy) :
    policy.choose? l = l.head? := by
  cases l with
  | nil => cases policy <;> rfl
  | cons a l =>
    obtain rfl : l = [] := List.length_eq_zero_iff.1 (Nat.lt_one_iff.1 (Nat.lt_of_succ_lt_succ h))
    cases policy <;> rfl

/-- A flag with no choice is collected alike under any two policies. -/
theorem collect_congr (h : (given f).length < 2) (policy policy' : FlagPolicy) (args : Arguments) :
    collect policy given args f = collect policy' given args f := by
  have hsingle : ∀ policy : FlagPolicy, ¬ (policy = .reject ∧ 1 < (given f).length) :=
    fun policy hreject => absurd h (Nat.not_lt.2 hreject.2)
  unfold collect
  rw [if_neg (hsingle policy), if_neg (hsingle policy'), choose?_of_length h policy,
    choose?_of_length h policy']

/-- **The policies collect the same bag where no flag leaves a choice.** -/
theorem foldlM_collect_congr (h : ∀ f ∈ flags, (given f).length < 2) (policy policy' : FlagPolicy)
    (args : Arguments) :
    flags.foldlM (collect policy given) args = flags.foldlM (collect policy' given) args := by
  induction flags generalizing args with
  | nil => rfl
  | cons f flags ih =>
    obtain ⟨hf, hflags⟩ := List.forall_mem_cons.1 h
    rw [List.foldlM_cons, List.foldlM_cons, collect_congr hf policy policy']
    exact bind_congr fun args' => ih hflags args'

/-- **What the policies make of a text.** The occurrences of a flag that count are told by the text
alone: they are all that stand in it, from left to right, where one of `/fields` may be the value of
the one before. The first two policies take the first and the last argument of every allowed flag.
The third one names the first flag with more than one argument; if there is none, all three give the
same bag. -/
theorem collectAll_policies (cs : List Char) (allowed : Flag → Bool) :
    ∃ found : Flag → List Occurrence,
      (∀ f l, f.IsScan cs l ↔ l = found f) ∧
      (∀ f, f ≠ .fields → ∀ o, o ∈ found f ↔ f.StandsIn cs o) ∧
      (let given (f : Flag) : List Arg := f.argumentsOf (found f)
      let collected (policy : FlagPolicy) : Except Failure Arguments :=
        collectAll (all.filter allowed) policy fun f => f.arguments cs
      (∃ args, collected .firstWins = .ok args ∧ IsBag allowed (fun f => (given f).head?) args) ∧
      (∃ args, collected .lastWins = .ok args ∧ IsBag allowed (fun f => (given f).getLast?) args) ∧
      ((∃ f, allowed f = true ∧ 2 ≤ (given f).length) →
        ∃ before f behind, all = before ++ f :: behind ∧
          (∀ g ∈ before, allowed g = true → (given g).length < 2) ∧
            allowed f = true ∧ 2 ≤ (given f).length ∧
              collected .reject = .error (f.repeated (given f).length)) ∧
      ((∀ f, allowed f = true → (given f).length < 2) →
        ∃ args, ∀ policy, collected policy = .ok args)) := by
  refine ⟨fun f => f.occurrences cs, fun f l => isScan_iff, fun f hf o => mem_occurrences_iff hf,
    collectAll_ok (by simp), collectAll_ok (by simp), collectAll_reject, fun hsingle => ?_⟩
  -- The bag of the policy that never refuses is the bag of all three.
  obtain ⟨args, hargs⟩ : ∃ args, collectAll (all.filter allowed) .firstWins
      (fun f => f.arguments cs) = .ok args :=
    exists_foldlM_collect _ (fun h => absurd h (by simp)) NameMap.empty
  refine ⟨args, fun policy => Eq.trans ?_ hargs⟩
  exact foldlM_collect_congr (fun f hf => hsingle f (List.mem_filter.1 hf).2) policy .firstWins _

/-- Blanks of any kind between two flags are in front of the second one as well. -/
example :
    Flag.limit.arguments "/x stats 1 /limit:3\u2003/limit:4".toList = [.integer 3, .integer 4] := by
  decide

end Flag

end AdOps
