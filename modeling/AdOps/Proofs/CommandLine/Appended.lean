import AdOps.Proofs.CommandLine.Accepted
import AdOps.Proofs.CommandLine.Arguments
import AdOps.Proofs.Flag.Ahead
import AdOps.Proofs.Flag.Segment

/-!
# A flag behind a line

A line is accepted as it is, and one more word is written behind it that gives one flag one value.
If no flag in front takes the word for its own value, then nothing changes about the words in front.
If the flag was not given before, then the command holds one argument more and is otherwise the
same: no slot, no fallback and no name for a window is disturbed.

* **`splits_of_refused`** — a word that a flag does not accept changes nothing in front of it.
* **`collectAll_insert`** — a flag that was not given before is collected as one argument more.
* **`withAlias_insert`** — an argument that is nothing to a window name does not change it.
* **`parse_appended`** — the line with the word behind it stands for the command with the argument.
-/

namespace AdOps

namespace Flag

/-! ## A word behind a line

The roles of words are told one after the other, and the role of a word may depend on the word
behind it, which it may take for its value. A word that is accepted by no flag is taken by none, so
the roles in front of it stay as they were. -/

variable {f : Flag} {w : String}

/-- A word that the flag does not accept is no better than none behind it. -/
theorem roleOf_refused (h : f.accepts w.toList = false) (word : String) :
    f.roleOf word (some w) = f.roleOf word none := by
  unfold roleOf
  cases unmark word.toList with
  | none => rfl
  | some cs =>
    dsimp only
    cases hdrop : cs.dropWhile (· ≠ ':') with
    | nil => simp [h]
    | cons c value => rfl

/-- So the roles of a line are those without it, and then its own. A value that is owed is paid by a
word in front. -/
theorem rolesFrom_refused (h : f.accepts w.toList = false) {owed : Bool} {ws : List String}
    (howed : owed = false ∨ ws ≠ []) :
    f.rolesFrom owed (ws ++ [w]) = f.rolesFrom owed ws ++ f.rolesFrom false [w] := by
  induction ws generalizing owed with
  | nil =>
    obtain rfl := howed.resolve_right (absurd rfl)
    rfl
  | cons word ws ih =>
    rw [List.cons_append, rolesFrom, rolesFrom]
    cases owed with
    | true => simp only [if_true, List.cons_append, ih (.inl rfl)]
    | false =>
      -- Only the last word in front looks at the word more.
      have hrole : f.roleOf word (ws ++ [w]).head? = f.roleOf word ws.head? := by
        cases ws with
        | nil => exact roleOf_refused h word
        | cons next ws => rfl
      rw [hrole]
      cases hword : f.roleOf word ws.head? with
      | marker value =>
        -- A value is owed, so there is a word to be the value.
        have hne : ws ≠ [] := by
          rintro rfl
          exact absurd (eq_of_roleOf_marker hword) (by simp)
        simp [ih (.inr hne)]
      | _ => simp [ih (.inl rfl)]

/-- **A word that a flag does not accept** changes nothing about the words in front of it. -/
theorem splits_of_refused (h : f.accepts w.toList = false) (ws : List String) : f.Splits ws [w] :=
  rolesFrom_refused h (.inl rfl)

/-- The word gives one flag one argument, and is nothing else to any flag or slot. -/
structure WrittenBy (f : Flag) (a : Arg) (w : String) : Prop where
  refused : ∀ g : Flag, g.accepts w.toList = false
  positionals : CommandLine.positionals [w] = []
  given : ∀ g : Flag, g.given [w] = if g = f then [a] else []

/-- A segment of one word with a slash in front is such a word. -/
theorem WrittenBy.of_segment {a : Arg} {text : String} (g : Segment)
    (hwords : g.words = [Marker.slash.mark text]) (ha : g.flag.argument? g.value = some a) :
    WrittenBy g.flag a (Marker.slash.mark text) where
  refused f := by
    rw [show (Marker.slash.mark text).toList = '/' :: text.toList by
      simp [Marker.mark, String.toList_append]]
    exact f.accepts_slash _
  positionals := by rw [← hwords, g.positionals_words]
  given f := by
    rw [← hwords, g.given_words]
    by_cases hf : f = g.flag
    · subst hf
      rw [if_pos rfl, if_pos rfl, ha]
      rfl
    -- The segment gives other flags nothing.
    · rw [if_neg hf, if_neg hf]

end Flag

/-! ## One more flag

The resolution takes the flags in at two places: collected into arguments, and laid over those of
the slots. An argument under a name that nothing else looks at goes through both and comes out as
one argument more. -/

/-- Folds whose steps agree on the list agree. -/
theorem foldlM_congr {α β : Type} {f g : α → β → Except Failure α} {l : List β}
    (h : ∀ b ∈ l, ∀ a, f a b = g a b) (a : α) : l.foldlM f a = l.foldlM g a := by
  induction l generalizing a with
  | nil => rfl
  | cons b l ih =>
    obtain ⟨hb, hl⟩ := List.forall_mem_cons.1 h
    rw [List.foldlM_cons, List.foldlM_cons, hb]
    cases g a b with
    | ok a' => exact ih hl a'
    | error e => rfl

namespace Resolve

/-- Arguments under different names can be stored in either order. -/
theorem insert_comm {args : Arguments} {name other : String} (h : name ≠ other)
    (value value' : Arg) :
    (args.insert name value).insert other value' =
      (args.insert other value').insert name value := by
  refine NameMap.ext_get? fun n => ?_
  simp only [NameMap.get?_insert]
  by_cases hn : n = other
  · simp [hn, Ne.symm h]
  · simp [hn]

end Resolve

namespace Flag

variable {policy : FlagPolicy} {given : Flag → List Arg} {args args' : Arguments} {f : Flag}

/-- What the flags of a line give, and one argument more. -/
def givenMore (f : Flag) (a : Arg) (given : Flag → List Arg) (g : Flag) : List Arg :=
  given g ++ if g = f then [a] else []

/-- Collecting one flag is not disturbed by an argument under the name of another. -/
theorem collect_insert {g : Flag} (hne : f ≠ g) (a : Arg)
    (h : collect policy given args g = .ok args') :
    collect policy given (args.insert f.name a) g = .ok (args'.insert f.name a) := by
  unfold collect at h ⊢
  split at h
  · exact absurd h (by simp)
  · next hpolicy =>
    rw [if_neg hpolicy]
    cases hchosen : policy.choose? (given g) with
    | none =>
      rw [hchosen] at h
      rw [Except.ok.inj h]
    | some v =>
      rw [hchosen] at h
      rw [← Except.ok.inj h]
      exact congrArg Except.ok (Resolve.insert_comm (fun heq => hne (eq_of_name_eq heq)) a v)

/-- Neither is collecting a list of other flags, by induction on the list. -/
theorem foldlM_collect_insert {flags : List Flag} (hnew : f ∉ flags) (a : Arg)
    (h : flags.foldlM (collect policy given) args = .ok args') :
    flags.foldlM (collect policy given) (args.insert f.name a) = .ok (args'.insert f.name a) := by
  induction flags generalizing args with
  | nil => rw [← Except.ok.inj h]; rfl
  | cons g flags ih =>
    obtain ⟨hne, hflags⟩ := not_or.1 (mt List.mem_cons.2 hnew)
    rw [List.foldlM_cons] at h ⊢
    obtain ⟨args₁, hstep, hfold⟩ := bind_eq_ok.1 h
    exact bind_eq_ok.2 ⟨_, collect_insert hne a hstep, ih hflags hfold⟩

/-- **A flag that was not given before** is collected as one argument more. -/
theorem collectAll_insert {allowed : List Flag} (hnodup : allowed.Nodup) (hf : f ∈ allowed)
    (hnone : given f = []) (a : Arg) (h : collectAll allowed policy given = .ok args) :
    collectAll allowed policy (givenMore f a given) = .ok (args.insert f.name a) := by
  -- The flag stands at one place among those allowed: in front of it nothing changes, there the
  -- argument comes in, and behind it the argument is carried along.
  obtain ⟨before, after, rfl⟩ := List.append_of_mem hf
  obtain ⟨-, hafter, hdisjoint⟩ := List.nodup_append.1 hnodup
  have hnew : f ∉ before ∧ f ∉ after :=
    ⟨fun hmem => hdisjoint f hmem f List.mem_cons_self rfl, (List.nodup_cons.1 hafter).1⟩
  -- The other flags are given what they were given before.
  have hsame : ∀ flags : List Flag, f ∉ flags → ∀ start, flags.foldlM
      (collect policy (givenMore f a given)) start = flags.foldlM (collect policy given) start := by
    intro flags hflags start
    refine foldlM_congr (fun g hg args => ?_) start
    have hne : g ≠ f := fun heq => hflags (heq ▸ hg)
    simp only [collect, givenMore, if_neg hne, List.append_nil]
  have hskip : ∀ args, collect policy given args f = .ok args := by
    intro args
    unfold collect
    rw [hnone]
    cases policy <;> rfl
  have htake : ∀ args, collect policy (givenMore f a given) args f =
      .ok (args.insert f.name a) := by
    intro args
    unfold collect givenMore
    rw [hnone, if_pos rfl]
    cases policy <;> rfl
  unfold collectAll at h ⊢
  rw [List.foldlM_append] at h ⊢
  obtain ⟨args₁, hbefore, h⟩ := bind_eq_ok.1 h
  rw [List.foldlM_cons] at h
  obtain ⟨args₂, hstep, hrest⟩ := bind_eq_ok.1 h
  obtain rfl : args₁ = args₂ := Except.ok.inj ((hskip args₁).symm.trans hstep)
  refine bind_eq_ok.2 ⟨args₁, (hsame before hnew.1 _).trans hbefore, ?_⟩
  rw [List.foldlM_cons]
  refine bind_eq_ok.2 ⟨_, htake args₁, ?_⟩
  rw [hsame after hnew.2]
  exact foldlM_collect_insert hnew.2 a hrest

end Flag

/-- The flags that do not read a window are taken by every command. -/
theorem Grammar.mem_flags (g : Grammar) {f : Flag} (hf : f.isWindow = false) : f ∈ g.flags :=
  List.mem_filter.2 ⟨f.mem_all, by rw [hf]; simp⟩

theorem Grammar.nodup_flags (g : Grammar) : g.flags.Nodup :=
  (show Flag.all.Nodup by decide).filter _

namespace Resolve

variable {args : Arguments} {name : String} {value : Arg}

/-- **An argument that is nothing to a window name** does not change it. -/
theorem withAlias_insert {a : WindowAlias} (hname : name ≠ a.name) (hsources : name ∉ a.sources)
    {args' : Arguments} (h : withAlias a args = .ok args') :
    withAlias a (args.insert name value) = .ok (args'.insert name value) := by
  have hget : ∀ other, other ≠ name → (args.insert name value).get? other = args.get? other := by
    intro other hne
    rw [NameMap.get?_insert, if_neg hne]
  -- Neither the name nor its sources are looked up differently.
  have hsource : aliasSource? a (args.insert name value) = aliasSource? a args := by
    unfold aliasSource? Arguments.isAbsent
    rw [hget _ hname.symm, List.filterMap_congr fun other hother => by
      rw [hget other fun heq => hsources (heq ▸ hother)]]
  rcases withAlias_eq_ok.1 h with ⟨hnone, rfl⟩ | ⟨v, v', hsome, hv, rfl⟩
  · exact withAlias_eq_ok.2 (.inl ⟨hsource.trans hnone, rfl⟩)
  · exact withAlias_eq_ok.2
      (.inr ⟨v, v', hsource.trans hsome, hv, (insert_comm hname value v').symm⟩)

/-- Naming the window stores under one name only. -/
theorem get?_withAlias_of_ne {a : WindowAlias} (hname : name ≠ a.name) {args' : Arguments}
    (h : withAlias a args = .ok args') : args'.get? name = args.get? name := by
  rcases withAlias_eq_ok.1 h with ⟨-, rfl⟩ | ⟨v, v', -, -, rfl⟩
  · rfl
  · rw [NameMap.get?_insert, if_neg hname]

variable {s : Settings} {head : Head} {g : Grammar} {captures : List Capture} {flags : Arguments}

/-- A flag more is an argument more, if its name is not there before. -/
theorem arguments_insert (hg : g ∈ Grammar.all) (hsub : (captures.map Capture.slot).Sublist g.slots)
    (hname : name ∈ reserved) :
    arguments s head g captures (flags.insert name value) =
      (arguments s head g captures flags).insert name value := by
  -- Compared name by name: under its own name the flag is held, as slots never use it.
  refine NameMap.ext_get? fun n => ?_
  rw [NameMap.get?_insert]
  split
  · next heq =>
    subst heq
    rw [get?_arguments_of_reserved hg hsub hname, NameMap.get?_insert, if_pos rfl]
  · next hne =>
    unfold arguments
    rw [get?_withFlags, get?_withFlags, NameMap.get?_insert, if_neg hne]

end Resolve

/-! ## Whole lines

The steps of a resolution, with the argument in each of them: the line with the word behind it goes
through all that the line without it went through. -/

theorem Flag.mem_reserved (f : Flag) : f.name ∈ Resolve.reserved := by
  cases f <;> decide

/-- A flag that does not read a window is nothing to a platform's name for the window. -/
theorem Flag.windowAlias_free {f : Flag} (hf : f.isWindow = false) (p : Platform) :
    f.name ≠ p.windowAlias.name ∧ f.name ∉ p.windowAlias.sources := by
  cases f <;> cases p <;> first | decide | exact absurd hf (by decide)

namespace Command

variable {s : Settings} {invalid : Failure} {head : Head} {positionals : List String}
  {given : Flag → List Arg} {c : Command} {f : Flag}

/-- Where each step goes through, the line is resolved to the command. -/
theorem resolve_of_isResolved {g : Grammar} {captures : List Capture}
    (h : IsResolved s head positionals given g captures c) :
    resolve s invalid head positionals given = .ok c := by
  obtain ⟨flags, hflags, hargs⟩ := h.args
  obtain ⟨platform, verb, name, args⟩ := c
  obtain rfl : g.verb = verb := h.verb
  obtain rfl : g.name = name := h.name
  unfold resolve
  rw [h.grammar]
  simp only [hflags, h.platform, h.serves, hargs, bind, Except.bind]
  rfl

/-- A flag that does not read a window holds what the policy chooses. -/
theorem IsResolved.get?_plain {g : Grammar} {captures : List Capture}
    (h : IsResolved s head positionals given g captures c) (hf : f.isWindow = false) :
    c.args.get? f.name = s.flagPolicy.choose? (given f) := by
  obtain ⟨flags, hflags, hargs⟩ := h.args
  obtain ⟨hg, hfill⟩ := Grammar.choose?_eq_some h.grammar
  rw [Resolve.get?_withAlias_of_ne (f.windowAlias_free hf c.platform).1 hargs,
    Resolve.get?_arguments_of_reserved hg (fill_eq_some hfill).1 f.mem_reserved]
  exact Flag.get?_foldlM_collect g.nodup_flags (g.mem_flags hf) rfl hflags

/-- The command with one more argument. -/
def withArgument (c : Command) (f : Flag) (a : Arg) : Command :=
  { c with args := c.args.insert f.name a }

/-- A line that is resolved is resolved with one more flag as well. -/
theorem IsResolved.withArgument {g : Grammar} {captures : List Capture}
    (h : IsResolved s head positionals given g captures c) (hf : f.isWindow = false)
    (hnone : given f = []) (a : Arg) :
    IsResolved s head positionals (Flag.givenMore f a given) g captures (c.withArgument f a) := by
  obtain ⟨flags, hflags, hargs⟩ := h.args
  obtain ⟨hg, hfill⟩ := Grammar.choose?_eq_some h.grammar
  obtain ⟨hname, hsources⟩ := f.windowAlias_free hf c.platform
  refine ⟨h.grammar, h.platform, h.serves, h.verb, h.name, _,
    Flag.collectAll_insert g.nodup_flags (g.mem_flags hf) hnone a hflags, ?_⟩
  rw [Resolve.arguments_insert hg (fill_eq_some hfill).1 f.mem_reserved]
  exact Resolve.withAlias_insert hname hsources hargs

/-- **The line with a word behind it that gives a flag a value**, where the flag was not given
before, stands for the same command with one more argument. -/
theorem parse_appended {text longer w : String} {a : Arg} (hw : f.WrittenBy a w)
    (hwords : Text.words longer = Text.words text ++ [w]) (h : parse s text = .ok c)
    (hf : f.isWindow = false) (hfree : c.args.get? f.name = none) :
    parse s longer = .ok (c.withArgument f a) := by
  obtain ⟨line, g, captures, hline, hresolved⟩ := exists_isResolved_words h
  have hsplits : ∀ (g : Flag) (ws : List String), g.Splits ws [w] := fun g =>
    Flag.splits_of_refused (hw.refused g)
  -- Had the line given the flag a value, the command would hold it.
  have hnone : f.given (Text.words text) = [] := by
    have hheld := hresolved.get?_plain hf
    rw [hfree] at hheld
    by_contra hne
    have hsome := (FlagPolicy.isSome_choose? s.flagPolicy).2 hne
    rw [← hheld] at hsome
    exact absurd hsome (by simp)
  have hgiven : (fun g : Flag => g.given (Text.words text ++ [w])) =
      Flag.givenMore f a fun g => g.given (Text.words text) := by
    funext g
    rw [Flag.given_append (hsplits g _), hw.given]
    rfl
  rw [parse_eq_ofWords, hwords]
  unfold ofWords
  rw [CommandLine.ofWords?_append hline]
  dsimp only
  -- The positional words are the old ones, and the flags give one argument more.
  rw [CommandLine.positionals_append fun g => hsplits g _, hw.positionals, List.append_nil, hgiven]
  exact resolve_of_isResolved (hresolved.withArgument hf hnone a)

end Command

end AdOps
