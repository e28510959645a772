import AdOps.Proofs.CommandLine.Given
import AdOps.Proofs.Text.Case
import Mathlib.Data.List.TakeWhile

/-!
# What the arguments of a line hold

The arguments of a line are filled in step by step, and each step stores under names of its own. A
name that belongs to a flag or to a platform's window is no slot's, so it holds what the flags gave
for it. The interval of a command that reads a window holds the captured word or the setting that
stands in for it.

* **`fill_eq_some`** — captured words stand in slots of the grammar that they fit, in order.
* **`get?_arguments_of_reserved`** — what is held under the name of a flag.
* **`get?_arguments_interval`** — what is held for the interval.
-/

namespace AdOps

/-! ## Folds

Each step of the resolution is a fold that stores under the names of slots, rules or flags. Two
lemmas cover them all: a name that no step owns is left alone, and a name that one step owns is
changed by it once. -/

namespace NameMap

variable {α β : Type} {name : String}

/-- Steps that leave a name alone, leave it alone in a row. -/
theorem get?_foldl_of_forall {f : NameMap α → β → NameMap α} {l : List β}
    (h : ∀ b ∈ l, ∀ m, (f m b).get? name = m.get? name) (m : NameMap α) :
    (l.foldl f m).get? name = m.get? name := by
  induction l generalizing m with
  | nil => rfl
  | cons b l ih =>
    obtain ⟨hb, hl⟩ := List.forall_mem_cons.1 h
    rw [List.foldl_cons, ih hl, hb]

/-- Steps with names of their own change what they own once, in a row as well. -/
theorem get?_foldl_own (key : β → String) {f : NameMap α → β → NameMap α} {l : List β}
    (hnodup : (l.map key).Nodup)
    (hother : ∀ b ∈ l, ∀ m other, other ≠ key b → (f m b).get? other = m.get? other) {b : β}
    (hb : b ∈ l) (change : Option α → Option α)
    (hown : ∀ m, (f m b).get? (key b) = change (m.get? (key b))) (m : NameMap α) :
    (l.foldl f m).get? (key b) = change (m.get? (key b)) := by
  induction l generalizing m with
  | nil => exact absurd hb List.not_mem_nil
  | cons first l ih =>
    obtain ⟨hfirst, hl⟩ := List.forall_mem_cons.1 hother
    rw [List.map_cons] at hnodup
    obtain ⟨hnew, hrest⟩ := List.nodup_cons.1 hnodup
    rw [List.foldl_cons]
    rcases List.mem_cons.1 hb with rfl | hmem
    -- Behind its own step nothing else stores under the name.
    · have hlater : ∀ b' ∈ l, ∀ m, (f m b').get? (key b) = m.get? (key b) := fun b' hb' m =>
        hl b' hb' m _ fun heq => hnew (heq ▸ List.mem_map_of_mem hb')
      rw [get?_foldl_of_forall hlater, hown]
    · have hne : key b ≠ key first := fun heq => hnew (heq ▸ List.mem_map_of_mem hmem)
      rw [ih hrest hl hmem, hfirst m _ hne]

/-- Storing only if absent keeps what is there. -/
theorem get?_insertIfAbsent (m : NameMap α) (name other : String) (value : α) :
    (m.insertIfAbsent name value).get? other =
      if other = name then (m.get? name).or (some value) else m.get? other := by
  unfold insertIfAbsent contains
  cases hname : m.get? name with
  | none =>
    rw [Option.isSome_none, if_neg (by simp), get?_insert]
    rfl
  | some v =>
    rw [Option.isSome_some, if_pos rfl]
    split
    · next heq => rw [heq, hname]; rfl
    · rfl

/-- And so does a row of such steps, of which the first with the name counts. -/
theorem get?_foldl_insertIfAbsent (l : List (String × α)) (m : NameMap α) (name : String) :
    (l.foldl (fun acc e => acc.insertIfAbsent e.1 e.2) m).get? name =
      (m.get? name).or (Entries.find name l) := by
  induction l generalizing m with
  | nil => simp [Entries.find]
  | cons e l ih =>
    rw [List.foldl_cons, ih, get?_insertIfAbsent]
    simp only [Entries.find]
    split
    · next heq => subst heq; cases m.get? e.1 <;> rfl
    · rfl

end NameMap

theorem Arguments.text?_eq_some {args : Arguments} {name text : String}
    (h : args.get? name = some (.text text)) : args.text? name = some text := by
  unfold text?
  rw [h]
  rfl

theorem Arguments.text?_eq_none {args : Arguments} {name : String} (h : args.get? name = none) :
    args.text? name = none := by
  unfold text?
  rw [h]
  rfl

theorem Arguments.text?_insert (args : Arguments) (name other text : String) :
    text? (args.insert name (.text text)) other =
      if other = name then some text else args.text? other := by
  unfold text?
  rw [NameMap.get?_insert]
  split <;> rfl

/-! ## Captured words

Slots are filled from the left, and a word that does not fit skips the optional slot before it. So
the captures name a sublist of the slots, each with a word that fits it. -/

/-- **Captured words stand in slots of the grammar, in order, and fit them.** -/
theorem fill_eq_some {s : Settings} {slots : List Slot} {words : List String}
    {captures : List Capture} (h : fill s slots words = some captures) :
    (captures.map Capture.slot).Sublist slots ∧
      ∀ c ∈ captures, c.slot.kind.fits s c.word = true := by
  induction slots generalizing words captures with
  | nil =>
    cases words with
    | nil =>
      obtain rfl := Option.some.inj h
      exact ⟨.slnil, fun _ hc => absurd hc List.not_mem_nil⟩
    | cons word words => exact absurd h (by simp [fill])
  | cons slot slots ih =>
    cases words with
    | nil =>
      rw [fill] at h
      -- No words are left, so the slot is skipped, which only an optional one can be.
      obtain ⟨-, h⟩ := Option.ite_none_right_eq_some.1 h
      exact ⟨(ih h).1.cons slot, (ih h).2⟩
    | cons word words =>
      rw [fill] at h
      split at h
      · next hfits =>
        obtain ⟨rest, hrest, rfl⟩ := Option.map_eq_some_iff.1 h
        refine ⟨(ih hrest).1.cons_cons slot, fun c hc => ?_⟩
        rcases List.mem_cons.1 hc with rfl | hc
        · exact hfits
        · exact (ih hrest).2 c hc
      · obtain ⟨-, h⟩ := Option.ite_none_right_eq_some.1 h
        exact ⟨(ih h).1.cons slot, (ih h).2⟩

namespace Interval

/-- What is written as an interval is not blank. -/
theorem isBlankText_of_isWritten {word : String} (h : isWritten word.toList = true) :
    Text.isBlankText word = false := by
  -- Its unit is not blank, or its first letter is not.
  obtain ⟨c, hmem, hc⟩ : ∃ c ∈ word.toList, Text.isBlank c = false := by
    rcases Bool.or_eq_true_iff.1 h with hcount | hword
    · obtain ⟨u, hu, hunit⟩ := (Option.any_eq_true _ _).1 (Bool.and_eq_true_iff.1 hcount).2
      obtain ⟨c, hlast, rfl⟩ := Option.map_eq_some_iff.1 hu
      refine ⟨c, List.mem_of_getLast? hlast, ?_⟩
      rw [← Text.isBlank_fold]
      simp only [isUnit, Bool.or_eq_true, decide_eq_true_eq] at hunit
      rcases hunit with ((hunit | hunit) | hunit) | hunit <;> rw [hunit] <;> decide
    · obtain ⟨hne, hall⟩ := Bool.and_eq_true_iff.1 hword
      cases hcs : word.toList with
      | nil =>
        rw [hcs] at hne
        exact absurd hne (by simp)
      | cons c cs =>
        rw [hcs] at hall
        exact ⟨c, List.mem_cons_self, Text.isBlank_of_isLetter (List.all_eq_true.1 hall c
          List.mem_cons_self)⟩
  exact List.all_eq_false.2 ⟨c, hmem, by simp [hc]⟩

end Interval

/-- The default interval of valid settings is not blank. -/
theorem Settings.Valid.isBlankText_interval {s : Settings} (h : s.Valid) :
    Text.isBlankText s.defaultTimeInterval = false := by
  cases hblank : Text.isBlankText s.defaultTimeInterval with
  | false => rfl
  | true =>
    -- Nothing is left of a blank text, and nothing is no interval.
    have htrim : Text.trim s.defaultTimeInterval = "" := by
      unfold Text.trim
      rw [List.dropWhile_eq_nil_iff.2 (List.all_eq_true.1 hblank)]
      rfl
    have hread : Interval.read? s.defaultTimeInterval = none := by
      unfold Interval.read?
      rw [htrim]
      rfl
    unfold Valid invalid? at h
    rw [hread] at h
    split at h
    · exact absurd h (by simp)
    · split at h
      · exact absurd h (by simp)
      · exact absurd h (by simp)

/-! ## The steps of a resolution

What each step does to one name. A step either owns the name, and then it fills it in or replaces
it, or it does not, and then what is held stays. -/

/-- A capture of the interval slot. -/
def Capture.isInterval (c : Capture) : Bool := c.slot.kind = .interval

/-- The word of a capture of the interval slot, if there is one. -/
def capturedInterval? (captures : List Capture) : Option String :=
  (captures.find? Capture.isInterval).map Capture.word

/-- A captured interval is written as one. -/
theorem isWritten_of_capturedInterval? {s : Settings} {captures : List Capture}
    (hfits : ∀ c ∈ captures, c.slot.kind.fits s c.word = true) {word : String}
    (h : capturedInterval? captures = some word) : Interval.isWritten word.toList = true := by
  obtain ⟨c, hfind, rfl⟩ := Option.map_eq_some_iff.1 h
  have hfound : c.isInterval = true := List.find?_some hfind
  have hkind : c.slot.kind = .interval := of_decide_eq_true hfound
  have hword := hfits c (List.mem_of_find?_eq_some hfind)
  rwa [hkind] at hword

/-- The interval slot of a grammar that reads a window is its last slot. -/
theorem Grammar.slots_windowed : ∀ g ∈ all, g.windowed = true →
    g.slots = g.slots.dropLast ++ [interval] ∧
      ∀ slot ∈ g.slots.dropLast, slot.kind ≠ .interval ∧ slot.name ≠ "time_interval" := by
  decide

namespace Resolve

/-- The names of the flags, and those under which the platforms keep their window. -/
def reserved : List String :=
  Flag.all.map Flag.name ++ Platform.all.map fun p => p.windowAlias.name

variable {s : Settings} {args : Arguments} {slots : List Slot} {captures : List Capture}
  {name : String}

/-- Flags only fill in what is missing. -/
theorem get?_withFlags (flags args : Arguments) (name : String) :
    (withFlags flags args).get? name = (args.get? name).or (flags.get? name) :=
  NameMap.get?_foldl_insertIfAbsent flags.entries args name

theorem isAbsent_of_none (h : args.get? name = none) : args.isAbsent name = true := by
  unfold Arguments.isAbsent
  rw [h]

/-- A text is absent if it is blank. -/
theorem isAbsent_of_text {text : String} (h : args.get? name = some (.text text)) :
    args.isAbsent name = Text.isBlankText text := by
  unfold Arguments.isAbsent
  rw [h]
  rfl

/-- Filling in leaves other names alone. -/
theorem get?_fillIn_of_ne {other : String} (h : other ≠ name) (value : Arg) :
    (fillIn args name value).get? other = args.get? other := by
  unfold fillIn
  split
  · rw [NameMap.get?_insert, if_neg h]
  · rfl

theorem get?_fillIn_of_none (h : args.get? name = none) (value : Arg) :
    (fillIn args name value).get? name = some value := by
  unfold fillIn
  rw [if_pos (isAbsent_of_none h), NameMap.get?_insert, if_pos rfl]

theorem get?_fillIn_of_text {text : String} (h : args.get? name = some (.text text))
    (hblank : Text.isBlankText text = false) (value : Arg) :
    (fillIn args name value).get? name = some (.text text) := by
  unfold fillIn
  rw [isAbsent_of_text h, hblank, if_neg (by simp), h]

/-- The captures store under their slots, and the head under two names of its own. -/
theorem get?_captured_of_ne {head : Head} (hplatform : name ≠ "platform")
    (hcommand : name ≠ "command") (h : ∀ c ∈ captures, name ≠ c.slot.name) :
    (captured head captures).get? name = none := by
  unfold captured
  rw [NameMap.get?_foldl_of_forall fun c hc m => by rw [NameMap.get?_insert, if_neg (h c hc)],
    NameMap.get?_insert, if_neg hcommand, NameMap.get?_insert, if_neg hplatform]
  rfl

/-- The fallbacks of slots leave other names alone. -/
theorem get?_withSlotFallbacks_of_ne (h : ∀ slot ∈ slots, name ≠ slot.name) :
    (withSlotFallbacks s slots args).get? name = args.get? name := by
  refine NameMap.get?_foldl_of_forall (fun slot hslot m => ?_) args
  split
  · exact get?_fillIn_of_ne (h slot hslot) _
  · rfl

/-- And so do those of verbs. -/
theorem get?_withVerbFallbacks_of_ne (h : ∀ rule ∈ VerbFallback.all, name ≠ rule.argument)
    (verb : String) : (withVerbFallbacks s verb args).get? name = args.get? name := by
  refine NameMap.get?_foldl_of_forall (fun rule hrule m => ?_) args
  split
  · exact get?_fillIn_of_ne (h rule hrule) _
  · rfl

/-- What names everything is looked for in the slots of identifiers only. -/
theorem get?_withSentinels_of_ne
    (h : ∀ slot ∈ slots, slot.kind = .identifier → name ≠ slot.name) :
    (withSentinels s slots args).get? name = args.get? name := by
  refine NameMap.get?_foldl_of_forall (fun slot hslot m => ?_) args
  split
  · next hall => rw [NameMap.get?_insert, if_neg (h slot hslot hall.1)]
  · rfl

/-! ### The platform's name for the window

The last step derives one argument from the first of its sources that holds something. It can fail,
and it is the only one that can; so it is told by an equation and by all that it can come to. -/

/-- What the platform's name for the window is derived from, if it is missing. -/
def aliasSource? (a : WindowAlias) (args : Arguments) : Option Arg :=
  if args.isAbsent a.name then
    (a.sources.filterMap fun name =>
      (args.get? name).filter fun v => !v.isEmpty && v ≠ .all).head?
  else none

/-- The step derives its argument from its source, if it has one. -/
theorem withAlias_eq_source (a : WindowAlias) (args : Arguments) :
    withAlias a args = match aliasSource? a args with
      | none => .ok args
      | some v => (a.transform v).map (args.insert a.name) := by
  unfold withAlias aliasSource?
  cases args.isAbsent a.name <;> rfl

/-- All that can come of the platform's name: nothing is added, or what is derived. -/
theorem withAlias_eq_ok {a : WindowAlias} {args' : Arguments} :
    withAlias a args = .ok args' ↔ (aliasSource? a args = none ∧ args' = args) ∨
      ∃ v v', aliasSource? a args = some v ∧ a.transform v = .ok v' ∧
        args' = args.insert a.name v' := by
  rw [withAlias_eq_source]
  cases aliasSource? a args with
  | none => simp [eq_comm]
  | some v => cases hv : a.transform v <;> simp [hv, Except.map, eq_comm]

/-- A name that is held already is not derived. -/
theorem withAlias_of_present {a : WindowAlias} (h : args.isAbsent a.name = false) :
    withAlias a args = .ok args := by
  unfold withAlias
  rw [h]
  rfl

/-- A source that holds a text that is not blank, behind sources that hold nothing. -/
theorem withAlias_of_absent {a : WindowAlias} (h : args.isAbsent a.name = true)
    {before after : List String} (hsources : a.sources = before ++ name :: after)
    (hbefore : ∀ other ∈ before, args.get? other = none) {text : String}
    (htext : args.get? name = some (.text text)) (hblank : Text.isBlankText text = false) :
    withAlias a args = (a.transform (.text text)).map (args.insert a.name) := by
  -- The sources in front hold nothing, so the first that counts is this one.
  have hnothing : (before.filterMap fun other =>
      (args.get? other).filter fun v => !v.isEmpty && v ≠ .all) = [] := by
    refine List.filterMap_eq_nil_iff.2 fun other hother => ?_
    rw [hbefore other hother]
    rfl
  have hkeep : (Option.some (Arg.text text)).filter (fun v => !v.isEmpty && v ≠ .all) =
      some (.text text) := by
    rw [Option.filter_some, if_pos]
    simp [Arg.isEmpty, hblank]
  unfold withAlias
  rw [h]
  simp only [Bool.not_true, Bool.false_eq_true, if_false, hsources, List.filterMap_append,
    List.filterMap_cons, hnothing, List.nil_append, htext, hkeep, List.head?_cons]

section head

variable {head : Head} {g : Grammar} {flags : Arguments}

/-- **What is held under a reserved name is what the flags gave for it.** -/
theorem get?_arguments_of_reserved (hg : g ∈ Grammar.all)
    (hsub : (captures.map Capture.slot).Sublist g.slots) (hname : name ∈ reserved) :
    (arguments s head g captures flags).get? name = flags.get? name := by
  -- No grammar names a slot like a flag or a window; it is a closed fact about the table of
  -- grammars.
  have hslots : ∀ slot ∈ g.slots, name ≠ slot.name := by
    have hfree : ∀ g ∈ Grammar.all, ∀ slot ∈ g.slots, slot.name ∉ reserved := by decide
    exact fun slot hslot heq => hfree g hg slot hslot (heq ▸ hname)
  have hverbs : ∀ rule ∈ VerbFallback.all, name ≠ rule.argument := by
    have hfree : ∀ rule ∈ VerbFallback.all, rule.argument ∉ reserved := by decide
    exact fun rule hrule heq => hfree rule hrule (heq ▸ hname)
  have hcaptures : ∀ c ∈ captures, name ≠ c.slot.name := fun c hc =>
    hslots c.slot (hsub.subset (List.mem_map_of_mem hc))
  have hplatform : name ≠ "platform" := fun heq =>
    absurd (heq ▸ hname) (show "platform" ∉ reserved by decide)
  have hcommand : name ≠ "command" := fun heq =>
    absurd (heq ▸ hname) (show "command" ∉ reserved by decide)
  -- From the last step to the first, none of them owns the name but the flags.
  unfold arguments
  rw [get?_withFlags, get?_withSentinels_of_ne fun slot hslot _ => hslots slot hslot,
    get?_withVerbFallbacks_of_ne hverbs, get?_withSlotFallbacks_of_ne hslots,
    get?_captured_of_ne hplatform hcommand hcaptures]
  rfl

/-- The captured interval stands in the last slot, if there is one. -/
theorem get?_captured_interval {init : List Slot}
    (hinit : ∀ slot ∈ init, slot.kind ≠ .interval ∧ slot.name ≠ "time_interval")
    (hsub : (captures.map Capture.slot).Sublist (init ++ [Grammar.interval])) :
    (captured head captures).get? "time_interval" =
      (capturedInterval? captures).map fun word => .text (Text.asciiLower word) := by
  obtain ⟨slots₁, slots₂, hslots, hsub₁, hsub₂⟩ := List.sublist_append_iff.1 hsub
  obtain ⟨captures₁, captures₂, rfl, rfl, rfl⟩ := List.map_eq_append_iff.1 hslots
  have hfront : ∀ c ∈ captures₁, c.slot.kind ≠ .interval ∧ c.slot.name ≠ "time_interval" :=
    fun c hc => hinit c.slot (hsub₁.subset (List.mem_map_of_mem hc))
  have hnone : captures₁.find? Capture.isInterval = none :=
    List.find?_eq_none.2 fun c hc => by simp [Capture.isInterval, (hfront c hc).1]
  have hfold : (captured head captures₁).get? "time_interval" = none :=
    get?_captured_of_ne (by decide) (by decide) fun c hc => (hfront c hc).2.symm
  have hsplit : captured head (captures₁ ++ captures₂) =
      captures₂.foldl (fun args c => args.insert c.slot.name (c.slot.kind.argument c.word))
        (captured head captures₁) := List.foldl_append
  unfold capturedInterval?
  rw [hsplit, List.find?_append, hnone, Option.none_or]
  cases captures₂ with
  | nil => exact hfold
  | cons c rest =>
    -- There is only one more capture, and it is of the interval slot.
    have hlength : rest.length + 1 ≤ 1 := by simpa using hsub₂.length_le
    obtain rfl : rest = [] := List.eq_nil_of_length_eq_zero (by omega)
    have hslot : c.slot = Grammar.interval :=
      List.mem_singleton.1 (hsub₂.subset List.mem_cons_self)
    rw [List.foldl_cons, List.foldl_nil, NameMap.get?_insert]
    simp [hslot, Capture.isInterval, Grammar.interval, SlotKind.argument]

/-- **What is held for the interval** of a command that reads a window: the captured word, and the
default interval if there is none. -/
theorem get?_arguments_interval (hg : g ∈ Grammar.all) (hw : g.windowed = true)
    {words : List String} (hfill : fill s g.slots words = some captures) :
    (arguments s head g captures flags).get? "time_interval" =
      some (.text (Text.asciiLower ((capturedInterval? captures).getD s.defaultTimeInterval))) := by
  obtain ⟨hslots, hinit⟩ := Grammar.slots_windowed g hg hw
  obtain ⟨hsub, hfits⟩ := fill_eq_some hfill
  rw [hslots] at hsub
  have hfallback : (withSlotFallbacks s g.slots (captured head captures)).get? "time_interval" =
      some (.text
        (Text.asciiLower ((capturedInterval? captures).getD s.defaultTimeInterval))) := by
    -- The fallbacks of the slots in front do not touch the interval, whose own comes last.
    have hsame : (withSlotFallbacks s g.slots.dropLast (captured head captures)).get?
        "time_interval" = (captured head captures).get? "time_interval" :=
      get?_withSlotFallbacks_of_ne fun slot hslot => (hinit slot hslot).2.symm
    rw [get?_captured_interval hinit hsub] at hsame
    rw [hslots]
    unfold withSlotFallbacks at hsame ⊢
    rw [List.foldl_append]
    show (fillIn _ "time_interval" (s.fallback .timeInterval)).get? "time_interval" = _
    cases hword : capturedInterval? captures with
    | none =>
      rw [hword] at hsame
      exact get?_fillIn_of_none hsame _
    | some word =>
      rw [hword] at hsame
      -- The captured word is not blank, so nothing is filled in.
      refine get?_fillIn_of_text hsame ?_ _
      rw [Text.isBlankText_asciiLower]
      exact Interval.isBlankText_of_isWritten (isWritten_of_capturedInterval? hfits hword)
  -- The interval is no identifier, so naming everything is nothing to it.
  have hidentifier : ∀ slot ∈ g.slots, slot.kind = .identifier → "time_interval" ≠ slot.name := by
    intro slot hslot hkind
    rw [hslots] at hslot
    rcases List.mem_append.1 hslot with hmem | hmem
    · exact (hinit slot hmem).2.symm
    · obtain rfl := List.mem_singleton.1 hmem
      exact absurd hkind (by decide)
  unfold arguments
  rw [get?_withFlags, get?_withSentinels_of_ne hidentifier, get?_withVerbFallbacks_of_ne (by decide),
    hfallback]
  rfl

end head

end Resolve

end AdOps
