import AdOps.Bot
import AdOps.Proofs.CommandLine.Appended
import AdOps.Proofs.CommandLine.Timeframe
import AdOps.Proofs.CommandLine.WordRoles
import AdOps.Proofs.Record.Fields
import Mathlib.Data.List.Nodup

/-!
# The arguments of a command are complete

The arguments of a line come about in six steps, and every step stores under names of its own: the
slots of a grammar, the flags and the platform's name for the window do not share a name, except
that the tracker keeps its window under the name of a flag. So each slot can be followed through the
steps by itself. What it holds in the end depends on the word that was captured for it, on the verb
and on the settings, and an accepted command holds its slots, its head, its flags and its window,
and nothing else.

* **`get?_arguments_slot`** — what is held for a slot.
* **`parse_complete`** — the arguments of an accepted line, all of them and what they hold.
-/

namespace AdOps

/-! ## Slots

What is held for a slot in the end is written down first, as a function of three things: the
captured word, the verb and the settings. The facts about grammars that follow are closed, and are
decided over the table. -/

/-- The word that was captured for a slot, if there is one. -/
def capturedWord? (captures : List Capture) (slot : Slot) : Option String :=
  (captures.find? fun c => c.slot = slot).map Capture.word

/-- **What is held for a slot**, by the word that was captured for it: an identifier is "no filter"
without a word, and some slots have nothing without one unless the verb brings it along. -/
def Slot.held? (s : Settings) (verb : String) (slot : Slot) (word? : Option String) : Option Arg :=
  match slot.kind, word? with
  | .identifier, some word =>
    some (if Text.sameIgnoringCase word s.allAlias then .all else .text word)
  | kind, some word => some (kind.argument word)
  | .identifier, none => some .all
  | .interval, none => some (s.fallback .timeInterval)
  | .threshold, none =>
    if verb = "widgets-low-cpa" then some (s.fallback .lowCpaThreshold) else none
  | .limit, none =>
    if verb = "widgets-top" ∨ verb = "top-widgets" then some (s.fallback .filterNumber) else none

namespace Grammar

/-- No grammar has two slots of one name. -/
theorem nodup_slots : ∀ g ∈ all, (g.slots.map Slot.name).Nodup := by decide

/-- The kind of a slot fixes its fallback and, but for identifiers, its name. -/
theorem slot_facts : ∀ g ∈ all, ∀ slot ∈ g.slots,
    (slot.kind = .identifier →
      slot.fallback = none ∧ ∀ rule ∈ VerbFallback.all, slot.name ≠ rule.argument) ∧
    (slot.kind = .interval → slot.fallback = some .timeInterval ∧ slot.name = "time_interval") ∧
    (slot.kind = .threshold → slot.fallback = none ∧ slot.name = "threshold") ∧
    (slot.kind = .limit → slot.fallback = none ∧ slot.name = "filter_limit") := by
  decide

/-- A verb that brings a fallback along is a word of grammars that have the slot for it. -/
theorem rule_slot : ∀ g ∈ all, ∀ rule ∈ VerbFallback.all, ∀ verb ∈ g.words,
    rule.words.contains verb = true → rule.argument ∈ g.slots.map Slot.name := by
  decide

/-- Some names tell the kind of their slot, and a slot for an interval makes the command read a
window. -/
theorem slot_kind : ∀ g ∈ all, ∀ slot ∈ g.slots,
    (slot.name = "threshold" → slot.kind = .threshold) ∧
    (slot.name = "filter_limit" → slot.kind = .limit) ∧
    (slot.kind = .interval → g.windowed = true) := by
  decide

/-- A grammar without a window has nothing that a platform derives its name from. -/
theorem source_free : ∀ g ∈ all, g.windowed = false →
    ∀ p ∈ Platform.all, ∀ source ∈ p.windowAlias.sources,
      source ∉ g.slots.map Slot.name ∧ source ≠ "platform" ∧ source ≠ "command" ∧
        ∀ f ∈ g.flags, source ≠ f.name := by
  decide

/-- Slots have names of their own. -/
theorem slot_name_free : ∀ g ∈ all, ∀ slot ∈ g.slots,
    slot.name ≠ "platform" ∧ slot.name ≠ "command" ∧ slot.name ∉ Resolve.reserved := by
  decide

/-- The chosen grammar is one for the verb. -/
theorem mem_words_of_choose? {s : Settings} {verb : String} {positionals : List String}
    {g : Grammar} {captures : List Capture} (h : choose? s verb positionals = some (g, captures)) :
    verb ∈ g.words := by
  obtain ⟨g', hmem, hfill⟩ := List.exists_of_findSome?_eq_some h
  obtain ⟨_, -, heq⟩ := Option.map_eq_some_iff.1 hfill
  obtain ⟨rfl, -⟩ := Prod.mk.inj heq
  exact List.contains_iff_mem.1 (List.mem_filter.1 hmem).2

end Grammar

/-- Positional words are words of the line. -/
theorem CommandLine.mem_of_mem_positionals {words : List String} {word : String}
    (h : word ∈ positionals words) : word ∈ words := by
  unfold positionals at h
  obtain ⟨entry, hentry, hkept⟩ := List.mem_filterMap.1 h
  obtain ⟨-, hsome⟩ := Option.ite_none_left_eq_some.1 hkept
  obtain rfl := Option.some.inj hsome
  exact (List.of_mem_zip hentry).1

/-- Words that are captured are not blank, as no word of a line is. -/
theorem isBlankText_of_fill {s : Settings} {slots : List Slot} {words : List String}
    (hwords : ∀ word ∈ words, Text.isBlankText word = false) {captures : List Capture}
    (hfill : fill s slots words = some captures) :
    ∀ c ∈ captures, Text.isBlankText c.word = false := fun c hc =>
  hwords c.word (by rw [← map_word_of_fill hfill]; exact List.mem_map_of_mem hc)

/-- No word that is offered as positional is blank. -/
theorem isBlankText_of_mem_freeWords {cs : List Char} {word : String} (h : word ∈ freeWords cs) :
    Text.isBlankText word = false := by
  rw [freeWords_eq] at h
  exact Text.isBlankText_of_mem_wordsOf (CommandLine.mem_of_mem_positionals h)

/-- A captured word makes an argument that is not empty, whatever the kind of its slot. -/
theorem SlotKind.isEmpty_argument {word : String} (h : Text.isBlankText word = false)
    (kind : SlotKind) : (kind.argument word).isEmpty = false := by
  cases kind with
  | identifier => exact h
  | interval => exact (Text.isBlankText_asciiLower word).trans h
  -- A word that is no number is kept as a text.
  | threshold =>
    unfold argument
    cases Number.float? word with
    | none => exact h
    | some x => rfl
  | limit =>
    unfold argument
    cases Number.integer? word with
    | none => exact h
    | some n => rfl

namespace Resolve

variable {s : Settings} {head : Head} {g : Grammar} {captures : List Capture}
  {args flags : Arguments} {slot : Slot} {slots : List Slot} {name : String}

/-! ### The steps, one name at a time

Each step is told by what it does to what is held under one name, as a function on that alone:
filling in, or putting in "no filter". A slot is then followed through the six steps by composing
these. -/

/-- What is held under a name once it was filled in. -/
def filled (value : Arg) (held : Option Arg) : Option Arg :=
  if held.all Arg.isEmpty then some value else held

/-- What is held for a slot once "no filter" was put in. -/
def sentinel (s : Settings) (held : Option Arg) : Option Arg :=
  if (held.bind Arg.text?).any (Text.sameIgnoringCase · s.allAlias) || held.all Arg.isEmpty then
    some .all
  else held

/-- Absent is nothing held, or something empty. -/
theorem isAbsent_eq (args : Arguments) (name : String) :
    args.isAbsent name = (args.get? name).all Arg.isEmpty := by
  unfold Arguments.isAbsent
  cases args.get? name <;> rfl

/-- What names everything is a text, compared without letter case. -/
theorem namesAll_eq (args : Arguments) (name : String) :
    namesAll s args name =
      ((args.get? name).bind Arg.text?).any (Text.sameIgnoringCase · s.allAlias) := by
  unfold namesAll Arguments.text?
  cases (args.get? name).bind Arg.text? <;> rfl

/-- Filling in, under its own name. -/
theorem get?_fillIn (args : Arguments) (name : String) (value : Arg) :
    (fillIn args name value).get? name = filled value (args.get? name) := by
  unfold fillIn filled
  rw [isAbsent_eq]
  split
  · rw [NameMap.get?_insert, if_pos rfl]
  · rfl

/-- A captured word is not blank, so nothing is filled in over it. -/
theorem filled_argument {word? : Option String}
    (hblank : ∀ word, word? = some word → Text.isBlankText word = false) (kind : SlotKind)
    (value : Arg) : filled value (word?.map kind.argument) =
      some ((word?.map kind.argument).getD value) := by
  cases word? with
  | none => rfl
  | some word => simp [filled, kind.isEmpty_argument (hblank word rfl)]

/-- An identifier that is not blank is kept, unless it names everything. -/
theorem sentinel_argument {word : String} (hblank : Text.isBlankText word = false) :
    sentinel s (some (.text word)) =
      some (if Text.sameIgnoringCase word s.allAlias then .all else .text word) := by
  simp only [sentinel, Option.bind_some, Arg.text?, Option.any_some, Option.all_some, Arg.isEmpty,
    hblank, Bool.or_false]
  split <;> rfl

/-- The captures hold what their words make of their slots. -/
theorem get?_captured (head : Head) (hsub : (captures.map Capture.slot).Sublist slots)
    (hnodup : (slots.map Slot.name).Nodup) (hslot : slot ∈ slots)
    (hplatform : slot.name ≠ "platform") (hcommand : slot.name ≠ "command") :
    (captured head captures).get? slot.name =
      (capturedWord? captures slot).map slot.kind.argument := by
  unfold capturedWord?
  cases hfind : captures.find? fun c => c.slot = slot with
  | none =>
    refine get?_captured_of_ne hplatform hcommand fun c hc heq => ?_
    -- A capture of the same name would be of the same slot.
    have hsame : slot = c.slot :=
      List.inj_on_of_nodup_map hnodup hslot (hsub.subset (List.mem_map_of_mem hc)) heq
    exact List.find?_eq_none.1 hfind c hc (decide_eq_true hsame.symm)
  | some c =>
    have hmem := List.mem_of_find?_eq_some hfind
    have hfound := List.find?_some hfind
    obtain rfl : c.slot = slot := of_decide_eq_true hfound
    have hnames : (captures.map fun c => c.slot.name).Nodup := by
      have hsubnames := (hsub.map Slot.name).nodup hnodup
      rwa [List.map_map] at hsubnames
    have hfold : ∀ m : Arguments, (captures.foldl (fun args c => args.insert c.slot.name
        (c.slot.kind.argument c.word)) m).get? c.slot.name =
          some (c.slot.kind.argument c.word) :=
      NameMap.get?_foldl_own (fun c : Capture => c.slot.name) hnames
        (fun c _ (m : Arguments) name hne => by rw [NameMap.get?_insert, if_neg hne]) hmem
        (fun _ => some (c.slot.kind.argument c.word))
        (fun m => by rw [NameMap.get?_insert, if_pos rfl])
    exact hfold _

/-- A slot with a fallback is filled in by it. -/
theorem get?_withSlotFallbacks (hnodup : (slots.map Slot.name).Nodup) (hslot : slot ∈ slots) :
    (withSlotFallbacks s slots args).get? slot.name =
      match slot.fallback with
      | some key => filled (s.fallback key) (args.get? slot.name)
      | none => args.get? slot.name := by
  -- Its own step fills it in, and no other step touches it.
  refine NameMap.get?_foldl_own Slot.name hnodup (fun other _ m name hne => ?_) hslot
    (fun held => match slot.fallback with
      | some key => filled (s.fallback key) held
      | none => held) (fun m => ?_) args
  · split
    · exact get?_fillIn_of_ne hne _
    · rfl
  · cases slot.fallback with
    | none => rfl
    | some key => exact get?_fillIn m slot.name _

/-- A verb with a fallback fills in the argument of its rule. -/
theorem get?_withVerbFallbacks (rule : VerbFallback) (hrule : rule ∈ VerbFallback.all)
    (verb : String) : (withVerbFallbacks s verb args).get? rule.argument =
      if rule.words.contains verb then filled (s.fallback rule.fallback) (args.get? rule.argument)
      else args.get? rule.argument := by
  refine NameMap.get?_foldl_own VerbFallback.argument (by decide) (fun other _ m name hne => ?_)
    hrule (fun held => if rule.words.contains verb then filled (s.fallback rule.fallback) held
      else held) (fun m => ?_) args
  · split
    · exact get?_fillIn_of_ne hne _
    · rfl
  · split
    · exact get?_fillIn m rule.argument _
    · rfl

/-- A slot that a verb has a fallback for holds its captured word, or else the fallback of the verb.
-/
theorem get?_withVerbFallbacks_slot (rule : VerbFallback) (hrule : rule ∈ VerbFallback.all)
    (hname : slot.name = rule.argument) {word? : Option String}
    (hblank : ∀ word, word? = some word → Text.isBlankText word = false)
    (hheld : args.get? slot.name = word?.map slot.kind.argument) (verb : String) :
    (withVerbFallbacks s verb args).get? slot.name =
      (word?.map slot.kind.argument).or
        (if rule.words.contains verb then some (s.fallback rule.fallback) else none) := by
  rw [hname] at hheld ⊢
  rw [get?_withVerbFallbacks rule hrule, hheld, filled_argument hblank]
  cases word? <;> simp

/-- The fallbacks of other verbs leave a name alone, and so do those of other names. -/
theorem get?_withVerbFallbacks_of_idle {verb : String}
    (h : ∀ rule ∈ VerbFallback.all, rule.words.contains verb = true → name ≠ rule.argument) :
    (withVerbFallbacks s verb args).get? name = args.get? name := by
  refine NameMap.get?_foldl_of_forall (fun rule hrule m => ?_) args
  split
  · next hverb => exact get?_fillIn_of_ne (h rule hrule hverb) _
  · rfl

/-- Slots of identifiers have "no filter" put in, and the others stay. -/
theorem get?_withSentinels (hnodup : (slots.map Slot.name).Nodup) (hslot : slot ∈ slots) :
    (withSentinels s slots args).get? slot.name =
      if slot.kind = .identifier then sentinel s (args.get? slot.name)
      else args.get? slot.name := by
  refine NameMap.get?_foldl_own Slot.name hnodup (fun other _ m name hne => ?_) hslot
    (fun held => if slot.kind = .identifier then sentinel s held else held) (fun m => ?_) args
  · split
    · rw [NameMap.get?_insert, if_neg hne]
    · rfl
  · unfold sentinel
    rw [← namesAll_eq, ← isAbsent_eq]
    by_cases hkind : slot.kind = .identifier
    · simp only [hkind, true_and, if_true, Bool.or_eq_true]
      split
      · rw [NameMap.get?_insert, if_pos rfl]
      · rfl
    · simp only [hkind, false_and, if_false]

/-! ### What is held in the end

The composition of the steps for a slot, and for all other names. Slots differ by kind in which step
it is that gives them a value if no word was captured. -/

/-- **What is held for a slot** is told by its captured word, the verb and the settings. -/
theorem get?_arguments_slot (hg : g ∈ Grammar.all)
    (hsub : (captures.map Capture.slot).Sublist g.slots)
    (hblank : ∀ c ∈ captures, Text.isBlankText c.word = false) (hslot : slot ∈ g.slots)
    (hflags : flags.get? slot.name = none) :
    (arguments s head g captures flags).get? slot.name =
      slot.held? s head.verb (capturedWord? captures slot) := by
  have hnodup := Grammar.nodup_slots g hg
  obtain ⟨hplatform, hcommand, -⟩ := Grammar.slot_name_free g hg slot hslot
  obtain ⟨hidentifier, hinterval, hthreshold, hlimit⟩ := Grammar.slot_facts g hg slot hslot
  have hcaptured := get?_captured head hsub hnodup hslot hplatform hcommand
  have hfallbacks : (withSlotFallbacks s g.slots (captured head captures)).get? slot.name = _ :=
    get?_withSlotFallbacks hnodup hslot
  have hword : ∀ word, capturedWord? captures slot = some word →
      Text.isBlankText word = false := by
    intro word h
    obtain ⟨c, hfind, rfl⟩ := Option.map_eq_some_iff.1 h
    exact hblank c (List.mem_of_find?_eq_some hfind)
  unfold arguments Slot.held?
  rw [get?_withFlags, hflags, Option.or_none, get?_withSentinels hnodup hslot]
  -- Only whether a word was captured counts from here on, and each kind goes its own way through
  -- the steps.
  generalize capturedWord? captures slot = word? at hcaptured hword ⊢
  -- An identifier is put in as "no filter", an interval has a fallback of its slot, and the other
  -- two have one of the verb.
  cases hkind : slot.kind with
  | identifier =>
    obtain ⟨hfallback, hrules⟩ := hidentifier hkind
    simp only [hfallback, hcaptured, hkind] at hfallbacks
    rw [if_pos rfl, get?_withVerbFallbacks_of_ne hrules, hfallbacks]
    cases word? with
    | none => rfl
    | some word => exact sentinel_argument (hword word rfl)
  | interval =>
    obtain ⟨hfallback, hname⟩ := hinterval hkind
    simp only [hfallback, hcaptured, hkind, filled_argument hword] at hfallbacks
    rw [if_neg (by simp), get?_withVerbFallbacks_of_ne (by rw [hname]; decide), hfallbacks]
    cases word? <;> rfl
  | threshold =>
    obtain ⟨hfallback, hname⟩ := hthreshold hkind
    simp only [hfallback, hcaptured] at hfallbacks
    rw [if_neg (by simp), get?_withVerbFallbacks_slot
      ⟨"threshold", .lowCpaThreshold, ["widgets-low-cpa"]⟩ (by decide) hname hword hfallbacks, hkind]
    cases word? <;> simp
  | limit =>
    obtain ⟨hfallback, hname⟩ := hlimit hkind
    simp only [hfallback, hcaptured] at hfallbacks
    rw [if_neg (by simp), get?_withVerbFallbacks_slot
      ⟨"filter_limit", .filterNumber, ["widgets-top", "top-widgets"]⟩ (by decide) hname hword
      hfallbacks, hkind]
    cases word? <;> simp

/-- **What is held under a name that is no slot's** is a word of the head or what the flags gave. -/
theorem get?_arguments_free (hg : g ∈ Grammar.all) (hverb : head.verb ∈ g.words)
    (hsub : (captures.map Capture.slot).Sublist g.slots) (hname : name ∉ g.slots.map Slot.name) :
    (arguments s head g captures flags).get? name =
      (if name = "command" then some (.text head.verb)
        else if name = "platform" then some (.text head.platform) else none).or
        (flags.get? name) := by
  have hslots : ∀ slot ∈ g.slots, name ≠ slot.name := fun slot hslot heq =>
    hname (heq ▸ List.mem_map_of_mem hslot)
  -- The verb's own rules are for slots of its grammar, so they do not touch the name either.
  have hrules : ∀ rule ∈ VerbFallback.all, rule.words.contains head.verb = true →
      name ≠ rule.argument := fun rule hrule hword heq =>
    hname (heq ▸ Grammar.rule_slot g hg rule hrule head.verb hverb hword)
  have hcaptures : ∀ c ∈ captures, ∀ args : Arguments,
      (args.insert c.slot.name (c.slot.kind.argument c.word)).get? name = args.get? name := by
    intro c hc args
    rw [NameMap.get?_insert, if_neg (hslots c.slot (hsub.subset (List.mem_map_of_mem hc)))]
  unfold arguments captured
  rw [get?_withFlags, get?_withSentinels_of_ne fun slot hslot _ => hslots slot hslot,
    get?_withVerbFallbacks_of_idle hrules, get?_withSlotFallbacks_of_ne hslots,
    NameMap.get?_foldl_of_forall hcaptures, NameMap.get?_insert, NameMap.get?_insert,
    NameMap.get?_empty]

/-- Captured words for which the slots hold the same make the same arguments. -/
theorem arguments_congr {captures' : List Capture} (hg : g ∈ Grammar.all)
    (hverb : head.verb ∈ g.words) (hsub : (captures.map Capture.slot).Sublist g.slots)
    (hsub' : (captures'.map Capture.slot).Sublist g.slots)
    (hblank : ∀ c ∈ captures, Text.isBlankText c.word = false)
    (hblank' : ∀ c ∈ captures', Text.isBlankText c.word = false)
    (hflags : ∀ slot ∈ g.slots, flags.get? slot.name = none)
    (hheld : ∀ slot ∈ g.slots, slot.held? s head.verb (capturedWord? captures slot) =
      slot.held? s head.verb (capturedWord? captures' slot)) :
    arguments s head g captures flags = arguments s head g captures' flags := by
  refine NameMap.ext_get? fun name => ?_
  -- Under the name of a slot the assumption says so; under any other name the captures do not show.
  by_cases hname : name ∈ g.slots.map Slot.name
  · obtain ⟨slot, hslot, rfl⟩ := List.mem_map.1 hname
    rw [get?_arguments_slot hg hsub hblank hslot (hflags slot hslot),
      get?_arguments_slot hg hsub' hblank' hslot (hflags slot hslot), hheld slot hslot]
  · rw [get?_arguments_free hg hverb hsub hname, get?_arguments_free hg hverb hsub' hname]

/-- The platform's name for the window never replaces a value. -/
theorem get?_withAlias_of_held {a : WindowAlias} {args' : Arguments}
    (h : withAlias a args = .ok args') {v : Arg} (hv : args.get? name = some v)
    (hfilled : v.isEmpty = false) : args'.get? name = some v := by
  rcases withAlias_eq_ok.1 h with ⟨-, rfl⟩ | ⟨source, v', hsource, -, rfl⟩
  · exact hv
  -- Had the name been the window's own, it would have been present and nothing derived.
  · have hne : name ≠ a.name := by
      rintro rfl
      have hpresent : args.isAbsent a.name = false := by
        rw [isAbsent_eq, hv]
        exact hfilled
      unfold aliasSource? at hsource
      rw [hpresent] at hsource
      exact absurd hsource (by simp)
    rw [NameMap.get?_insert, if_neg hne, hv]

/-- With sources that hold nothing there is nothing to derive from. -/
theorem aliasSource?_of_sourceless {a : WindowAlias}
    (h : ∀ source ∈ a.sources, args.get? source = none) : aliasSource? a args = none := by
  have hnothing : (a.sources.filterMap fun name =>
      (args.get? name).filter fun v => !v.isEmpty && v ≠ .all) = [] := by
    refine List.filterMap_eq_nil_iff.2 fun source hmem => ?_
    rw [h source hmem]
    rfl
  unfold aliasSource?
  rw [hnothing, List.head?_nil, ite_self]

/-- Without anything to derive it from, no name for the window is added. -/
theorem withAlias_of_sourceless {a : WindowAlias}
    (h : ∀ source ∈ a.sources, args.get? source = none) : withAlias a args = .ok args := by
  rw [withAlias_eq_source, aliasSource?_of_sourceless h]

end Resolve

/-! ## Whole commands

The names that a command holds are listed as an inductive, one constructor per reason to hold
something. Completeness is then both directions: each reason is met by an argument, and each
argument has a reason. -/

namespace Slot

variable {s : Settings} {verb : String} {slot : Slot}

/-- A slot holds its captured word, unless it is an identifier that names everything. -/
theorem held?_some {word : String}
    (h : slot.kind = .identifier → Text.sameIgnoringCase word s.allAlias = false) :
    slot.held? s verb (some word) = some (slot.kind.argument word) := by
  unfold held?
  cases hkind : slot.kind with
  | identifier => simp [h hkind, SlotKind.argument]
  | _ => rfl

/-- When something is held for a slot. -/
theorem isSome_held? {word? : Option String} : (slot.held? s verb word?).isSome = true ↔
    slot.kind = .identifier ∨ slot.kind = .interval ∨ word?.isSome = true ∨
      (slot.kind = .threshold ∧ verb = "widgets-low-cpa") ∨
      (slot.kind = .limit ∧ (verb = "widgets-top" ∨ verb = "top-widgets")) := by
  unfold held?
  cases slot.kind <;> cases word? <;> simp

end Slot

namespace Command

/-- The names under which a command holds its arguments, by what was read off its line. -/
inductive HasArgument (head : Head) (given : Flag → List Arg) (g : Grammar)
    (captures : List Capture) (p : Platform) : String → Prop where
  | platform : HasArgument head given g captures p "platform"
  | command : HasArgument head given g captures p "command"
  | identifier {slot : Slot} (hslot : slot ∈ g.slots) (hkind : slot.kind = .identifier) :
    HasArgument head given g captures p slot.name
  | interval {slot : Slot} (hslot : slot ∈ g.slots) (hkind : slot.kind = .interval) :
    HasArgument head given g captures p slot.name
  | threshold (h : (∃ c ∈ captures, c.slot.name = "threshold") ∨ head.verb = "widgets-low-cpa") :
    HasArgument head given g captures p "threshold"
  | limit (h : (∃ c ∈ captures, c.slot.name = "filter_limit") ∨ head.verb = "widgets-top" ∨
      head.verb = "top-widgets") : HasArgument head given g captures p "filter_limit"
  /-- A flag that the command takes, if a value that is written for it stands for an argument. -/
  | flag {f : Flag} (hf : f ∈ g.flags) (hgiven : given f ≠ []) :
    HasArgument head given g captures p f.name
  /-- The platform's own name for the window, for every command that has a slot for an interval. -/
  | window {slot : Slot} (hslot : slot ∈ g.slots) (hkind : slot.kind = .interval) :
    HasArgument head given g captures p p.windowAlias.name

/-- The arguments of a command: everything that was read off its line, and nothing else. -/
structure IsComplete (s : Settings) (head : Head) (given : Flag → List Arg) (g : Grammar)
    (captures : List Capture) (c : Command) : Prop where
  keys : ∀ name, name ∈ c.args.keys ↔ HasArgument head given g captures c.platform name
  platform : c.args.get? "platform" = some (.text head.platform)
  command : c.args.get? "command" = some (.text head.verb)
  slots : ∀ slot ∈ g.slots,
    c.args.get? slot.name = slot.held? s head.verb (capturedWord? captures slot)
  flags : ∀ f ∈ g.flags, ∀ a, s.flagPolicy.choose? (given f) = some a →
    c.args.get? f.name = some a
  /-- Nothing replaces a captured word, unless it is an identifier that names everything. -/
  kept : ∀ capture ∈ captures, (capture.slot.kind = .identifier →
      Text.sameIgnoringCase capture.word s.allAlias = false) →
    c.args.get? capture.slot.name = some (capture.slot.kind.argument capture.word)

namespace IsResolved

variable {s : Settings} {head : Head} {cs rest : List Char} {g : Grammar} {captures : List Capture}
  {c : Command}

/-- The captures of a resolved line are in slots of its grammar, in order. -/
theorem sublist_slots {positionals : List String} {given : Flag → List Arg}
    (h : IsResolved s head positionals given g captures c) :
    g ∈ Grammar.all ∧ (captures.map Capture.slot).Sublist g.slots := by
  obtain ⟨hg, hfill⟩ := Grammar.choose?_eq_some h.grammar
  exact ⟨hg, (fill_eq_some hfill).1⟩

/-- Only the flags that the command takes are collected. -/
theorem get?_flags_of_ne {given : Flag → List Arg} {flags : Arguments}
    (hflags : Flag.collectAll g.flags s.flagPolicy given = .ok flags) {name : String}
    (h : ∀ f ∈ g.flags, name ≠ f.name) : flags.get? name = none :=
  Flag.get?_foldlM_collect_of_ne h hflags

/-- No name for a window is added to the arguments of a command that reads none. -/
theorem withAlias_unwindowed {given : Flag → List Arg} {flags : Arguments} (hg : g ∈ Grammar.all)
    (hw : g.windowed = false) (hverb : head.verb ∈ g.words)
    (hsub : (captures.map Capture.slot).Sublist g.slots)
    (hflags : Flag.collectAll g.flags s.flagPolicy given = .ok flags) (p : Platform) :
    Resolve.withAlias p.windowAlias (Resolve.arguments s head g captures flags) =
      .ok (Resolve.arguments s head g captures flags) := by
  refine Resolve.withAlias_of_sourceless fun source hsource => ?_
  -- The sources are names that nothing of this command is stored under.
  obtain ⟨hslots, hplatform, hcommand, hflag⟩ :=
    Grammar.source_free g hg hw p (by cases p <;> decide) source hsource
  rw [Resolve.get?_arguments_free hg hverb hsub hslots, if_neg hcommand, if_neg hplatform,
    get?_flags_of_ne hflags hflag]
  rfl

/-- A flag that the command takes is collected as the policy chooses. -/
theorem get?_flags {given : Flag → List Arg} {flags : Arguments}
    (hflags : Flag.collectAll g.flags s.flagPolicy given = .ok flags) {f : Flag}
    (hf : f ∈ g.flags) : flags.get? f.name = s.flagPolicy.choose? (given f) :=
  Flag.get?_foldlM_collect g.nodup_flags hf rfl hflags

theorem window_mem_reserved (p : Platform) : p.windowAlias.name ∈ Resolve.reserved := by
  cases p <;> decide

/-- A slot holds what its captured word, the verb and the settings tell, whatever words they were. -/
theorem get?_slot_of_filled {positionals : List String} {given : Flag → List Arg}
    (h : IsResolved s head positionals given g captures c)
    (hblank : ∀ word ∈ positionals, Text.isBlankText word = false) {slot : Slot}
    (hslot : slot ∈ g.slots) :
    c.args.get? slot.name = slot.held? s head.verb (capturedWord? captures slot) := by
  obtain ⟨flags, hflags, halias⟩ := h.args
  obtain ⟨hg, hfill⟩ := Grammar.choose?_eq_some h.grammar
  obtain ⟨-, -, hfree⟩ := Grammar.slot_name_free g hg slot hslot
  -- Neither the window's name nor a flag stores under a slot, so the slot's own steps are all there
  -- are.
  have hwindow : slot.name ≠ c.platform.windowAlias.name := fun heq =>
    hfree (heq ▸ window_mem_reserved c.platform)
  have hnone : flags.get? slot.name = none := get?_flags_of_ne hflags fun f _ heq =>
    hfree (heq ▸ f.mem_reserved)
  rw [Resolve.get?_withAlias_of_ne hwindow halias,
    Resolve.get?_arguments_slot hg (fill_eq_some hfill).1 (isBlankText_of_fill hblank hfill) hslot
      hnone]

/-- The same, of the words that a line offers. -/
theorem get?_slot (h : IsResolved s head (freeWords rest) (fun f => f.arguments cs) g captures c)
    {slot : Slot} (hslot : slot ∈ g.slots) :
    c.args.get? slot.name = slot.held? s head.verb (capturedWord? captures slot) :=
  h.get?_slot_of_filled (fun _ => isBlankText_of_mem_freeWords) hslot

/-- The words of the head are stored first, and stay. -/
theorem get?_head (h : IsResolved s head (freeWords rest) (fun f => f.arguments cs) g captures c) :
    c.args.get? "platform" = some (.text head.platform) ∧
      c.args.get? "command" = some (.text head.verb) := by
  obtain ⟨flags, -, halias⟩ := h.args
  obtain ⟨hg, hsub⟩ := h.sublist_slots
  have hverb := Grammar.mem_words_of_choose? h.grammar
  have hfree : ∀ name ∈ ["platform", "command"], name ∉ g.slots.map Slot.name ∧
      name ≠ c.platform.windowAlias.name := by
    intro name hname
    refine ⟨fun hmem => ?_, ?_⟩
    · obtain ⟨slot, hslot, rfl⟩ := List.mem_map.1 hmem
      obtain ⟨hplatform, hcommand, -⟩ := Grammar.slot_name_free g hg slot hslot
      simp [hplatform, hcommand] at hname
    · rintro rfl
      have hplain : ∀ p : Platform, p.windowAlias.name ∉ ["platform", "command"] := by
        intro p
        cases p <;> decide
      exact hplain c.platform hname
  -- Both names are free of slots and of the window.
  obtain ⟨hplatform, hcommand⟩ := List.forall_mem_cons.1 hfree
  obtain ⟨hcommand, -⟩ := List.forall_mem_cons.1 hcommand
  constructor
  · rw [Resolve.get?_withAlias_of_ne hplatform.2 halias,
      Resolve.get?_arguments_free hg hverb hsub hplatform.1]
    rfl
  · rw [Resolve.get?_withAlias_of_ne hcommand.2 halias,
      Resolve.get?_arguments_free hg hverb hsub hcommand.1]
    rfl

/-- A flag holds what the policy chooses, whatever name the platform keeps its window under. -/
theorem get?_flag (h : IsResolved s head (freeWords rest) (fun f => f.arguments cs) g captures c)
    {f : Flag} (hf : f ∈ g.flags) {a : Arg}
    (ha : s.flagPolicy.choose? (f.arguments cs) = some a) : c.args.get? f.name = some a := by
  obtain ⟨flags, hflags, halias⟩ := h.args
  obtain ⟨hg, hsub⟩ := h.sublist_slots
  have hheld : (Resolve.arguments s head g captures flags).get? f.name = some a := by
    rw [Resolve.get?_arguments_of_reserved hg hsub f.mem_reserved, get?_flags hflags hf]
    exact ha
  by_cases hname : f.name = c.platform.windowAlias.name
  · -- The tracker keeps its window under the name of a flag whose value is never empty.
    have htime : ∀ (p : Platform) (f : Flag), f.name = p.windowAlias.name → f = .timeRange := by
      intro p f
      cases p <;> cases f <;> decide
    obtain rfl := htime _ _ hname
    rw [Flag.arguments_eq_given] at ha
    obtain ⟨value, rfl, hwritten⟩ := Flag.exists_of_chosen?_timeRange ha
    refine Resolve.get?_withAlias_of_held halias hheld ?_
    exact (Text.isBlankText_asciiLower value).trans (Interval.isBlankText_of_isWritten hwritten)
  · rw [Resolve.get?_withAlias_of_ne hname halias, hheld]

/-- **A command that reads a window holds the platform's own name for it.** -/
theorem contains_window (hs : s.Valid)
    (h : IsResolved s head (freeWords rest) (fun f => f.arguments cs) g captures c)
    (hw : g.windowed = true) : (c.args.get? c.platform.windowAlias.name).isSome = true := by
  obtain ⟨flags, hflags, halias⟩ := h.args
  obtain ⟨hg, hfill⟩ := Grammar.choose?_eq_some h.grammar
  -- The flags of the text are those of its words.
  have hwords : flagArguments g.flags s.flagPolicy (Text.wordsOf cs) = .ok flags := by
    unfold flagArguments
    rw [← hflags]
    simp only [Flag.arguments_eq_given]
  have hin : (Timeframe.ofLine s (Text.wordsOf cs) captures).In (Resolve.arguments s
      (CommandLine.mk head []).toHead g captures flags) :=
    IsReading.in_arguments hs hg hw hfill hwords
  obtain ⟨name, -, hname⟩ := (holds_of_withAlias hin halias).param
  unfold Arguments.text? at hname
  obtain ⟨a, ha, -⟩ := Option.bind_eq_some_iff.1 hname
  rw [ha]
  rfl

/-- A captured word is found by its slot. -/
theorem capturedWord?_eq (hnodup : (captures.map Capture.slot).Nodup) {capture : Capture}
    (hmem : capture ∈ captures) : capturedWord? captures capture.slot = some capture.word := by
  unfold capturedWord?
  cases hfind : captures.find? fun c => c.slot = capture.slot with
  | none => exact absurd (decide_eq_true rfl) (List.find?_eq_none.1 hfind capture hmem)
  | some found =>
    have hfound := List.find?_some hfind
    have hsame : found = capture :=
      List.inj_on_of_nodup_map hnodup (List.mem_of_find?_eq_some hfind) hmem
        (of_decide_eq_true hfound)
    rw [hsame]
    rfl

/-- No slot is captured twice. -/
theorem nodup_captures {positionals : List String} {given : Flag → List Arg}
    (h : IsResolved s head positionals given g captures c) :
    (captures.map Capture.slot).Nodup := by
  obtain ⟨hg, hsub⟩ := h.sublist_slots
  exact hsub.nodup (.of_map _ (Grammar.nodup_slots g hg))

/-- What is held for a slot is one of the arguments that a command has. -/
theorem hasArgument_slot {positionals : List String} {given : Flag → List Arg}
    (h : IsResolved s head positionals given g captures c) {slot : Slot} (hslot : slot ∈ g.slots)
    (hheld : (slot.held? s head.verb (capturedWord? captures slot)).isSome = true) :
    HasArgument head given g captures c.platform slot.name := by
  obtain ⟨-, -, hthreshold, hlimit⟩ := Grammar.slot_facts g h.sublist_slots.1 slot hslot
  have hcaptured : (capturedWord? captures slot).isSome = true →
      ∃ capture ∈ captures, capture.slot.name = slot.name := by
    intro hsome
    obtain ⟨word, hword⟩ := Option.isSome_iff_exists.1 hsome
    obtain ⟨capture, hfind, -⟩ := Option.map_eq_some_iff.1 hword
    have hfound := List.find?_some hfind
    exact ⟨capture, List.mem_of_find?_eq_some hfind, by rw [of_decide_eq_true hfound]⟩
  -- Why the slot holds something is told by its kind.
  rw [Slot.isSome_held?] at hheld
  cases hkind : slot.kind with
  | identifier => exact .identifier hslot hkind
  | interval => exact .interval hslot hkind
  | threshold =>
    rw [(hthreshold hkind).2] at hcaptured ⊢
    have hwhy : (capturedWord? captures slot).isSome = true ∨ head.verb = "widgets-low-cpa" := by
      simpa [hkind] using hheld
    exact .threshold (hwhy.imp_left hcaptured)
  | limit =>
    rw [(hlimit hkind).2] at hcaptured ⊢
    have hwhy : (capturedWord? captures slot).isSome = true ∨ head.verb = "widgets-top" ∨
        head.verb = "top-widgets" := by
      simpa [hkind] using hheld
    exact .limit (hwhy.imp_left hcaptured)

/-- **A command has no arguments but those that were read off its line.** -/
theorem hasArgument_of_isSome
    (h : IsResolved s head (freeWords rest) (fun f => f.arguments cs) g captures c) {name : String}
    (hname : (c.args.get? name).isSome = true) :
    HasArgument head (fun f => f.arguments cs) g captures c.platform name := by
  obtain ⟨flags, hflags, halias⟩ := h.args
  obtain ⟨hg, hsub⟩ := h.sublist_slots
  have hverb := Grammar.mem_words_of_choose? h.grammar
  by_cases hslot : name ∈ g.slots.map Slot.name
  · obtain ⟨slot, hmem, rfl⟩ := List.mem_map.1 hslot
    rw [h.get?_slot hmem] at hname
    exact h.hasArgument_slot hmem hname
  by_cases hwindow : name = c.platform.windowAlias.name ∧ g.windowed = true
  · obtain ⟨rfl, hw⟩ := hwindow
    exact .window (by rw [(Grammar.slots_windowed g hg hw).1]; simp)
      (show Grammar.interval.kind = .interval from rfl)
  -- No name for the window is added here, so the name was held before.
  have hsame : c.args.get? name = (Resolve.arguments s head g captures flags).get? name := by
    by_cases halias' : name = c.platform.windowAlias.name
    · have hw : g.windowed = false := by simpa [halias'] using hwindow
      rw [withAlias_unwindowed hg hw hverb hsub hflags] at halias
      rw [Except.ok.inj halias]
    · exact Resolve.get?_withAlias_of_ne halias' halias
  -- A name that is no slot's is one of the head's, or was given by a flag.
  rw [hsame, Resolve.get?_arguments_free hg hverb hsub hslot] at hname
  split at hname
  · next heq => exact heq ▸ .command
  · split at hname
    · next heq => exact heq ▸ .platform
    · rw [Option.none_or] at hname
      by_cases hflag : ∃ f ∈ g.flags, name = f.name
      · obtain ⟨f, hf, rfl⟩ := hflag
        rw [get?_flags hflags hf, FlagPolicy.isSome_choose?] at hname
        exact .flag hf hname
      · rw [get?_flags_of_ne hflags fun f hf heq => hflag ⟨f, hf, heq⟩] at hname
        exact absurd hname (by simp)

/-- **And each of those is held**, by the reason for which it is listed. -/
theorem isSome_of_hasArgument (hs : s.Valid)
    (h : IsResolved s head (freeWords rest) (fun f => f.arguments cs) g captures c) {name : String}
    (hname : HasArgument head (fun f => f.arguments cs) g captures c.platform name) :
    (c.args.get? name).isSome = true := by
  obtain ⟨hg, hsub⟩ := h.sublist_slots
  have hverb := Grammar.mem_words_of_choose? h.grammar
  -- The slot of a captured word, and the slot that a verb with a fallback has.
  have hcaptured : ∀ capture ∈ captures, (c.args.get? capture.slot.name).isSome = true := by
    intro capture hmem
    rw [h.get?_slot (hsub.subset (List.mem_map_of_mem hmem)), Slot.isSome_held?,
      capturedWord?_eq h.nodup_captures hmem]
    simp
  have hrule : ∀ rule ∈ VerbFallback.all, rule.words.contains head.verb = true →
      ∃ slot ∈ g.slots, slot.name = rule.argument := fun rule hrule hword =>
    List.mem_map.1 (Grammar.rule_slot g hg rule hrule head.verb hverb hword)
  cases hname with
  | platform => rw [h.get?_head.1]; rfl
  | command => rw [h.get?_head.2]; rfl
  | identifier hslot hkind => rw [h.get?_slot hslot, Slot.isSome_held?]; exact .inl hkind
  | interval hslot hkind => rw [h.get?_slot hslot, Slot.isSome_held?]; exact .inr (.inl hkind)
  -- A threshold is held for its word, or for the verb that brings it along.
  | threshold hwhy =>
    rcases hwhy with ⟨capture, hmem, hname⟩ | hword
    · rw [← hname]
      exact hcaptured capture hmem
    · obtain ⟨slot, hslot, hname⟩ := hrule ⟨"threshold", .lowCpaThreshold, ["widgets-low-cpa"]⟩
        (by decide) (by simp [hword])
      have hkind := (Grammar.slot_kind g hg slot hslot).1 hname
      rw [← show slot.name = "threshold" from hname, h.get?_slot hslot, Slot.isSome_held?]
      exact .inr (.inr (.inr (.inl ⟨hkind, hword⟩)))
  | limit hwhy =>
    rcases hwhy with ⟨capture, hmem, hname⟩ | hword
    · rw [← hname]
      exact hcaptured capture hmem
    · obtain ⟨slot, hslot, hname⟩ := hrule
        ⟨"filter_limit", .filterNumber, ["widgets-top", "top-widgets"]⟩ (by decide)
        (by simpa using hword)
      have hkind := (Grammar.slot_kind g hg slot hslot).2.1 hname
      rw [← show slot.name = "filter_limit" from hname, h.get?_slot hslot, Slot.isSome_held?]
      exact .inr (.inr (.inr (.inr ⟨hkind, hword⟩)))
  | @flag f hf hgiven =>
    obtain ⟨a, ha⟩ := Option.isSome_iff_exists.1 ((FlagPolicy.isSome_choose? s.flagPolicy).2 hgiven)
    rw [h.get?_flag hf ha]
    rfl
  | window hslot hkind =>
    exact h.contains_window hs ((Grammar.slot_kind g hg _ hslot).2.2 hkind)

/-- **The arguments of a resolved command are complete.** -/
theorem isComplete (hs : s.Valid)
    (h : IsResolved s head (freeWords rest) (fun f => f.arguments cs) g captures c) :
    c.IsComplete s head (fun f => f.arguments cs) g captures where
  keys name := by
    rw [NameMap.mem_keys_iff]
    exact ⟨h.hasArgument_of_isSome, h.isSome_of_hasArgument hs⟩
  platform := h.get?_head.1
  command := h.get?_head.2
  slots slot hslot := h.get?_slot hslot
  flags f hf a ha := h.get?_flag hf ha
  kept capture hmem hall := by
    rw [h.get?_slot (h.sublist_slots.2.subset (List.mem_map_of_mem hmem)),
      capturedWord?_eq h.nodup_captures hmem, Slot.held?_some hall]

end IsResolved

end Command

/-- **The arguments of an accepted line are complete**: it holds its head, its slots, its flags and
its window, each with the value that it has by itself, and nothing else. -/
theorem Bot.parse_complete (b : Bot) {text : String} {c : Command} (h : b.parse text = .ok c) :
    ∃ head rest g captures, Head.read? text.toList = some (head, rest) ∧
      Command.IsResolved b.settings head (freeWords rest) (fun f => f.arguments text.toList) g
        captures c ∧
      c.IsComplete b.settings head (fun f => f.arguments text.toList) g captures := by
  unfold parse Command.parse at h
  split at h
  · next head rest hhead =>
    -- The line has a head, and what is behind it was resolved.
    obtain ⟨g, captures, hresolved⟩ := Command.exists_isResolved h
    exact ⟨head, rest, g, captures, hhead, hresolved, hresolved.isComplete b.valid⟩
  · exact absurd h (throw_ne_ok _ _)

/-! A word for "all", an interval in capitals, a verb that brings its threshold along and two flags.
-/

theorem Bot.parse_complete_low :
    ∃ (c : Command) (head : Head) (given : Flag → List Arg) (g : Grammar) (captures : List Capture),
      c.IsComplete {} head given g captures ∧ captures.map Capture.word = ["ALL", "7D"] ∧
        c.args.keys = ["campaign_id", "command", "fields", "interval", "limit", "platform",
          "threshold", "time_interval"] := by
  let b : Bot := ⟨{}, Settings.valid_default⟩
  let text := "/zp Widgets-Low-CPA ALL 7D /fields:id /limit 3"
  have hkeys : (b.parse text).toOption.map (·.args.keys) = some ["campaign_id", "command", "fields",
      "interval", "limit", "platform", "threshold", "time_interval"] := by
    decide +kernel
  obtain ⟨c, hread, hheld⟩ := Option.map_eq_some_iff.1 hkeys
  obtain ⟨head, rest, g, captures, hhead, hresolved, hcomplete⟩ :=
    b.parse_complete (toOption_eq_some_iff.1 hread)
  refine ⟨c, head, _, g, captures, hcomplete, ?_, hheld⟩
  have hrest : (Head.read? text.toList).map (freeWords ·.2) = some ["ALL", "7D"] := by
    decide +kernel
  rw [hhead] at hrest
  rw [map_word_of_fill (Grammar.choose?_eq_some hresolved.grammar).2]
  exact Option.some.inj hrest

/-- The default interval is held in small letters, whatever letters it is configured in. And a flag
that the command takes is not held if its value is written as it should be, but stands for none: the
number here is past the greatest 64-bit integer. -/
theorem Bot.default_lowered_and_flag_unread :
    (∃ b : Bot, b.settings.defaultTimeInterval = "7D" ∧
      ∃ c, b.parse "/mgid stats" = .ok c ∧ c.args.get? "time_interval" = some (.text "7d") ∧
        c.args.get? "time_interval" ≠ some (.text "7D")) ∧
    ∃ b : Bot, ∃ c, b.parse "/mgid list /limit:99999999999999999999" = .ok c ∧
      (Flag.limit.occurrences "/mgid list /limit:99999999999999999999".toList).map
        Occurrence.value = ["99999999999999999999"] ∧
      (∀ g ∈ Grammar.all, Flag.limit ∈ g.flags) ∧ "limit" ∉ c.args.keys := by
  constructor
  · let b : Bot := ⟨{ defaultTimeInterval := "7D" }, by decide⟩
    have hheld : (b.parse "/mgid stats").toOption.bind (·.args.get? "time_interval") =
        some (.text "7d") := by
      decide +kernel
    obtain ⟨c, hread, hget⟩ := Option.bind_eq_some_iff.1 hheld
    exact ⟨b, rfl, c, toOption_eq_some_iff.1 hread, hget, by rw [hget]; simp⟩
  · let b : Bot := ⟨{}, Settings.valid_default⟩
    have hkeys : (b.parse "/mgid list /limit:99999999999999999999").toOption.map (·.args.keys) =
        some ["campaign_id", "command", "platform"] := by
      decide +kernel
    obtain ⟨c, hread, hheld⟩ := Option.map_eq_some_iff.1 hkeys
    exact ⟨b, c, toOption_eq_some_iff.1 hread, by decide +kernel, by decide,
      by rw [hheld]; decide⟩

end AdOps
