import AdOps.Proofs.CommandLine.Complete

/-!
# Synonyms in the head of a line

A platform has two words, some verbs have two as well, and both are read in any letter case. Which
of the words is typed is recorded with the command and is of no other consequence: no word of a head
is a flag, synonyms lead to the same grammars, and a fallback that one word for a verb brings along
is brought along by its synonyms.

* **`choose?_synonym`** — synonyms fill the same grammar.
* **`arguments_agree`** — the arguments of the line differ in the words of the head only.
* **`parse_alike`** — lines with synonyms in the head stand for commands that are alike.
-/

namespace AdOps

/-! ## Words in any letter case

The words of a head are compared in small ASCII letters. Below, a typed word is told by the small
letters that it comes to: its characters are letters, and none of them is folded to anything else.
-/

namespace Text

/-- What is made a small letter is a letter. -/
theorem isLetter_of_toLower {c : Char} (h : c.toLower.isLower = true) : isLetter c = true := by
  unfold isLetter fold
  split
  · decide
  · split
    · decide
    · exact h

/-- Of the letters of ASCII the folded form is the small one. -/
theorem fold_eq_toLower {c : Char} (h : c.toLower.isLower = true) : fold c = c.toLower := by
  -- The two letters that are folded otherwise have no small letter in ASCII.
  unfold fold
  split
  · next heq => exact absurd h (by rw [heq]; decide)
  · split
    · next heq => exact absurd h (by rw [heq]; decide)
    · rfl

/-- Only a letter is changed when it is made small, so any other character stands for itself. -/
theorem eq_of_toLower_eq {c d : Char} (hd : d.toNat < 97) (h : c.toLower = d) : c = d := by
  rcases toLower_cases c with ⟨hlow, -, hsmall⟩ | ⟨-, hsame⟩
  · rw [h] at hsmall
    omega
  · exact hsame.symm.trans h

/-- The characters of a text, made small, are those of the text in small letters. -/
theorem toLower_mem_of_asciiLower {s t : String} (h : asciiLower s = t) {c : Char}
    (hc : c ∈ s.toList) : c.toLower ∈ t.toList := by
  rw [← h, asciiLower, String.toList_ofList]
  exact List.mem_map_of_mem hc

end Text

/-! ## The words of a head

That the tables are well made is decided once for each of them: the words are letters, no word is
the name of a flag, and whatever depends on the word for a verb treats its synonyms alike. All else
is derived from these facts. -/

namespace Platform

/-- Words for platforms are small letters, each names one platform, and none is a flag. -/
theorem tokens_facts : ∀ p ∈ all, ∀ token ∈ p.tokens,
    token ≠ "" ∧ token.toList.all Char.isLower = true ∧ ofToken? token = some p ∧
      ∀ f ∈ Flag.all, token ∉ f.spellings := by
  decide

variable {p : Platform} {name : String}

/-- What is typed for a platform consists of letters. -/
theorem isLower_of_mem_tokens (h : Text.asciiLower name ∈ p.tokens) {c : Char}
    (hc : c ∈ name.toList) : c.toLower.isLower = true :=
  List.all_eq_true.1 (tokens_facts p (by cases p <;> decide) _ h).2.1 _
    (Text.toLower_mem_of_asciiLower rfl hc)

/-- A word for a platform behind a slash addresses it. -/
theorem platformWord?_token (h : Text.asciiLower name ∈ p.tokens) :
    CommandLine.platformWord? ("/" ++ name) = some name := by
  -- No platform is addressed by an empty word.
  have hne : name.toList ≠ [] := by
    intro hnil
    obtain ⟨hempty, -⟩ := tokens_facts p (by cases p <;> decide) _ h
    exact hempty (by rw [Text.asciiLower, hnil]; rfl)
  have hall : name.toList.all Head.isPlatformChar = true :=
    List.all_eq_true.2 fun c hc => by
      rw [Head.isPlatformChar, Text.isLetter_of_toLower (isLower_of_mem_tokens h hc)]
      rfl
  unfold CommandLine.platformWord?
  rw [show ("/" ++ name).toList = '/' :: name.toList by simp [String.toList_append]]
  show (if (!name.toList.isEmpty && name.toList.all Head.isPlatformChar) = true then
    some (String.ofList name.toList) else none) = some name
  rw [if_pos (Bool.and_eq_true_iff.2 ⟨by simpa using hne, hall⟩), String.ofList_toList]

/-- No word for a platform is a flag. -/
theorem roleOf_token (h : Text.asciiLower name ∈ p.tokens) (f : Flag) (next : Option String) :
    f.roleOf ("/" ++ name) next = .outside := by
  have hfold : name.toList.map Text.fold = (Text.asciiLower name).toList := by
    rw [Text.asciiLower, String.toList_ofList]
    exact List.map_congr_left fun c hc => Text.fold_eq_toLower (isLower_of_mem_tokens h hc)
  -- Were it spelled as a flag, then in small letters it would be one of the flag's names.
  have hspelled : f.isSpelled name.toList = false := by
    refine Bool.eq_false_iff.2 fun hspelled => ?_
    obtain ⟨word, hword, heq⟩ := Flag.isSpelled_iff.1 hspelled
    obtain rfl : Text.asciiLower name = word := String.toList_inj.1 (hfold.symm.trans heq)
    exact (tokens_facts p (by cases p <;> decide) _ h).2.2.2 f f.mem_all hword
  -- Letters only, so no value stands behind a colon.
  have hcolon : name.toList.takeWhile (· ≠ ':') = name.toList := by
    refine List.takeWhile_eq_self_iff.2 fun c hc => decide_eq_true ?_
    rintro rfl
    exact absurd (isLower_of_mem_tokens h hc) (by decide)
  unfold Flag.roleOf
  rw [show ("/" ++ name).toList = '/' :: name.toList by simp [String.toList_append]]
  simp only [Flag.unmark, hcolon, hspelled]
  simp

end Platform

namespace Grammar

/-- Words for verbs begin with a letter and hold letters and hyphens. -/
theorem words_facts : ∀ g ∈ all, ∀ word ∈ g.words,
    word ≠ "" ∧ word.toList.head?.all Char.isLower = true ∧
      word.toList.all (fun c => c.isLower || c == '-') = true := by
  decide

/-- Synonyms are words of the same grammars and bring the same fallbacks along. -/
theorem synonyms_facts : ∀ g ∈ all, ∀ verb₁ ∈ g.words, ∀ verb₂ ∈ g.words,
    (∀ g' ∈ all, g'.words.contains verb₁ = g'.words.contains verb₂) ∧
    ∀ rule ∈ VerbFallback.all, verb₁ ∈ rule.words ↔ verb₂ ∈ rule.words := by
  decide

variable {g : Grammar} {verb verb₁ verb₂ : String}

/-- What is typed for a verb has the form of a verb. -/
theorem isVerbWord_of_mem_words (hg : g ∈ all) (h : Text.asciiLower verb ∈ g.words) :
    CommandLine.isVerbWord verb = true := by
  obtain ⟨hne, hhead, hall⟩ := words_facts g hg _ h
  have hlist : (Text.asciiLower verb).toList = verb.toList.map Char.toLower := by
    rw [Text.asciiLower, String.toList_ofList]
  -- A hyphen is typed as a hyphen, for no other character becomes one in small letters.
  have hchar : ∀ c ∈ verb.toList, Head.isVerbChar c = true := by
    intro c hc
    unfold Head.isVerbChar
    have hlisted := List.all_eq_true.1 hall _ (Text.toLower_mem_of_asciiLower rfl hc)
    rcases (Bool.or_eq_true_iff.1 hlisted).imp_right eq_of_beq with hlower | hhyphen
    · rw [Text.isLetter_of_toLower hlower]
      rfl
    · rw [Text.eq_of_toLower_eq (by decide) hhyphen]
      rfl
  unfold CommandLine.isVerbWord
  rw [hlist] at hhead
  split
  · next hnil => exact absurd (by rw [Text.asciiLower, hnil]; rfl) hne
  · next c cs hcons =>
    rw [hcons] at hhead hchar
    rw [Text.isLetter_of_toLower hhead, Bool.true_and]
    exact List.all_eq_true.2 fun d hd => hchar d (List.mem_cons_of_mem _ hd)

/-- **Synonyms fill the same grammar.** -/
theorem choose?_synonym (hg : g ∈ all) (h₁ : verb₁ ∈ g.words) (h₂ : verb₂ ∈ g.words)
    (s : Settings) (positionals : List String) :
    choose? s verb₁ positionals = choose? s verb₂ positionals := by
  unfold choose?
  rw [List.filter_congr (synonyms_facts g hg verb₁ h₁ verb₂ h₂).1]

end Grammar

/-! ## Lines with synonyms in the head

Two lines differ in their heads only. Their positional words and flags are the same, since a head is
no part of either; the grammar is the same, since synonyms are words of the same grammars; and the
arguments differ in the two that record the head. -/

/-- The head of a line of words: what is typed for its platform and its verb. -/
structure Head.IsTyped (p : Platform) (g : Grammar) (name verb : String) : Prop where
  platform : Text.asciiLower name ∈ p.tokens
  verb : Text.asciiLower verb ∈ g.words

namespace Head.IsTyped

variable {p : Platform} {g : Grammar} {name verb : String}

/-- The head of a line is read off its first two words. -/
theorem ofWords? (hg : g ∈ Grammar.all) (h : IsTyped p g name verb) (rest : List String) :
    CommandLine.ofWords? (("/" ++ name) :: verb :: rest) =
      some ⟨⟨Text.asciiLower name, Text.asciiLower verb⟩, rest⟩ := by
  simp [CommandLine.ofWords?, Platform.platformWord?_token h.platform,
    Grammar.isVerbWord_of_mem_words hg h.verb]

/-- The flags of a line are those behind its head. -/
theorem given (hg : g ∈ Grammar.all) (h : IsTyped p g name verb) (f : Flag) (rest : List String) :
    f.given (("/" ++ name) :: verb :: rest) = f.given rest := by
  have hverb := CommandLine.unmark_of_isVerbWord (Grammar.isVerbWord_of_mem_words hg h.verb)
  -- Neither the platform nor the verb belongs to a flag, and neither keeps a flag open for the word
  -- behind it.
  have hfirst : f.Splits ["/" ++ name] ([verb] ++ rest) := (Flag.closed_of_roles
    (Flag.roles_single (Platform.roleOf_token h.platform f) (by simp))).1 _
  have hroles : f.roles ["/" ++ name] = [.outside] := (Flag.closed_of_roles
    (Flag.roles_single (Platform.roleOf_token h.platform f) (by simp))).2
  show f.given (["/" ++ name] ++ ([verb] ++ rest)) = f.given rest
  rw [Flag.given_append hfirst, Flag.given_append (Flag.Closed.plain hverb _)]
  unfold Flag.given
  rw [hroles, Flag.roles_plain hverb]
  rfl

end Head.IsTyped

namespace Resolve

/-- The arguments agree but for the words of the head. -/
def Agree (args₁ args₂ : Arguments) : Prop :=
  ∀ name, name ≠ "platform" → name ≠ "command" → args₁.get? name = args₂.get? name

variable {s : Settings} {g : Grammar} {captures : List Capture} {flags : Arguments}
  {head₁ head₂ : Head}

/-- A slot holds the same under synonyms, the fallbacks of single words included. -/
theorem held?_synonym (hg : g ∈ Grammar.all) {verb₁ verb₂ : String} (h₁ : verb₁ ∈ g.words)
    (h₂ : verb₂ ∈ g.words) (slot : Slot) (word? : Option String) :
    slot.held? s verb₁ word? = slot.held? s verb₂ word? := by
  obtain ⟨-, hrules⟩ := Grammar.synonyms_facts g hg verb₁ h₁ verb₂ h₂
  -- The two slots with fallbacks of their own: the words that bring these along are closed under
  -- synonyms.
  have hthreshold : verb₁ = "widgets-low-cpa" ↔ verb₂ = "widgets-low-cpa" := by
    simpa only [List.mem_singleton] using
      hrules ⟨"threshold", .lowCpaThreshold, ["widgets-low-cpa"]⟩ (by decide)
  have hlimit : (verb₁ = "widgets-top" ∨ verb₁ = "top-widgets") ↔
      (verb₂ = "widgets-top" ∨ verb₂ = "top-widgets") := by
    simpa only [List.mem_cons, List.not_mem_nil, or_false] using
      hrules ⟨"filter_limit", .filterNumber, ["widgets-top", "top-widgets"]⟩ (by decide)
  unfold Slot.held?
  simp only [hthreshold, hlimit]

/-- **Synonyms in the head** change the arguments of a line in the words of the head only. -/
theorem arguments_agree (hg : g ∈ Grammar.all) (h₁ : head₁.verb ∈ g.words)
    (h₂ : head₂.verb ∈ g.words) (hsub : (captures.map Capture.slot).Sublist g.slots)
    (hblank : ∀ c ∈ captures, Text.isBlankText c.word = false)
    (hflags : ∀ slot ∈ g.slots, flags.get? slot.name = none) :
    Agree (arguments s head₁ g captures flags) (arguments s head₂ g captures flags) := by
  intro name hplatform hcommand
  -- A name is one of a slot, or it is none and then the head or the flags decide what it holds.
  by_cases hslot : name ∈ g.slots.map Slot.name
  · obtain ⟨slot, hmem, rfl⟩ := List.mem_map.1 hslot
    rw [get?_arguments_slot hg hsub hblank hmem (hflags slot hmem),
      get?_arguments_slot hg hsub hblank hmem (hflags slot hmem), held?_synonym hg h₁ h₂]
  · rw [get?_arguments_free hg h₁ hsub hslot, get?_arguments_free hg h₂ hsub hslot,
      if_neg hcommand, if_neg hplatform, if_neg hcommand, if_neg hplatform]

/-- Whatever the grammar is that the positional words fill, it is a grammar of both synonyms. -/
theorem arguments_synonyms (hg : g ∈ Grammar.all) {verb₁ verb₂ : String} (h₁ : verb₁ ∈ g.words)
    (h₂ : verb₂ ∈ g.words) {positionals : List String} {g' : Grammar}
    (hchoose : Grammar.choose? s verb₂ positionals = some (g', captures))
    (hwords : ∀ word ∈ positionals, Text.isBlankText word = false) {given : Flag → List Arg}
    (hflags : Flag.collectAll g'.flags s.flagPolicy given = .ok flags) (head₁ head₂ : Head)
    (hhead₁ : head₁.verb = verb₁) (hhead₂ : head₂.verb = verb₂) :
    Agree (arguments s head₁ g' captures flags) (arguments s head₂ g' captures flags) := by
  obtain ⟨hg', hfill⟩ := Grammar.choose?_eq_some hchoose
  have hverb₂ := Grammar.mem_words_of_choose? hchoose
  have hverb₁ : verb₁ ∈ g'.words := by
    have hsame := (Grammar.synonyms_facts g hg verb₁ h₁ verb₂ h₂).1 g' hg'
    rw [List.contains_iff_mem.2 hverb₂] at hsame
    exact List.contains_iff_mem.1 hsame
  refine arguments_agree hg' (hhead₁ ▸ hverb₁) (hhead₂ ▸ hverb₂) (fill_eq_some hfill).1
    (isBlankText_of_fill hwords hfill) fun slot hslot => ?_
  obtain ⟨-, -, hfree⟩ := Grammar.slot_name_free g' hg' slot hslot
  -- The flags are put in first, and no flag has the name of a slot.
  have hne : ∀ f ∈ g'.flags, slot.name ≠ f.name := fun f _ heq => hfree (heq ▸ f.mem_reserved)
  exact Flag.get?_foldlM_collect_of_ne hne hflags

/-- No platform derives its name for the window from the words of the head. -/
theorem windowAlias_head : ∀ p ∈ Platform.all, ∀ name ∈ p.windowAlias.name :: p.windowAlias.sources,
    name ≠ "platform" ∧ name ≠ "command" := by
  decide

/-- The window is taken from the same argument. -/
theorem aliasSource?_agree {args₁ args₂ : Arguments} (h : Agree args₁ args₂) (p : Platform) :
    aliasSource? p.windowAlias args₁ = aliasSource? p.windowAlias args₂ := by
  have hget : ∀ name ∈ p.windowAlias.name :: p.windowAlias.sources,
      args₁.get? name = args₂.get? name := by
    intro name hname
    obtain ⟨hplatform, hcommand⟩ := windowAlias_head p (by cases p <;> decide) name hname
    exact h name hplatform hcommand
  obtain ⟨hname, hsources⟩ := List.forall_mem_cons.1 hget
  unfold aliasSource? Arguments.isAbsent
  rw [hname, List.filterMap_congr fun source hsource => by rw [hsources source hsource]]

/-- Arguments that agree do so with one more that is the same. -/
theorem Agree.insert {args₁ args₂ : Arguments} (h : Agree args₁ args₂) (name : String) (v : Arg) :
    Agree (args₁.insert name v) (args₂.insert name v) := by
  intro other hplatform hcommand
  rw [NameMap.get?_insert, NameMap.get?_insert, h other hplatform hcommand]

/-- The platform's name for the window is derived alike, or fails alike. -/
theorem withAlias_agree {args₁ args₂ : Arguments} (h : Agree args₁ args₂) (p : Platform) :
    (∃ e, withAlias p.windowAlias args₁ = .error e ∧ withAlias p.windowAlias args₂ = .error e) ∨
      ∃ args₁' args₂', withAlias p.windowAlias args₁ = .ok args₁' ∧
        withAlias p.windowAlias args₂ = .ok args₂' ∧ Agree args₁' args₂' := by
  rw [withAlias_eq_source, withAlias_eq_source, aliasSource?_agree h]
  cases aliasSource? p.windowAlias args₂ with
  | none => exact .inr ⟨args₁, args₂, rfl, rfl, h⟩
  | some v =>
    cases hv : p.windowAlias.transform v with
    | error e => exact .inl ⟨e, by simp [hv, Except.map], by simp [hv, Except.map]⟩
    | ok v' =>
      exact .inr ⟨_, _, by simp only [hv]; rfl, by simp only [hv]; rfl, h.insert _ v'⟩

end Resolve

namespace Command

/-- Both stand for a command for one platform, of one verb and by one grammar, with arguments that
agree but for the words of the head; or both fail with failures of one kind. -/
inductive Alike : Except Failure Command → Except Failure Command → Prop where
  | command {c₁ c₂ : Command} (platform : c₁.platform = c₂.platform) (verb : c₁.verb = c₂.verb)
    (grammar : c₁.grammar = c₂.grammar) (args : Resolve.Agree c₁.args c₂.args) :
    Alike (.ok c₁) (.ok c₂)
  | failure {e₁ e₂ : Failure} (h : e₁.kind = e₂.kind) : Alike (.error e₁) (.error e₂)

variable {s : Settings} {p : Platform} {g : Grammar} {name₁ verb₁ name₂ verb₂ : String}
  {invalid₁ invalid₂ : Failure}

/-- **Synonyms in the head** lead to commands that are alike. -/
theorem resolve_alike (hg : g ∈ Grammar.all) (h₁ : Head.IsTyped p g name₁ verb₁)
    (h₂ : Head.IsTyped p g name₂ verb₂) (hinvalid : invalid₁.kind = invalid₂.kind)
    {positionals : List String} (hwords : ∀ word ∈ positionals, Text.isBlankText word = false)
    (given : Flag → List Arg) :
    Alike (resolve s invalid₁ ⟨Text.asciiLower name₁, Text.asciiLower verb₁⟩ positionals given)
      (resolve s invalid₂ ⟨Text.asciiLower name₂, Text.asciiLower verb₂⟩ positionals given) := by
  have hplatform : ∀ {name}, Text.asciiLower name ∈ p.tokens →
      Platform.ofToken? (Text.asciiLower name) = some p := fun h =>
    (Platform.tokens_facts p (by cases p <;> decide) _ h).2.2.1
  unfold resolve
  simp only [Grammar.choose?_synonym hg h₁.verb h₂.verb, hplatform h₁.platform,
    hplatform h₂.platform]
  cases hchoose : Grammar.choose? s (Text.asciiLower verb₂) positionals with
  | none => exact .failure hinvalid
  | some found =>
    obtain ⟨g', captures⟩ := found
    simp only
    cases hflags : Flag.collectAll g'.flags s.flagPolicy given with
    | error e => exact .failure rfl
    | ok flags =>
      simp only [bind, Except.bind]
      -- From here on the two lines differ in their arguments only.
      by_cases hserves : p.serves g'.verb = true
      · have hagree := Resolve.withAlias_agree (Resolve.arguments_synonyms hg h₁.verb h₂.verb hchoose
          hwords hflags ⟨Text.asciiLower name₁, Text.asciiLower verb₁⟩
          ⟨Text.asciiLower name₂, Text.asciiLower verb₂⟩ rfl rfl) p
        simp only [hserves]
        rcases hagree with ⟨e, he₁, he₂⟩ | ⟨args₁, args₂, hok₁, hok₂, hargs⟩
        · simp only [he₁, he₂]
          exact .failure rfl
        · simp only [hok₁, hok₂]
          exact .command rfl rfl rfl hargs
      · simp only [hserves]
        exact .failure hinvalid

/-- A line is read off its head and the words behind it. -/
theorem parse_typed (hg : g ∈ Grammar.all) (h : Head.IsTyped p g name₁ verb₁) {text : String}
    {rest : List String} (hwords : Text.words text = ("/" ++ name₁) :: verb₁ :: rest) :
    parse s text = resolve s (.invalidCommand (Text.trim text))
      ⟨Text.asciiLower name₁, Text.asciiLower verb₁⟩ (CommandLine.positionals rest)
      fun f => f.given rest := by
  rw [parse_eq_ofWords, hwords]
  unfold ofWords
  rw [h.ofWords? hg]
  simp only [h.given hg]

/-- **Lines with synonyms in the head** are parsed alike: both fail with failures of one kind, or
both stand for commands that differ in the words of the head only. -/
theorem parse_alike (hg : g ∈ Grammar.all) (h₁ : Head.IsTyped p g name₁ verb₁)
    (h₂ : Head.IsTyped p g name₂ verb₂) {text₁ text₂ : String} {rest : List String}
    (hwords₁ : Text.words text₁ = ("/" ++ name₁) :: verb₁ :: rest)
    (hwords₂ : Text.words text₂ = ("/" ++ name₂) :: verb₂ :: rest) :
    Alike (parse s text₁) (parse s text₂) := by
  -- Positional words are words of the line, so none of them is blank.
  have hblank : ∀ word ∈ CommandLine.positionals rest, Text.isBlankText word = false := by
    intro word hword
    have hmem : word ∈ Text.words text₁ := by
      rw [hwords₁]
      exact List.mem_cons_of_mem _ (List.mem_cons_of_mem _ (CommandLine.mem_of_mem_positionals hword))
    exact Text.isBlankText_of_mem_wordsOf hmem
  have hkind : (Failure.invalidCommand (Text.trim text₁)).kind =
      (Failure.invalidCommand (Text.trim text₂)).kind := rfl
  rw [parse_typed hg h₁ hwords₁, parse_typed hg h₂ hwords₂]
  exact resolve_alike hg h₁ h₂ hkind hblank _

end Command

end AdOps
