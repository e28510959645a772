import AdOps.Proofs.CommandLine.Words

/-!
# What the reading of a line depends on

A line of words is read in two passes: the positional words behind the verb fill the slots of a
grammar, and the flags are looked for over the whole line. Nothing else of the line counts. Two
lines whose heads, positional words and given flags are the same are read alike, up to the text that
a failure quotes. Of the settings, those that only matter later do not count either.

* **`ofWords_sameReading`** — lines with the same head, positional words and flags are read alike.
* **`parse_congr`** — settings that agree on the command language read every line alike.
-/

namespace AdOps

namespace Command

/-- Both give one command, or both fail with failures of one kind. -/
inductive SameReading : Except Failure Command → Except Failure Command → Prop where
  | command (c : Command) : SameReading (.ok c) (.ok c)
  | failure {e₁ e₂ : Failure} (h : e₁.kind = e₂.kind) : SameReading (.error e₁) (.error e₂)

/-- Every reading is the same as itself. -/
theorem SameReading.refl (r : Except Failure Command) : SameReading r r := by
  cases r with
  | ok c => exact .command c
  | error e => exact .failure rfl

end Command

namespace Command

variable {s : Settings} {invalid₁ invalid₂ : Failure}

/-- Without a head a line is invalid. -/
theorem ofWords_headless {invalid : Failure} {words : List String}
    (h : CommandLine.ofWords? words = none) : ofWords s invalid words = .error invalid := by
  unfold ofWords
  rw [h]
  rfl

/-- What a line stands for depends on what is reported for an invalid line only in that it is
reported. -/
theorem resolve_sameReading (hinvalid : invalid₁.kind = invalid₂.kind) (head : Head)
    (positionals : List String) (given : Flag → List Arg) :
    SameReading (resolve s invalid₁ head positionals given)
      (resolve s invalid₂ head positionals given) := by
  unfold resolve
  -- The text of the line is quoted where no grammar takes the words, where the platform is unknown,
  -- and where it does not serve the verb. Elsewhere the two readings are one.
  cases Grammar.choose? s head.verb positionals with
  | none => exact .failure hinvalid
  | some found =>
    obtain ⟨g, captures⟩ := found
    simp only
    cases Flag.collectAll g.flags s.flagPolicy given with
    | error e => exact .failure rfl
    | ok flags =>
      simp only [bind, Except.bind]
      cases Platform.ofToken? head.platform with
      | none => exact .failure hinvalid
      | some platform =>
        by_cases hserves : platform.serves g.verb = true
        · simp only [hserves]
          exact .refl _
        · simp only [hserves]
          exact .failure hinvalid

/-- **Lines with the same head, the same positional words and the same flags are read alike.** -/
theorem ofWords_sameReading {words₁ words₂ : List String} {line₁ line₂ : CommandLine}
    (h₁ : CommandLine.ofWords? words₁ = some line₁) (h₂ : CommandLine.ofWords? words₂ = some line₂)
    (hhead : line₁.toHead = line₂.toHead)
    (hpos : CommandLine.positionals line₁.rest = CommandLine.positionals line₂.rest)
    (hgiven : ∀ f : Flag, f.given words₁ = f.given words₂)
    (hinvalid : invalid₁.kind = invalid₂.kind) :
    SameReading (ofWords s invalid₁ words₁) (ofWords s invalid₂ words₂) := by
  unfold ofWords
  rw [h₁, h₂]
  simp only [hhead, hpos, hgiven]
  exact resolve_sameReading hinvalid _ _ _

end Command

/-! ## Settings

Reading looks at the settings in three places: for the word for "all" while slots are filled, for
the defaults of slots that stay empty, and for the policy on repeated flags. Each lemma replaces the
settings in one of them. -/

/-- The settings agree on everything that the reading of a line looks at. How long a message may be
and how strictly records are joined is not part of that. -/
structure Settings.ReadAlike (s₁ s₂ : Settings) : Prop where
  interval : s₁.defaultTimeInterval = s₂.defaultTimeInterval
  allAlias : s₁.allAlias = s₂.allAlias
  threshold : s₁.lowCpaThreshold = s₂.lowCpaThreshold
  filterNumber : s₁.defaultFilterNumber = s₂.defaultFilterNumber
  flagPolicy : s₁.flagPolicy = s₂.flagPolicy

section settings

variable {s₁ s₂ : Settings}

/-- Of the settings, only the word for "all" decides whether a word fits. -/
theorem SlotKind.fits_congr (h : s₁.allAlias = s₂.allAlias) (kind : SlotKind) (word : String) :
    kind.fits s₁ word = kind.fits s₂ word := by
  cases kind with
  | identifier => simp only [fits, h]
  | interval => rfl
  | threshold => rfl
  | limit => rfl

/-- Slots are filled alike under settings with the same word for "all". -/
theorem fill_congr (h : s₁.allAlias = s₂.allAlias) (slots : List Slot) (words : List String) :
    fill s₁ slots words = fill s₂ slots words := by
  -- Induction on the slots: each step asks whether one word fits one slot.
  induction slots generalizing words with
  | nil => cases words <;> rfl
  | cons slot slots ih =>
    cases words with
    | nil => simp only [fill, ih]
    | cons word words => simp only [fill, ih, SlotKind.fits_congr h]

/-- The same grammar is chosen. -/
theorem Grammar.choose?_settings (h : s₁.ReadAlike s₂) (verb : String) (words : List String) :
    choose? s₁ verb words = choose? s₂ verb words := by
  unfold choose?
  simp only [fill_congr h.allAlias]

/-- The same defaults stand in for what is missing. -/
theorem Settings.fallback_congr (h : s₁.ReadAlike s₂) : s₁.fallback = s₂.fallback := by
  funext key
  cases key with
  | timeInterval => simp only [fallback, h.interval]
  | lowCpaThreshold => simp only [fallback, h.threshold]
  | filterNumber => simp only [fallback, h.filterNumber]

/-- The arguments are put together alike. -/
theorem Resolve.arguments_settings (h : s₁.ReadAlike s₂) (head : Head) (g : Grammar)
    (captures : List Capture) (flags : Arguments) :
    arguments s₁ head g captures flags = arguments s₂ head g captures flags := by
  unfold arguments withSentinels withVerbFallbacks withSlotFallbacks namesAll
  simp only [Settings.fallback_congr h, h.allAlias]

/-- **Settings that agree on the command language read every line alike.** -/
theorem Command.parse_congr (h : s₁.ReadAlike s₂) (text : String) :
    parse s₁ text = parse s₂ text := by
  unfold parse resolve
  simp only [Grammar.choose?_settings h, Resolve.arguments_settings h, h.flagPolicy]

end settings

end AdOps
