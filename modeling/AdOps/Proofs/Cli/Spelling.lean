import AdOps.Cli.Options

/-!
# The two spellings of an option

An option that takes a value is written as two words or as one. The second of two words is the value
as it stands. Behind `--option=` the value is what is left once the lead is dropped, and it is
dropped as often as it is repeated. So the spellings agree on a value that does not begin with the
lead of its own option, and on one that does they part, unless the option is refused for either.

* **`Leads.read_append`** — options that were read are settled, and the reading goes on behind them.
* **`classify_lead`** — a word that begins with a lead is the setting of that option.
* **`dropLead_spec`** — what is left of a text once its leads are dropped.
* **`spellings_agree_iff`** — for which values the two spellings of an option agree.
-/

namespace AdOps.Cli.Options

/-! ## Leads

The value behind `--option=` is found by dropping the lead from the front of the word for as long as
it is there. The recursion counts down a number that the word's length bounds, and what it comes to
is told by its inverse: leads, and then a text without one. -/

section dropLead

variable {lead cs : List Char}

/-- A lead in front is dropped, as long as there is fuel for it. -/
theorem dropLead_append (lead cs : List Char) (fuel : Nat) :
    dropLead lead (fuel + 1) (lead ++ cs) = dropLead lead fuel cs := by
  rw [dropLead, if_pos (List.isPrefixOf_iff_prefix.2 (List.prefix_append lead cs)),
    List.drop_left]

/-- A text without a lead in front is left as it is. -/
theorem dropLead_of_leadless (h : ¬ lead <+: cs) (fuel : Nat) : dropLead lead fuel cs = cs := by
  cases fuel with
  | zero => rfl
  | succ fuel => rw [dropLead, if_neg (mt List.isPrefixOf_iff_prefix.1 h)]

/-- **A text is what is left of it behind a number of leads**, and no lead is left in front. -/
theorem dropLead_spec (hlead : lead ≠ []) {fuel : Nat} (h : cs.length ≤ fuel) :
    (∃ k, cs = (List.replicate k lead).flatten ++ dropLead lead fuel cs) ∧
      ¬ lead <+: dropLead lead fuel cs := by
  -- Induction on the fuel. A lead is not empty, so that dropping one uses up fuel enough.
  induction fuel generalizing cs with
  | zero =>
    obtain rfl := List.eq_nil_of_length_eq_zero (Nat.le_zero.1 h)
    exact ⟨⟨0, rfl⟩, fun hnil => hlead (List.prefix_nil.1 hnil)⟩
  | succ fuel ih =>
    by_cases hfront : lead <+: cs
    -- One lead more in front, and the rest is shorter.
    · obtain ⟨rest, rfl⟩ := hfront
      have hpos : 0 < lead.length := List.length_pos_iff.2 hlead
      rw [List.length_append] at h
      obtain ⟨⟨k, hk⟩, hnone⟩ := ih (show rest.length ≤ fuel by omega)
      rw [dropLead_append]
      refine ⟨⟨k + 1, ?_⟩, hnone⟩
      rw [List.replicate_succ, List.flatten_cons, List.append_assoc, ← hk]
    · rw [dropLead_of_leadless hfront]
      exact ⟨⟨0, rfl⟩, hfront⟩

end dropLead

/-! ## Words

Which kind of word an argument is. A lead ends in an equals sign, which no other word has, so a word
that begins with a lead can only be a setting of that option. -/

variable {opts opts' : Options} {o : ValueOption} {value : String}

/-- No lead is empty. -/
theorem lead_ne_nil (o : ValueOption) : o.lead.toList ≠ [] := by
  cases o <;> decide

/-- The text begins with the lead of the option. -/
def BeginsWithLead (o : ValueOption) (value : String) : Prop := o.lead.toList <+: value.toList

/-- No lead begins another one. -/
theorem isPrefixOf_lead (o o' : ValueOption) (cs : List Char) :
    o'.lead.toList.isPrefixOf (o.lead.toList ++ cs) = decide (o' = o) := by
  cases o <;> cases o' <;> rfl

theorem classify_word (o : ValueOption) : classify o.word = .option o := by
  cases o <;> rfl

/-- A word with a lead in front is none of the words without an equals sign. -/
theorem lead_append_ne (o : ValueOption) (value : String) {word : String} (h : '=' ∉ word.toList) :
    o.lead ++ value ≠ word := by
  rintro rfl
  apply h
  rw [String.toList_append]
  apply List.mem_append_left
  cases o <;> decide

/-- **A word that begins with a lead is the setting of that option.** -/
theorem classify_lead (o : ValueOption) (value : String) :
    classify (o.lead ++ value) = .setting o (valueBehind o (o.lead ++ value)) := by
  have hword : ValueOption.all.find? (·.word = o.lead ++ value) = none := by
    rw [List.find?_eq_none]
    intro o' _ heq
    exact lead_append_ne o value (by cases o' <;> decide) (of_decide_eq_true heq).symm
  -- Of the leads only this one is in front of the word.
  have hlead : ValueOption.all.find? (·.lead.toList.isPrefixOf (o.lead ++ value).toList) =
      some o := by
    rw [String.toList_append]
    simp only [isPrefixOf_lead]
    cases o <;> rfl
  unfold classify
  split
  all_goals first
    | exact absurd ‹_› (lead_append_ne o value (by decide))
    | rw [hword, hlead]

/-- The value of a setting is the text behind the first lead, without the leads that follow it. -/
theorem toList_valueBehind (o : ValueOption) (value : String) :
    ∃ fuel, value.toList.length ≤ fuel ∧
      (valueBehind o (o.lead ++ value)).toList = dropLead o.lead.toList fuel value.toList := by
  have hpos : 0 < o.lead.toList.length := List.length_pos_iff.2 (lead_ne_nil o)
  obtain ⟨n, hn⟩ : ∃ n, o.lead.toList.length = n + 1 := ⟨o.lead.toList.length - 1, by omega⟩
  have hlength : (o.lead ++ value).length = n + value.length + 1 := by
    rw [String.length_append, ← String.length_toList, hn]
    omega
  -- The fuel is the length of the word less the first lead, so it covers the value.
  refine ⟨n + value.length, ?_, ?_⟩
  · rw [String.length_toList]
    exact Nat.le_add_left _ _
  · rw [valueBehind, String.toList_ofList, String.toList_append, hlength, dropLead_append]

/-! ## Reading

The reading is told by one relation: words that are complete options lead from one state to another.
Behind such words it goes on as it would from the state they lead to, so the two spellings are
compared there, word against word. -/

/-- The words are options that are complete, and reading them leads from one state to the other. -/
inductive Leads : Options → List String → Options → Prop
  | nil (opts : Options) : Leads opts [] opts
  | color {opts opts' : Options} {word : String} {words : List String} {on : Bool}
      (hword : classify word = .color on) (h : Leads { opts with color := on } words opts') :
      Leads opts (word :: words) opts'
  | plain {opts opts' : Options} {word : String} {words : List String}
      (hword : classify word = .plain) (h : Leads { opts with plain := true } words opts') :
      Leads opts (word :: words) opts'
  | setting {opts opts₁ opts' : Options} {o : ValueOption} {word value : String}
      {words : List String} (hword : classify word = .setting o value)
      (hset : opts.set o value = .ok opts₁) (h : Leads opts₁ words opts') :
      Leads opts (word :: words) opts'
  | option {opts opts₁ opts' : Options} {o : ValueOption} {word value : String}
      {words : List String} (hword : classify word = .option o)
      (hset : opts.set o value = .ok opts₁) (h : Leads opts₁ words opts') :
      Leads opts (word :: value :: words) opts'

/-- A setting is set, and the reading goes on. -/
theorem read_of_setting {word : String} (h : classify word = .setting o value) (opts : Options)
    (words : List String) :
    opts.read (word :: words) = opts.set o value >>= fun opts => opts.read words := by
  rw [read, h]

/-- An option with its value is set, and the reading goes on behind both words. -/
theorem read_of_option {word : String} (h : classify word = .option o) (opts : Options)
    (value : String) (words : List String) :
    opts.read (word :: value :: words) = opts.set o value >>= fun opts => opts.read words := by
  rw [read, h]

/-- **The reading goes on behind the options that were read.** -/
theorem Leads.read_append {words : List String} (h : Leads opts words opts') (rest : List String) :
    opts.read (words ++ rest) = opts'.read rest := by
  -- One case per kind of option, each by the equation of the reading.
  induction h with
  | nil => rfl
  | color hword _ ih =>
    rw [List.cons_append, read, hword]
    exact ih
  | plain hword _ ih =>
    rw [List.cons_append, read, hword]
    exact ih
  | setting hword hset _ ih =>
    rw [List.cons_append, read_of_setting hword, hset]
    exact ih
  | option hword hset _ ih =>
    rw [List.cons_append, List.cons_append, read_of_option hword, hset]
    exact ih

/-- What is read behind an option tells what the option came to. -/
theorem set_eq_of_read {r r' : Except OptionFailure Options}
    (h : (r >>= fun opts => opts.read []) = r' >>= fun opts => opts.read []) : r = r' := by
  cases r with
  | error e =>
    cases r' with
    | error e' => exact congrArg Except.error (Except.error.inj h)
    | ok opts' => exact absurd h nofun
  | ok opts =>
    cases r' with
    | error e' => exact absurd h nofun
    -- What was read is shown by the request that comes out.
    | ok opts' => exact congrArg Except.ok (Request.run.inj (Except.ok.inj h))

/-- A date does not begin with two hyphens. -/
theorem read?_of_beginsWithLead (h : BeginsWithLead .reference value) : Date.read? value = none := by
  obtain ⟨rest, hrest⟩ := h
  unfold Date.read?
  rw [← hrest]
  rfl

/-- **An option tells values apart of which the first begins with its lead and the second does
not**, unless it is refused for either. -/
theorem set_eq_set_iff {left : String} (hvalue : BeginsWithLead o value)
    (hleft : ¬ BeginsWithLead o left) :
    opts.set o left = opts.set o value ↔ o = .input ∧ opts.input.isSome := by
  have hne : left ≠ value := fun heq => hleft (heq ▸ hvalue)
  cases o with
  | reference =>
    refine ⟨fun h => ?_, fun h => absurd h.1 nofun⟩
    simp only [set, read?_of_beginsWithLead hvalue] at h
    cases hread : Date.read? left with
    | some day => simp [hread] at h
    | none => simp [hread, hne] at h
  | config => simp [set, hne]
  | fixtures => simp [set, hne]
  -- A second input is refused before its value is looked at.
  | input =>
    unfold set setInput
    cases opts.input <;> simp [hne]

/-- **For which values the two spellings of an option agree.** Wherever a word is read as an option,
the spelling as one word means the spelling as two words of what is left of the value once all leads
in front of it are dropped. So the spellings agree, whatever follows them, exactly if the value does
not begin with the lead, or is refused as a second input. -/
theorem spellings_agree_iff {front : List String} (hfront : Leads opts front opts')
    (o : ValueOption) (value : String) :
    (∃ k left, value.toList = (List.replicate k o.lead.toList).flatten ++ left.toList ∧
      ¬ BeginsWithLead o left ∧
      ∀ rest, opts.read (front ++ (o.lead ++ value) :: rest) =
        opts.read (front ++ o.word :: left :: rest)) ∧
    ((∀ rest, opts.read (front ++ (o.lead ++ value) :: rest) =
        opts.read (front ++ o.word :: value :: rest)) ↔
      ¬ BeginsWithLead o value ∨ o = .input ∧ opts'.input.isSome) := by
  obtain ⟨fuel, hfuel, hbehind⟩ := toList_valueBehind o value
  obtain ⟨⟨k, hk⟩, hleft⟩ := dropLead_spec (lead_ne_nil o) hfuel
  have hleads := hfront.read_append
  have hdropped : ¬ BeginsWithLead o (valueBehind o (o.lead ++ value)) := by
    unfold BeginsWithLead
    rw [hbehind]
    exact hleft
  constructor
  · refine ⟨k, valueBehind o (o.lead ++ value), ?_, hdropped, fun rest => ?_⟩
    · rw [hbehind]
      exact hk
    · rw [hleads, hleads, read_of_setting (classify_lead o value),
        read_of_option (classify_word o)]
  -- Both readings come down to setting the option, once with each text.
  · simp only [hleads, read_of_setting (classify_lead o value), read_of_option (classify_word o)]
    by_cases hvalue : BeginsWithLead o value
    · rw [← set_eq_set_iff hvalue hdropped]
      constructor
      · exact fun h => .inr (set_eq_of_read (h []))
      · rintro (hnot | hset) rest
        · exact absurd hvalue hnot
        · rw [hset]
    · have hsame : valueBehind o (o.lead ++ value) = value := by
        rw [← String.toList_inj, hbehind, dropLead_of_leadless hvalue]
      rw [hsame]
      exact ⟨fun _ => .inl hvalue, fun _ _ => rfl⟩

/-- A message that begins with the lead of the option is read without it. -/
theorem spellings_of_repeated_lead :
    Leads { color := false } ["--plain"] { color := false, plain := true } ∧
      ¬ ∀ rest, Options.read { color := false } ("--plain" :: "--input=--input=/thrive list" :: rest) =
        Options.read { color := false } ("--plain" :: "--input" :: "--input=/thrive list" :: rest) := by
  have hplain : Leads { color := false } ["--plain"] { color := false, plain := true } :=
    .plain rfl (.nil _)
  refine ⟨hplain, fun h => ?_⟩
  rcases (spellings_agree_iff hplain .input "--input=/thrive list").2.1 h with hnot | hset
  · exact hnot ⟨"/thrive list".toList, by decide⟩
  · exact absurd hset.2 (by decide)

end AdOps.Cli.Options
