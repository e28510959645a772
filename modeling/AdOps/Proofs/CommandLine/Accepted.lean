import AdOps.Proofs.CommandLine.Given
import AdOps.Proofs.CommandLine.Scanned

/-!
# Accepted lines

A line that is accepted as a command passed every step of the reading: it has a head, its positional
words fill a grammar, its flags can be collected, and its platform is known and could name its
window.

* **`exists_isReading`** — what a line was read as if it was accepted.
* **`choose?_eq_some`** — its positional words fill the slots of one of the grammars.
-/

namespace AdOps

/-- The grammar that is chosen is one of the grammars, and the positional words fill its slots. -/
theorem Grammar.choose?_eq_some {s : Settings} {verb : String} {positionals : List String}
    {g : Grammar} {captures : List Capture}
    (h : choose? s verb positionals = some (g, captures)) :
    g ∈ all ∧ fill s g.slots positionals = some captures := by
  obtain ⟨g', hmem, hfill⟩ := List.exists_of_findSome?_eq_some h
  obtain ⟨filled, hfilled, heq⟩ := Option.map_eq_some_iff.1 hfill
  obtain ⟨rfl, rfl⟩ := Prod.mk.inj heq
  exact ⟨(List.mem_filter.1 hmem).1, hfilled⟩

namespace Command

/-- What is read off a line stands for the command, by this grammar with these captures. -/
structure IsResolved (s : Settings) (head : Head) (positionals : List String)
    (given : Flag → List Arg) (g : Grammar) (captures : List Capture) (c : Command) : Prop where
  grammar : Grammar.choose? s head.verb positionals = some (g, captures)
  platform : Platform.ofToken? head.platform = some c.platform
  serves : c.platform.serves g.verb = true
  verb : g.verb = c.verb
  name : g.name = c.grammar
  args : ∃ flags, Flag.collectAll g.flags s.flagPolicy given = .ok flags ∧
    Resolve.withAlias c.platform.windowAlias (Resolve.arguments s head g captures flags) =
      .ok c.args

/-- What a line came from if it was resolved to a command: each step of the resolution went through,
and what it gave is in the command. -/
theorem exists_isResolved {s : Settings} {invalid : Failure} {head : Head}
    {positionals : List String} {given : Flag → List Arg} {c : Command}
    (h : resolve s invalid head positionals given = .ok c) :
    ∃ g captures, IsResolved s head positionals given g captures c := by
  unfold resolve at h
  split at h
  · next g captures hgrammar =>
    -- The flags were collected; then the platform and the verb, and the name of the window comes
    -- last.
    obtain ⟨flags, hflags, h⟩ := bind_eq_ok.1 h
    dsimp only at h
    split at h
    · next p hplatform =>
      split at h
      · obtain ⟨_, hthrow, -⟩ := bind_eq_ok.1 h
        exact absurd hthrow (throw_ne_ok _ _)
      · next hserves =>
        obtain ⟨args, hargs, h⟩ := bind_eq_ok.1 h
        obtain rfl := Except.ok.inj h
        exact ⟨g, captures, hgrammar, hplatform, by simpa using hserves, rfl, rfl, flags, hflags,
          hargs⟩
    · exact absurd h (throw_ne_ok _ _)
  · exact absurd h (throw_ne_ok _ _)

/-- The line was accepted as the command: it has a head and fits a grammar with these captures. -/
structure IsReading (s : Settings) (words : List String) (line : CommandLine) (g : Grammar)
    (captures : List Capture) (c : Command) : Prop where
  head : CommandLine.ofWords? words = some line
  grammar : line.grammar? s = some (g, captures)
  platform : Platform.ofToken? line.platform = some c.platform
  verb : g.verb = c.verb
  args : ∃ flags, flagArguments g.flags s.flagPolicy words = .ok flags ∧
    Resolve.withAlias c.platform.windowAlias (Resolve.arguments s line.toHead g captures flags) =
      .ok c.args

/-- What the words of a line were resolved as if it was accepted. -/
theorem exists_isResolved_words {s : Settings} {text : String} {c : Command}
    (h : parse s text = .ok c) :
    ∃ line g captures, CommandLine.ofWords? (Text.words text) = some line ∧
      IsResolved s line.toHead (CommandLine.positionals line.rest)
        (fun f => f.given (Text.words text)) g captures c := by
  rw [parse_eq_ofWords] at h
  unfold ofWords at h
  split at h
  · next line hline =>
    obtain ⟨g, captures, hresolved⟩ := exists_isResolved h
    exact ⟨line, g, captures, hline, hresolved⟩
  -- A line without a head is no command.
  · exact absurd h (throw_ne_ok _ _)

/-- **What a line was read as if it was accepted.** -/
theorem exists_isReading {s : Settings} {text : String} {c : Command}
    (h : parse s text = .ok c) :
    ∃ line g captures, IsReading s (Text.words text) line g captures c := by
  obtain ⟨line, g, captures, hline, hresolved⟩ := exists_isResolved_words h
  exact ⟨line, g, captures, hline, hresolved.grammar, hresolved.platform, hresolved.verb,
    hresolved.args⟩

namespace IsReading

variable {s : Settings} {words : List String} {line : CommandLine} {g : Grammar}
  {captures : List Capture} {c : Command}

/-- The grammar is one of those there are, and its slots are filled. -/
theorem fills (h : IsReading s words line g captures c) :
    g ∈ Grammar.all ∧ fill s g.slots (CommandLine.positionals line.rest) = some captures :=
  Grammar.choose?_eq_some h.grammar

end IsReading

end Command

end AdOps
