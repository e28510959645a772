import AdOps.CommandLine.Resolve
import AdOps.Proofs.Flag.Roles

/-!
# Lines of words

The reading of a line, said in terms of its words: the first word addresses a platform, the second
is the verb, and of the rest those are positional that are nothing to any flag and do not begin with
a marker.
-/

namespace AdOps

/-- A line of words, read up to its verb. -/
structure CommandLine extends Head where
  rest : List String
deriving DecidableEq

namespace CommandLine

/-- The platform that a word addresses: behind a slash, the letters of its name. -/
def platformWord? (word : String) : Option String :=
  match word.toList with
  | '/' :: cs => if !cs.isEmpty && cs.all Head.isPlatformChar then some (String.ofList cs) else none
  | _ => none

/-- Whether the second word has the form of a verb: it begins with a letter. -/
def isVerbWord (word : String) : Bool :=
  match word.toList with
  | [] => false
  | c :: cs => Text.isLetter c && cs.all Head.isVerbChar

/-- A verb begins with a letter, so it carries no marker. -/
theorem unmark_of_isVerbWord {verb : String} (h : isVerbWord verb = true) :
    Flag.unmark verb.toList = none := by
  unfold isVerbWord at h
  unfold Flag.unmark
  split
  · next rest heq =>
    rw [heq] at h
    exact absurd h (by simp [show Text.isLetter '/' = false by decide])
  · next rest heq =>
    rw [heq] at h
    exact absurd h (by simp [show Text.isLetter '-' = false by decide])
  · rfl

/-- Reads the head of a line of words. -/
def ofWords? : List String → Option CommandLine
  | first :: second :: rest => do
    let platform ← platformWord? first
    if isVerbWord second then
      some ⟨⟨Text.asciiLower platform, Text.asciiLower second⟩, rest⟩
    else none
  | _ => none

/-- A line with a head has two words in front, and the second has the form of a verb. -/
theorem exists_of_ofWords? {words : List String} {line : CommandLine}
    (h : ofWords? words = some line) :
    ∃ first second, words = first :: second :: line.rest ∧ isVerbWord second = true := by
  unfold ofWords? at h
  split at h
  · next first second rest =>
    obtain ⟨platform, -, h⟩ := Option.bind_eq_some_iff.1 h
    obtain ⟨hverb, hline⟩ := Option.ite_none_right_eq_some.1 h
    obtain rfl := Option.some.inj hline
    exact ⟨first, second, rfl, hverb⟩
  · exact absurd h (by simp)

/-- The head stays as it is with more words behind. -/
theorem ofWords?_append {words : List String} {line : CommandLine} (h : ofWords? words = some line)
    (ws : List String) : ofWords? (words ++ ws) = some { line with rest := line.rest ++ ws } := by
  unfold ofWords? at h
  split at h
  · next first second rest =>
    obtain ⟨platform, hplatform, h⟩ := Option.bind_eq_some_iff.1 h
    obtain ⟨hverb, hline⟩ := Option.ite_none_right_eq_some.1 h
    obtain rfl := Option.some.inj hline
    simp [ofWords?, hplatform, hverb]
  · exact absurd h (by simp)

/-- For every word, whether it belongs to some flag. -/
def taken (flags : List Flag) (words : List String) : List Bool :=
  flags.foldr (fun f acc => (f.roles words).zipWith (fun role b => role ≠ .outside || b) acc)
    (words.map fun _ => false)

/-- The words that are positional: they belong to no flag and carry no marker. -/
def positionals (words : List String) : List String :=
  (words.zip (taken Flag.all words)).filterMap fun (word, isTaken) =>
    if isTaken || Flag.isMarked word then none else some word

/-- The grammar that the positional words choose, with what they fill. -/
def grammar? (s : Settings) (line : CommandLine) : Option (Grammar × List Capture) :=
  Grammar.choose? s line.verb (positionals line.rest)

end CommandLine

/-- The arguments that the flags of a line give, under a policy. -/
def flagArguments (allowed : List Flag) (policy : FlagPolicy) (words : List String) :
    Except Failure Arguments :=
  Flag.collectAll allowed policy fun f => f.given words

namespace Command

/-- The command that a line of words stands for; `invalid` is the failure if it is none. -/
def ofWords (s : Settings) (invalid : Failure) (words : List String) : Except Failure Command := do
  let some line := CommandLine.ofWords? words | throw invalid
  resolve s invalid line.toHead (CommandLine.positionals line.rest) fun f => f.given words

end Command

end AdOps
