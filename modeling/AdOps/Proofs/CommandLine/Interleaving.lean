import AdOps.Proofs.CommandLine.Scanned

/-!
# Flags and positional words in any mixture

Behind the verb a line holds positional words and flags. Where the flags stand among the positional
words, and in which order different flags stand, does not matter; only the order of the positional
words does, and the order of the occurrences of one flag, which a policy may look at.

* **`positionals_line`**, **`given_line`** — what the two passes read off a line of pieces.
* **`parse_sameReading`** — two mixtures of the same words and flags are parsed alike.
-/

namespace AdOps

inductive Piece where
  /-- A positional word, which carries no marker. -/
  | word (w : String) (hw : Flag.isMarked w = false)
  | flag (g : Segment)

namespace Piece

/-- The words of a piece, one for a positional word and up to two for a flag. -/
def words : Piece → List String
  | word w _ => [w]
  | flag g => g.words

/-- The positional word, if it is one. -/
def word? : Piece → Option String
  | word w _ => some w
  | flag _ => none

/-- The segment of a flag, if it is one. -/
def segment? : Piece → Option Segment
  | word .. => none
  | flag g => some g

/-- The words of all pieces in a row. -/
def line (pieces : List Piece) : List String := pieces.flatMap words

/-- The pieces hold the words in their order and the segments in any order, except that the segments
of one flag keep theirs. -/
structure Mixes (ws : List String) (segments : List Segment) (pieces : List Piece) : Prop where
  words_eq : pieces.filterMap word? = ws
  segments_eq : ∀ f : Flag, (pieces.filterMap segment?).filter (fun g => g.flag = f) =
    segments.filter fun g => g.flag = f

/-! ## Single pieces

A piece is closed: whatever stands behind it, its words have the roles that they have by themselves.
So what a line gives is put together from its pieces. -/

/-- A word that is not marked carries no marker. -/
theorem unmark_of_isMarked {w : String} (hw : Flag.isMarked w = false) :
    Flag.unmark w.toList = none := by
  unfold Flag.isMarked at hw
  exact Option.isNone_iff_eq_none.1 (by rw [← Option.not_isSome, hw]; rfl)

/-- Each piece is closed for every flag. -/
theorem closed_words (p : Piece) (f : Flag) : f.Closed p.words := by
  cases p with
  | word w hw => exact .plain (unmark_of_isMarked hw)
  | flag g => exact g.closed_words f

/-- Its positional words are the one that it is, or none. -/
theorem positionals_words (p : Piece) : CommandLine.positionals p.words = p.word?.toList := by
  cases p with
  | word w hw => exact CommandLine.positionals_plain (unmark_of_isMarked hw)
  | flag g => exact g.positionals_words

/-- It gives a flag the value of its segment, if that is of this flag. -/
theorem given_words (p : Piece) (f : Flag) :
    f.given p.words = (p.segment?.toList.filter (fun g => g.flag = f)).filterMap
      fun g => f.argument? g.value := by
  cases p with
  | word w hw =>
    unfold Flag.given words
    rw [Flag.roles_plain (unmark_of_isMarked hw)]
    rfl
  | flag g =>
    show f.given g.words = _
    rw [g.given_words f]
    by_cases hfg : g.flag = f
    · cases harg : f.argument? g.value <;> simp [segment?, hfg, harg]
    · simp [segment?, hfg, Ne.symm hfg]

/-! ## Lines of pieces

Both passes go over a line piece by piece, by induction on the pieces. For the positional words the
segments drop out, and for a flag all but its own segments do, which is why only those need to keep
their order. -/

/-- **The positional words of a line are the positional words of its pieces.** -/
theorem positionals_line (pieces : List Piece) :
    CommandLine.positionals (line pieces) = pieces.filterMap word? := by
  induction pieces with
  | nil => rfl
  | cons p pieces ih =>
    show CommandLine.positionals (p.words ++ line pieces) = _
    -- The first piece is closed, so its words can be taken by themselves.
    rw [CommandLine.positionals_append fun f => p.closed_words f _, positionals_words, ih]
    cases h : p.word? <;> simp [h]

/-- **What a line gives for a flag are the values of its segments for that flag.** -/
theorem given_line (pieces : List Piece) (f : Flag) :
    f.given (line pieces) =
      ((pieces.filterMap segment?).filter fun g => g.flag = f).filterMap
        fun g => f.argument? g.value := by
  -- Induction on the pieces: each one is closed, so the walk can be cut behind it.
  induction pieces with
  | nil => rfl
  | cons p pieces ih =>
    show f.given (p.words ++ line pieces) = _
    rw [Flag.given_append (p.closed_words f _), given_words, ih]
    cases h : p.segment? with
    | none => simp [h]
    | some g =>
      by_cases hg : g.flag = f
      · cases harg : f.argument? g.value <;> simp [h, hg, harg]
      · simp [h, hg]

end Piece

/-! ## Whole lines

Two mixtures have the same positional words and give every flag the same, so behind a common head
they are resolved alike. -/

namespace Command

/-- Two lines with the same two words in front and mixtures of the same behind them are read alike.
-/
theorem ofWords_line_sameReading (s : Settings) {invalid₁ invalid₂ : Failure}
    (hinvalid : invalid₁.kind = invalid₂.kind) (platform verb : String) {ws : List String}
    {segments : List Segment} {pieces₁ pieces₂ : List Piece} (h₁ : Piece.Mixes ws segments pieces₁)
    (h₂ : Piece.Mixes ws segments pieces₂) :
    SameReading (ofWords s invalid₁ (platform :: verb :: Piece.line pieces₁))
      (ofWords s invalid₂ (platform :: verb :: Piece.line pieces₂)) := by
  -- Without a platform and a verb in front both lines are invalid.
  cases hhead : CommandLine.platformWord? platform with
  | none =>
    have hnone : ∀ rest, CommandLine.ofWords? (platform :: verb :: rest) = none := by
      intro rest
      simp [CommandLine.ofWords?, hhead]
    rw [ofWords_headless (hnone _), ofWords_headless (hnone _)]
    exact .failure hinvalid
  | some name =>
    by_cases hverb : CommandLine.isVerbWord verb = true
    · have hline : ∀ rest, CommandLine.ofWords? (platform :: verb :: rest) =
          some ⟨⟨Text.asciiLower name, Text.asciiLower verb⟩, rest⟩ := by
        intro rest
        simp [CommandLine.ofWords?, hhead, hverb]
      -- The first word may be a flag, but the verb ends it.
      have hsplit : ∀ (f : Flag) (rest : List String),
          f.given (platform :: verb :: rest) = f.given [platform, verb] ++ f.given rest :=
        fun f rest =>
          Flag.given_append (Flag.Closed.pair (CommandLine.unmark_of_isVerbWord hverb) rest)
      have hgiven : ∀ f : Flag, f.given (platform :: verb :: Piece.line pieces₁) =
          f.given (platform :: verb :: Piece.line pieces₂) := by
        intro f
        rw [hsplit f (Piece.line pieces₁), hsplit f (Piece.line pieces₂), Piece.given_line,
          Piece.given_line, h₁.segments_eq f, h₂.segments_eq f]
      have hpos : CommandLine.positionals (Piece.line pieces₁) =
          CommandLine.positionals (Piece.line pieces₂) := by
        rw [Piece.positionals_line, Piece.positionals_line, h₁.words_eq, h₂.words_eq]
      exact ofWords_sameReading (hline _) (hline _) rfl hpos hgiven hinvalid
    · have hnone : ∀ rest, CommandLine.ofWords? (platform :: verb :: rest) = none := by
        intro rest
        simp [CommandLine.ofWords?, hhead, hverb]
      rw [ofWords_headless (hnone _), ofWords_headless (hnone _)]
      exact .failure hinvalid

/-- **Where flags stand does not matter.** Two texts that are written with the same two words in
front, and behind them with mixtures of the same positional words and flags, are parsed alike: to
the same command, or to failures of the same kind. -/
theorem parse_sameReading (s : Settings) {platform verb : String} {ws : List String}
    {segments : List Segment} {pieces₁ pieces₂ : List Piece} {text₁ text₂ : String}
    (h₁ : Piece.Mixes ws segments pieces₁) (h₂ : Piece.Mixes ws segments pieces₂)
    (htext₁ : Text.WrittenAs text₁ (platform :: verb :: Piece.line pieces₁))
    (htext₂ : Text.WrittenAs text₂ (platform :: verb :: Piece.line pieces₂)) :
    SameReading (parse s text₁) (parse s text₂) := by
  rw [parse_eq_ofWords, parse_eq_ofWords, Text.words_eq_iff.2 htext₁, Text.words_eq_iff.2 htext₂]
  have hkind : (Failure.invalidCommand (Text.trim text₁)).kind =
      (Failure.invalidCommand (Text.trim text₂)).kind := rfl
  exact ofWords_line_sameReading s hkind platform verb h₁ h₂

/-- Two limits next to each other and a switch, behind the positional words and among them. -/
theorem parse_sameReading_limits :
    SameReading (parse {} "/mgid stats 1 7d /limit:3 --limit 4 /ie")
      (parse {} " /mgid stats /ie  1 /limit:3 --limit 4 7d ") :=
  let first : Segment := .colon .limit .slash "limit" "3" (by decide) (by decide)
  let second : Segment := .spaced .limit .dashes "limit" "4" (by decide) (by decide) (by decide)
  let quiet : Segment := .switch .ignoreErrors .slash "ie" (by decide) (by decide)
  @parse_sameReading {} "/mgid" "stats" ["1", "7d"] [first, second, quiet]
    [.word "1" (by decide), .word "7d" (by decide), .flag first, .flag second, .flag quiet]
    [.flag quiet, .word "1" (by decide), .flag first, .flag second, .word "7d" (by decide)]
    _ _ ⟨rfl, fun f => by cases f <;> rfl⟩ ⟨rfl, fun f => by cases f <;> rfl⟩
    (Text.words_eq_iff.1 (by decide)) (Text.words_eq_iff.1 (by decide))

end Command

end AdOps
