import AdOps.Proofs.Bot.Pausing
import AdOps.Proofs.CommandLine.Synonyms
import AdOps.Proofs.Handler.Coincidence

/-!
# Messages with synonyms in the head

Which word a message begins with for its platform, and which of the synonyms it has for its verb, in
whatever letter case, does not matter for how it is answered. The commands that two such messages
stand for differ in nothing that a handler reads.

* **`run_alike`** — alike commands have one outcome, or failures of one kind, and leave one desk.
* **`report_synonyms`** — messages with synonyms in the head are answered alike.
-/

namespace AdOps

/-- The words of the head do not shape an outcome. -/
theorem Outcome.shape_agree {args₁ args₂ : Arguments} (h : Resolve.Agree args₁ args₂) (o : Outcome) :
    o.shape args₁ = o.shape args₂ := by
  -- Shaping reads three arguments, and none of them is a word of the head.
  unfold shape shapeBody Arguments.list? Arguments.integer? Arguments.switch
  rw [h "fields" (by decide) (by decide), h "limit" (by decide) (by decide),
    h "ignore_errors" (by decide) (by decide)]

namespace Bot

open AdOps.Action

variable {b : Bot} {message₁ message₂ : String}

/-- Commands that agree but for the words of the head are handled alike. -/
theorem handle_agree {c₁ c₂ : Command} (hplatform : c₁.platform = c₂.platform)
    (hverb : c₁.verb = c₂.verb) (hargs : Resolve.Agree c₁.args c₂.args) (s : Settings)
    (today : Date) :
    Invocation.handle ⟨c₁, s, today⟩ = Invocation.handle ⟨c₂, s, today⟩ := by
  refine Invocation.handle_congr ⟨hplatform, hverb, rfl, rfl, fun name hname => ?_⟩
  -- The two words of the head are among the names that no handler reads.
  refine hargs name ?_ ?_
  · rintro rfl
    exact hname (by decide)
  · rintro rfl
    exact hname (by decide)

/-- **Messages that stand for alike commands** are run with one outcome, or with failures of one
kind, and leave one desk. -/
theorem run_alike (today : Date) (h : Command.Alike (b.parse message₁) (b.parse message₂))
    (d : Desk) :
    (∃ e₁ e₂ d', e₁.kind = e₂.kind ∧ (b.run today message₁).on d = (.error e₁, d') ∧
        (b.run today message₂).on d = (.error e₂, d')) ∨
      ∃ o d', (b.run today message₁).on d = (.ok o, d') ∧
        (b.run today message₂).on d = (.ok o, d') := by
  rw [run_eq, run_eq]
  generalize hparse₁ : b.parse message₁ = r₁ at h ⊢
  generalize hparse₂ : b.parse message₂ = r₂ at h ⊢
  -- The two lines fail alike before a handler runs, or one handler runs for both.
  cases h with
  | @failure e₁ e₂ hkind =>
    exact .inl ⟨e₁, e₂, d, hkind, on_bind_error (on_lift _ d) _, on_bind_error (on_lift _ d) _⟩
  | @command c₁ c₂ hplatform hverb hgrammar hargs =>
    rw [on_bind_ok (on_lift _ d), on_bind_ok (on_lift _ d),
      handle_agree hplatform hverb hargs b.settings today]
    rcases hrun : (Invocation.handle ⟨c₂, b.settings, today⟩).on d with ⟨r, d'⟩
    cases r with
    | error e => exact .inl ⟨e, e, d', rfl, on_bind_error hrun _, on_bind_error hrun _⟩
    | ok o =>
      refine .inr ⟨o.shape c₂.args, d', ?_, ?_⟩
      · rw [on_bind_ok hrun, Outcome.shape_agree hargs]
        rfl
      · rw [on_bind_ok hrun]
        rfl

/-- **Synonyms are interchangeable.** Two messages that differ in the word for the platform, in the
word for the verb among the words of one grammar, and in letter case there, are parsed alike: both
fail with failures of one kind, or both stand for commands that differ in the words of the head
only. On every desk they are answered with failures of one kind or with one response, and leave one
desk. -/
theorem report_synonyms (b : Bot) (today : Date) {p : Platform} {g : Grammar} (hg : g ∈ Grammar.all)
    {name₁ verb₁ name₂ verb₂ : String} (h₁ : Head.IsTyped p g name₁ verb₁)
    (h₂ : Head.IsTyped p g name₂ verb₂) {rest : List String}
    (hwords₁ : Text.words message₁ = ("/" ++ name₁) :: verb₁ :: rest)
    (hwords₂ : Text.words message₂ = ("/" ++ name₂) :: verb₂ :: rest) :
    Command.Alike (b.parse message₁) (b.parse message₂) ∧ ∀ d,
      (b.report today message₁ d).1.failure.map Failure.kind =
          (b.report today message₂ d).1.failure.map Failure.kind ∧
        (b.report today message₁ d).2 = (b.report today message₂ d).2 ∧
        ((b.report today message₁ d).1.failure = none →
          (b.report today message₁ d).1.response = (b.report today message₂ d).1.response) := by
  have halike : Command.Alike (b.parse message₁) (b.parse message₂) :=
    Command.parse_alike hg h₁ h₂ hwords₁ hwords₂
  refine ⟨halike, fun d => ?_⟩
  rcases run_alike today halike d with
    ⟨e₁, e₂, d', hkind, hrun₁, hrun₂⟩ | ⟨o, d', hrun₁, hrun₂⟩
  -- Failures of one kind, on the desk that is left.
  · rw [report_of_error b today message₁ hrun₁, report_of_error b today message₂ hrun₂]
    exact ⟨congrArg some hkind, rfl, fun h => absurd h (by simp)⟩
  · rw [report_of_ok b today message₁ hrun₁, report_of_ok b today message₂ hrun₂]
    exact ⟨rfl, rfl, fun _ => rfl⟩

/-! The two words for a verb that brings its number of results along, in different letters. -/

namespace Top

def bot : Bot := ⟨{}, Settings.valid_default⟩

def date : Date := ⟨15754, by decide⟩

def grammar : Grammar :=
  ⟨"widgets top", .widgetsTop, ["widgets-top", "top-widgets"],
    [Grammar.campaign, Grammar.anyLimit, Grammar.interval], true⟩

end Top

theorem report_synonyms_top :
    Command.Alike (Top.bot.parse "/mgid top-widgets 7 /limit:2")
        (Top.bot.parse "/MG Widgets-TOP 7 /limit:2") ∧
      ∀ d, (Top.bot.report Top.date "/mgid top-widgets 7 /limit:2" d).2 =
        (Top.bot.report Top.date "/MG Widgets-TOP 7 /limit:2" d).2 := by
  have h₁ : Head.IsTyped .mgid Top.grammar "mgid" "top-widgets" := ⟨by decide, by decide⟩
  have h₂ : Head.IsTyped .mgid Top.grammar "MG" "Widgets-TOP" := ⟨by decide, by decide⟩
  have hwords₁ : Text.words "/mgid top-widgets 7 /limit:2" =
      ("/" ++ "mgid") :: "top-widgets" :: ["7", "/limit:2"] := by decide +kernel
  have hwords₂ : Text.words "/MG Widgets-TOP 7 /limit:2" =
      ("/" ++ "MG") :: "Widgets-TOP" :: ["7", "/limit:2"] := by decide +kernel
  obtain ⟨halike, hreport⟩ :=
    report_synonyms Top.bot Top.date (by decide) h₁ h₂ hwords₁ hwords₂
  exact ⟨halike, fun d => (hreport d).2.1⟩

end Bot

end AdOps
