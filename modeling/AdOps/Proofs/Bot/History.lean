import AdOps.Proofs.Bot.Pausing
import AdOps.Service.Fixtures

/-!
# What an answer owes to the past

A session answers one message after another on one desk. The desk remembers more than it shows: the
windows it was asked for, the campaign names the tracker has listed. None of this shows in a later
answer. What does is what was paused and resumed, so of a session the messages that took effect are
enough to know every later answer.

* **`alike_answer`** — a message that takes no effect leaves the desk as good as before.
* **`alike_after`** — a session and its effective messages lead to alike desks.
* **`answer_after_effective`** — history independence of answers.
-/

namespace AdOps.Bot

open AdOps.Action

variable (b : Bot) (today : Date)

/-- The desk after messages were answered in turn. -/
def after (d : Desk) (messages : List String) : Desk :=
  messages.foldl (fun d message => (b.answer today message d).2) d

/-- Whether a message succeeds on the desk, with a command that pauses or resumes widgets. -/
def takesEffect (d : Desk) (message : String) : Bool :=
  match (b.report today message d).1 with
  | ⟨_, some c, _, none⟩ => decide c.Acts
  | _ => false

/-- The messages of a session that take effect where they stand. -/
def effective (d : Desk) : List String → List String
  | [] => []
  | message :: messages =>
    let rest := effective (b.answer today message d).2 messages
    if b.takesEffect today d message then message :: rest else rest

variable {d d₁ d₂ : Desk} (message : String)

/-! ## One message

Desks are alike if they differ only in what never shows: the windows noted on them and the names the
tracker remembers. A message keeps desks alike, and a message without an effect leaves a desk that
is like the one before it. -/

/-- On alike desks a message has one answer, and leaves them alike. -/
theorem answer_congr (h : Desk.Alike d₁ d₂) :
    (b.answer today message d₁).1 = (b.answer today message d₂).1 ∧
      Desk.Alike (b.answer today message d₁).2 (b.answer today message d₂).2 := by
  obtain ⟨hr, hd⟩ := steady_run b today message d₁ d₂ h
  rw [answer_eq, answer_eq]
  refine ⟨?_, hd⟩
  show b.respond message _ = b.respond message _
  rw [hr]

/-- A message that takes no effect changes nothing that lasts: it fails, which changes nothing, or
it only reads. -/
theorem lasting_answer (h : b.takesEffect today d message = false) :
    (b.answer today message d).2.lasting = d.lasting := by
  rw [answer_eq]
  rcases hrun : (b.run today message).on d with ⟨r, d'⟩
  cases r with
  | error e => exact atomic_run b today message d e d' hrun
  | ok o =>
    obtain ⟨c, o', hparse, -, hhandle⟩ := run_eq_ok b today message hrun
    unfold takesEffect at h
    rw [report_of_ok b today message hrun, hparse] at h
    -- The command succeeded, so it takes no effect because it does not act.
    have hacts : ¬ c.Acts := of_decide_eq_false h
    exact (Handler.reads_handle hacts).lasting_eq hhandle

/-- **A message that takes no effect leaves the desk as good as before.** -/
theorem alike_answer (hf : d.tracker.Faithful) (h : b.takesEffect today d message = false) :
    Desk.Alike (b.answer today message d).2 d where
  lasting_eq := lasting_answer b today message h
  left := (answer_congr b today message (.refl hf)).2.left
  right := hf

/-! ## Sessions

The step is about one message on two desks; a session is an induction over its messages, in which
only the messages that take effect are played on the second desk. -/

/-- **A session and its effective messages lead to alike desks.** -/
theorem alike_after (h : Desk.Alike d₁ d₂) (messages : List String) :
    Desk.Alike (b.after today d₁ messages)
      (b.after today d₂ (b.effective today d₁ messages)) := by
  -- Induction on the session. The desks drift apart in what does not last, so both are general.
  induction messages generalizing d₁ d₂ with
  | nil => exact h
  | cons message messages ih =>
    show Desk.Alike (b.after today (b.answer today message d₁).2 messages) _
    unfold effective
    cases heffect : b.takesEffect today d₁ message with
    | true =>
      -- Both desks answer the message.
      exact ih (answer_congr b today message h).2
    | false =>
      -- Only the first desk answers it, and is as good as before.
      exact ih ((alike_answer b today message h.left heffect).trans h)

/-- The tracker of fresh fixtures remembers nothing, so nothing wrong. -/
theorem faithful_desk (f : Fixtures) (faults : Faults) : (f.desk faults).tracker.Faithful :=
  Tracker.faithful_of_names_empty rfl

/-- **History independence.** For any data, any settings that are valid, any date, and any faults of
the services: the answer to a message after a session is its answer after the messages of the
session that succeeded and paused or resumed widgets. -/
theorem answer_after_effective (f : Fixtures) (faults : Faults) (messages : List String) :
    (b.answer today message (b.after today (f.desk faults) messages)).1 =
      (b.answer today message
        (b.after today (f.desk faults) (b.effective today (f.desk faults) messages))).1 :=
  (answer_congr b today message
    (alike_after b today (.refl (faithful_desk f faults)) messages)).1

end AdOps.Bot
