import AdOps.Proofs.Bot.History
import AdOps.Proofs.Handler.Adding

/-!
# Sessions of kill commands

Each kill command of a session looks at what the ones before it paused. But every one of them adds
what it would pause on the fresh desk, so a session of them pauses what its messages pause on the
fresh desk one by one, in whatever order they come and however often.

* **`adds_run`** — the run of a kill command adds to the paused widgets.
* **`mem_paused_after`** — what is paused after a session of kill commands.
* **`paused_after_kills`** — kill commands commute, and to repeat them changes nothing.
-/

namespace AdOps

namespace Verb

/-- The verb pauses widgets that it selects. -/
def Kills (v : Verb) : Prop := v = .widgetsKillLongtail ∨ v = .widgetsKillBot

instance (v : Verb) : Decidable v.Kills := inferInstanceAs (Decidable (_ ∨ _))

/-- A kill verb selects by a target, or by none. -/
theorem exists_target?_of_kills {v : Verb} (h : v.Kills) : ∃ target?, v.target? = some target? := by
  rcases h with rfl | rfl
  · exact ⟨_, rfl⟩
  · exact ⟨_, rfl⟩

end Verb

namespace Bot

open AdOps.Action

variable (b : Bot) (today : Date)

/-- The message is a kill command, unless it is no command at all. -/
def IsKill (message : String) : Prop :=
  match b.parse message with
  | .ok c => c.verb.Kills
  | .error _ => True

instance (message : String) : Decidable (b.IsKill message) := by
  unfold IsKill
  split
  · infer_instance
  · infer_instance

variable {b}

/-! ## One message

A kill command looks at the data of its campaign and at the widgets already paused, and it pauses a
set that the data alone decides. So its effect is that of the fresh desk added to what was paused.
-/

/-- **The run of a kill command adds to the paused widgets**, whether it succeeds or not. -/
theorem adds_run {message : String} (h : b.IsKill message) : Adds (b.run today message) := by
  rw [run_eq]
  unfold IsKill at h
  cases hparse : b.parse message with
  -- A message that is no command fails, and so adds nothing.
  | error e => exact (Reads.throw e).adds
  | ok c =>
    rw [hparse] at h
    obtain ⟨target?, hkill⟩ := Verb.exists_target?_of_kills h
    have hadds : Adds (Invocation.handle ⟨c, b.settings, today⟩) := Handler.adds_handle hkill
    exact hadds.bind_pure _

/-- The fresh desk under a desk is the same after the message. -/
theorem fresh_answer {message : String} (h : b.IsKill message) (d : Desk) :
    (b.answer today message d).2.fresh = d.fresh :=
  (adds_run today h).fresh d

/-- What is paused after a kill command was paused before or is paused by it on the fresh desk. -/
theorem mem_paused_answer {message : String} (h : b.IsKill message) {d : Desk} {p : Platform}
    {campaign id : String} :
    id ∈ (b.answer today message d).2.paused p campaign ↔
      id ∈ d.paused p campaign ∨ id ∈ (b.answer today message d.fresh).2.paused p campaign :=
  (adds_run today h).paused d p campaign id

/-! ## Sessions

Since every message adds to the paused widgets what it would pause on the fresh desk, the order of a
session and how often a message is repeated cannot matter. -/

/-- **What is paused after a session of kill commands** was paused before, or is paused by one of its
messages on the fresh desk. -/
theorem mem_paused_after {messages : List String} (h : ∀ m ∈ messages, b.IsKill m) {d : Desk}
    {p : Platform} {campaign id : String} :
    id ∈ (b.after today d messages).paused p campaign ↔
      id ∈ d.paused p campaign ∨
        ∃ m ∈ messages, id ∈ (b.answer today m d.fresh).2.paused p campaign := by
  -- Induction on the session. The desk is general, and its fresh desk is the same all along.
  induction messages generalizing d with
  | nil => simp [after]
  | cons m messages ih =>
    obtain ⟨hm, hrest⟩ := List.forall_mem_cons.1 h
    show id ∈ (b.after today (b.answer today m d).2 messages).paused p campaign ↔ _
    -- The first message changed what is paused and nothing that later ones look at.
    rw [ih hrest, fresh_answer today hm, mem_paused_answer today hm, or_assoc]
    simp only [List.mem_cons, exists_eq_or_imp]

/-- **Kill commands commute and are idempotent on the paused widgets.** Two sessions of kill commands
that consist of the same messages, in whatever order and however often, some of which may fail, lead
from one desk to the same paused widgets. -/
theorem paused_after_kills (d : Desk) {messages messages' : List String}
    (h : ∀ m ∈ messages, b.IsKill m) (hsame : ∀ m, m ∈ messages ↔ m ∈ messages') :
    (b.after today d messages).paused = (b.after today d messages').paused := by
  have h' : ∀ m ∈ messages', b.IsKill m := fun m hm => h m ((hsame m).2 hm)
  -- Sets of widgets are compared widget by widget, and membership speaks of messages only as
  -- members.
  funext p campaign
  refine NameSet.ext_mem fun id => ?_
  rw [mem_paused_after today h, mem_paused_after today h']
  simp only [hsame]

/-! One command pauses the cheap widget of a campaign, the other the one whose clicks the tracker never
saw. The third widget stays active. -/

namespace Sweep

def bot : Bot := ⟨{}, by decide⟩

def date : Date := ⟨15749, by decide⟩

def cheap : Record :=
  NameMap.ofList [("id", .string "a"), ("clicks", .int 0), ("spent", .int 1)]

def unseen : Record :=
  NameMap.ofList [("id", .string "b"), ("clicks", .int 5), ("spent", .int 9)]

def sound : Record :=
  NameMap.ofList [("id", .string "c"), ("clicks", .int 0), ("spent", .int 9)]

def desk : Desk where
  mgid := some { data :=
    { campaigns := [NameMap.ofList [("id", .int 1), ("name", .string "No Key")]],
      widgetStats := NameMap.ofList [("1", [cheap, unseen, sound])] } }

def killLongtail : String := "/mgid widgets-kill-longtail 1 5"

def killBot : String := "/mgid widgets-kill-bot 1 50"

end Sweep

theorem paused_after_kills_sweep :
    (Sweep.bot.after Sweep.date Sweep.desk [Sweep.killLongtail, Sweep.killBot]).paused =
        (Sweep.bot.after Sweep.date Sweep.desk
          [Sweep.killBot, Sweep.killLongtail, Sweep.killBot]).paused ∧
      (Sweep.bot.after Sweep.date Sweep.desk [Sweep.killLongtail, Sweep.killBot]).paused .mgid "1" =
        NameSet.ofList ["a", "b"] := by
  have hlongtail : Sweep.bot.IsKill Sweep.killLongtail := by decide +kernel
  have hbot : Sweep.bot.IsKill Sweep.killBot := by decide +kernel
  have hkills : ∀ m ∈ [Sweep.killLongtail, Sweep.killBot], Sweep.bot.IsKill m := by
    rw [List.forall_mem_cons, List.forall_mem_singleton]
    exact ⟨hlongtail, hbot⟩
  refine ⟨paused_after_kills Sweep.date Sweep.desk hkills fun m => ?_, ?_⟩
  · simp only [List.mem_cons, List.not_mem_nil, or_false]
    constructor
    · rintro (h | h)
      · exact .inr (.inl h)
      · exact .inl h
    · rintro (h | h | h)
      · exact .inr h
      · exact .inl h
      · exact .inr h
  · decide +kernel

end Bot
end AdOps
