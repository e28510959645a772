import AdOps.Proofs.Bot.Pausing
import AdOps.Proofs.CommandLine.Reading
import AdOps.Proofs.Message.Packing

/-!
# What the size of a message changes

How many characters a message may hold decides where an answer is cut, and nothing else: no handler
looks at it. An answer is made of blocks, which are packed into chunks and read the same when the
chunks are put together again.

* **`respond_eq`** — every answer is packed out of the blocks of its result.
* **`answer_chunks`** — the size changes neither the text of an answer nor the desk, and a chunk
  that is too long is one block.
-/

namespace AdOps

open Message

/-! ## Blocks of an answer

An answer is made in two steps: its result is turned into blocks, and the blocks are packed by the
size of a message. Only the second step looks at the size, so everything about the first is said of
the blocks. -/

namespace Response

/-- The blocks of the body of an answer. -/
def bodyBlocks (message : String) : Except Failure Outcome → List String
  | .ok o =>
    if o.isEmpty && o.issues.isEmpty then [emptyHint]
    else match o.body with
      | .records rs => rs.map recordText
      | .text s => if Text.isBlankText s then [] else blocks (valueText (.string s))
  | .error f => [recordText (failureRecord message f)]

/-- The blocks of the issues of an answer. -/
def issueBlocks : Except Failure Outcome → List String
  | .ok o => o.issues.map fun i => recordText i.toRecord
  | .error _ => []

/-- A block of a body: the text of a record, a piece of a text without a blank line, the hint that
there is nothing to show, or the text of the failure. -/
inductive IsBodyBlock (message : String) : Except Failure Outcome → String → Prop where
  | record {o : Outcome} {rs : List Record} {r : Record} (hbody : o.body = .records rs)
      (hr : r ∈ rs) : IsBodyBlock message (.ok o) (recordText r)
  | piece {o : Outcome} {s piece : String} (hbody : o.body = .text s)
      (hpiece : piece ∈ blocks (valueText (.string s)))
      (hfree : ¬ ['\n', '\n'] <:+: piece.toList) : IsBodyBlock message (.ok o) piece
  | hint {o : Outcome} (hempty : o.isEmpty = true) (hissues : o.issues = []) :
      IsBodyBlock message (.ok o) emptyHint
  | failure (f : Failure) : IsBodyBlock message (.error f) (recordText (failureRecord message f))

/-- A block of the issues: the text of the record of one issue. -/
inductive IsIssueBlock : Except Failure Outcome → String → Prop where
  | issue {o : Outcome} {i : Issue} (hi : i ∈ o.issues) :
      IsIssueBlock (.ok o) (recordText i.toRecord)

/-- Every block of a body is of one of the four kinds, by the cases of the result. -/
theorem isBodyBlock_of_mem {message block : String} {result : Except Failure Outcome}
    (h : block ∈ bodyBlocks message result) : IsBodyBlock message result block := by
  cases result with
  | error f =>
    obtain rfl := List.mem_singleton.1 h
    exact .failure f
  | ok o =>
    simp only [bodyBlocks] at h
    split at h
    · next hempty =>
      obtain ⟨hempty, hissues⟩ := Bool.and_eq_true_iff.1 hempty
      obtain rfl := List.mem_singleton.1 h
      exact .hint hempty (List.isEmpty_iff.1 hissues)
    · split at h
      · next rs hbody =>
        obtain ⟨r, hr, rfl⟩ := List.mem_map.1 h
        exact .record hbody hr
      · next s hbody =>
        split at h
        · exact absurd h List.not_mem_nil
        · exact .piece hbody h (not_infix_of_mem_blocks h)

/-- And every block of the issues is the text of one. -/
theorem isIssueBlock_of_mem {block : String} {result : Except Failure Outcome}
    (h : block ∈ issueBlocks result) : IsIssueBlock result block := by
  cases result with
  | error f => exact absurd h List.not_mem_nil
  | ok o =>
    obtain ⟨i, hi, rfl⟩ := List.mem_map.1 h
    exact .issue hi

/-- Each chunk holds no more characters than allowed, or it is exactly one block. -/
structure IsPacked (max : Nat) (message : String) (result : Except Failure Outcome) (r : Response) :
    Prop where
  body : ∀ chunk ∈ r.body, chunk.length ≤ max ∨ IsBodyBlock message result chunk
  issues : ∀ chunk ∈ r.issues, chunk.length ≤ max ∨ IsIssueBlock result chunk

end Response

namespace Bot

open Response

/-- **Every answer is packed out of the blocks of its result.** -/
theorem respond_eq (b : Bot) (message : String) (result : Except Failure Outcome) :
    b.respond message result =
      ⟨pack b.settings.maxMessageSize blockJoiner (bodyBlocks message result),
        pack b.settings.maxMessageSize blockJoiner (issueBlocks result)⟩ := by
  cases result with
  | error f => rfl
  | ok o =>
    -- Whether there are issues is asked of them and not of their blocks.
    have hissues : (o.issues.map fun i => recordText i.toRecord).isEmpty = o.issues.isEmpty :=
      List.isEmpty_map
    simp only [respond, ofOutcome, bodyBlocks, issueBlocks, hissues]
    split
    · next hempty =>
      -- The hint is given only without issues, so their blocks are none on both sides.
      rw [List.isEmpty_iff.1 (Bool.and_eq_true_iff.1 hempty).2]
      rfl
    · congr 1
      unfold bodyChunks
      cases o.body with
      | records rs => rfl
      | text s =>
        simp only
        split <;> rfl

/-- Packing leaves no chunk too long, unless it is one block, and the blocks are of the kinds above.
-/
theorem isPacked_respond (b : Bot) (message : String) (result : Except Failure Outcome) :
    (b.respond message result).IsPacked b.settings.maxMessageSize message result := by
  rw [respond_eq]
  exact {
    body := fun chunk hchunk => (length_le_of_mem_pack hchunk).imp_right isBodyBlock_of_mem
    issues := fun chunk hchunk => (length_le_of_mem_pack hchunk).imp_right isIssueBlock_of_mem }

/-- The text of an answer does not depend on how it is packed: chunks joined by the joiner are the
blocks joined by it. -/
theorem text_respond (b : Bot) (message : String) (result : Except Failure Outcome) :
    (b.respond message result).text =
      blockJoiner.intercalate (bodyBlocks message result) ++
        if issueBlocks result = [] then ""
        else "\n\nERRORS:\n" ++ blockJoiner.intercalate (issueBlocks result) := by
  rw [respond_eq]
  unfold text
  simp only [intercalate_pack, List.isEmpty_iff, pack_eq_nil_iff]
  split
  · rw [String.append_empty]
  · rw [String.append_assoc]

/-! ## Settings that differ in the size only

No command and no handler reads the size, so the run is one and the same program under both
settings, and only what is packed at its end differs. -/

variable {b₁ b₂ : Bot} {size : Nat}

/-- No handler looks at the size, by cases on the platform and the verb. -/
theorem handle_maxMessageSize (c : Command) (s : Settings) (size : Nat) (today : Date) :
    Invocation.handle ⟨c, { s with maxMessageSize := size }, today⟩ =
      Invocation.handle ⟨c, s, today⟩ := by
  obtain ⟨p, verb, name, args⟩ := c
  cases p <;> cases verb <;> rfl

/-- No command looks at the size. -/
theorem run_maxMessageSize (h : b₂.settings = { b₁.settings with maxMessageSize := size })
    (today : Date) (message : String) : b₂.run today message = b₁.run today message := by
  -- The parser reads five settings, and they are the same.
  have halike : b₂.settings.ReadAlike b₁.settings := by
    rw [h]
    exact ⟨rfl, rfl, rfl, rfl, rfl⟩
  have hparse : b₂.parse message = b₁.parse message := Command.parse_congr halike message
  rw [run_eq, run_eq, hparse, h]
  simp only [handle_maxMessageSize]

/-- **The size of a message changes nothing of what is said.** Under settings that differ in it
only, a message has answers with one text and leaves one desk; and each chunk of the answers holds
no more characters than allowed, or is exactly one block of the body or of the issues. -/
theorem answer_chunks (h : b₂.settings = { b₁.settings with maxMessageSize := size }) (today : Date)
    (message : String) (d : Desk) :
    (b₁.answer today message d).1.text = (b₂.answer today message d).1.text ∧
      (b₁.answer today message d).2 = (b₂.answer today message d).2 ∧
      ∀ b ∈ [b₁, b₂], (b.answer today message d).1.IsPacked b.settings.maxMessageSize message
        ((b.run today message).on d).1 := by
  have hrun := run_maxMessageSize h today message
  -- The text, the desk, and then the chunks of either answer.
  refine ⟨?_, ?_, fun b _ => ?_⟩
  · rw [answer_eq, answer_eq, hrun, text_respond, text_respond]
  · rw [answer_eq, answer_eq, hrun]
  · rw [answer_eq]
    exact isPacked_respond b message _

/-! Two campaigns in one message, and in two messages that are both too narrow. -/

namespace Narrow

def wide : Bot := ⟨{}, Settings.valid_default⟩

def narrow : Bot := ⟨{ maxMessageSize := 5 }, by decide⟩

def date : Date := ⟨15752, by decide⟩

def desk : Desk where
  mgid := some { data :=
    { campaigns := [NameMap.ofList [("name", .string "one")],
        NameMap.ofList [("name", .string "two")]] } }

def chunks (b : Bot) : List String := (b.answer date "/mgid list" desk).1.body

end Narrow

theorem answer_chunks_narrow :
    (Narrow.wide.answer Narrow.date "/mgid list" Narrow.desk).1.text =
        (Narrow.narrow.answer Narrow.date "/mgid list" Narrow.desk).1.text ∧
      Narrow.chunks Narrow.wide = ["name: one\n\nname: two"] ∧
      Narrow.chunks Narrow.narrow = ["name: one", "name: two"] := by
  have hsize : Narrow.narrow.settings = { Narrow.wide.settings with maxMessageSize := 5 } := rfl
  obtain ⟨htext, -, -⟩ := answer_chunks hsize Narrow.date "/mgid list" Narrow.desk
  exact ⟨htext, by decide +kernel, by decide +kernel⟩

end Bot

end AdOps
