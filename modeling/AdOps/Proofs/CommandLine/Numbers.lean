import AdOps.Proofs.CommandLine.Complete
import AdOps.Proofs.Handler.Coincidence
import AdOps.Proofs.Number.Numeral

/-!
# The numbers on a line

A threshold and a limit are recognised by their digits, and read as numbers when the arguments are
put together. A word of digits that cannot be read is kept as a text, and the views of this text find
no number in it either. For a threshold this fails the handler; for a limit the handler falls back to
the setting, as if no limit had been typed. So what is typed is what is used exactly if it is ASCII
and, for a limit, within the range of integers.

* **`number?_threshold`**, **`integer?_limit`** — the views of a captured threshold and limit.
* **`execute_withLimit`** — the limit that a command runs by.
* **`parse_numbers`** — what becomes of the numbers of an accepted line.
-/

namespace AdOps

open Text (IsAscii decimalValue)

/-! ## Words without blanks

A view of a text cuts blanks off before it reads a number, and a word has none. So a text that was
captured as no number is viewed as no number: the view makes the same attempt again. -/

/-- No word of a line has a blank. -/
theorem not_isBlank_of_mem_freeWords {cs : List Char} {word : String} (h : word ∈ freeWords cs) :
    ∀ c ∈ word.toList, Text.isBlank c = false := by
  rw [freeWords_eq] at h
  obtain ⟨w, hw, rfl⟩ := List.mem_map.1 (CommandLine.mem_of_mem_positionals h)
  rw [String.toList_ofList]
  exact ((Text.spaced_runs cs).isWord w hw).2

namespace SlotKind

variable {word : String}

/-- **The number that a captured threshold is viewed as** is the number it is read as. -/
theorem number?_threshold (hword : ∀ c ∈ word.toList, Text.isBlank c = false) :
    (threshold.argument word).number? = Number.float? word := by
  unfold argument
  -- If the word was kept as a text, then the view reads that text, and fails as before.
  cases hread : Number.float? word with
  | none =>
    show Number.float? (Text.trim word) = none
    rw [Text.trim_eq_self hword, hread]
  | some x => rfl

/-- **The integer that a captured limit is viewed as** is the integer it is read as. -/
theorem integer?_limit (hword : ∀ c ∈ word.toList, Text.isBlank c = false) :
    (limit.argument word).integer? = Number.integer? word := by
  unfold argument
  cases hread : Number.integer? word with
  | none =>
    show Number.integer? (Text.trim word) = none
    rw [Text.trim_eq_self hword, hread]
  | some n => rfl

end SlotKind

/-! ## The limit that a command runs by

Only the handler for the best widgets reads the limit, and it reads it once, as an integer or else
as the setting. So a command runs as it would with this integer written into its limit. The lemmas
say of each thing that the handler reads that it is not the limit, or is this integer. -/

namespace Command

/-- The command with another limit on the number of widgets. -/
def withLimit (c : Command) (n : Int) : Command :=
  { c with args := c.args.insert "filter_limit" (.integer n) }

variable {c : Command} {s : Settings} {today : Date}

/-- The other arguments stay. -/
theorem get?_withLimit (n : Int) {name : String} (h : name ≠ "filter_limit") :
    (c.withLimit n).args.get? name = c.args.get? name := by
  unfold withLimit
  rw [NameMap.get?_insert, if_neg h]

/-- The other texts stay. -/
theorem text?_withLimit (n : Int) {name : String} (h : name ≠ "filter_limit") :
    (c.withLimit n).args.text? name = c.args.text? name := by
  unfold Arguments.text?
  rw [get?_withLimit n h]

/-- The limit is the integer that was written. -/
theorem integer?_withLimit (n : Int) : (c.withLimit n).args.integer? "filter_limit" = some n := by
  unfold Arguments.integer? withLimit
  rw [NameMap.get?_insert, if_pos rfl]
  rfl

/-- The table of widgets does not depend on the limit: the campaign and the window are found under
other names. -/
theorem widgetTable_withLimit (n : Int) : Handler.widgetTable ⟨c.withLimit n, s, today⟩ =
    Handler.widgetTable ⟨c, s, today⟩ := by
  have hcampaign : Invocation.campaign ⟨c.withLimit n, s, today⟩ =
      Invocation.campaign ⟨c, s, today⟩ := by
    unfold Invocation.campaign Invocation.campaign? Invocation.args
    rw [text?_withLimit n (by decide)]
  have hwindow : Invocation.window ⟨c.withLimit n, s, today⟩ =
      Invocation.window ⟨c, s, today⟩ := by
    have hnames : ∀ p : Platform, ∀ name ∈ Invocation.windowNames p, name ≠ "filter_limit" := by
      intro p
      cases p <;> decide
    exact Invocation.window_congr rfl rfl rfl fun name hname => text?_withLimit n (hnames _ _ hname)
  unfold Handler.widgetTable
  rw [hcampaign, hwindow]
  rfl

/-- The handler of the best widgets depends on the limit by this integer only. -/
theorem widgetsTop_withLimit (s : Settings) (today : Date) :
    Handler.widgetsTop ⟨c, s, today⟩ = Handler.widgetsTop
      ⟨c.withLimit ((c.args.integer? "filter_limit").getD s.defaultFilterNumber), s, today⟩ := by
  generalize hn : (c.args.integer? "filter_limit").getD s.defaultFilterNumber = n
  have hfields : Invocation.wantsFields ⟨c.withLimit n, s, today⟩ =
      Invocation.wantsFields ⟨c, s, today⟩ := by
    unfold Invocation.wantsFields Arguments.switch Invocation.args
    rw [get?_withLimit n (by decide)]
  unfold Handler.widgetsTop
  rw [hfields, widgetTable_withLimit]
  unfold Invocation.args
  rw [integer?_withLimit, Option.getD_some, hn]
  rfl

/-- **The limit that a command runs by** is the integer that its limit is viewed as, or else the
setting. -/
theorem execute_withLimit (hverb : c.verb = .widgetsTop) (s : Settings) (today : Date) :
    Invocation.execute ⟨c, s, today⟩ = Invocation.execute
      ⟨c.withLimit ((c.args.integer? "filter_limit").getD s.defaultFilterNumber), s, today⟩ := by
  have htop : ∀ p : Platform, handlerOf p .widgetsTop = Handler.widgetsTop := by
    intro p
    cases p <;> rfl
  generalize hn : (c.args.integer? "filter_limit").getD s.defaultFilterNumber = n
  have hhandle : Invocation.handle ⟨c, s, today⟩ = Invocation.handle ⟨c.withLimit n, s, today⟩ := by
    show handlerOf c.platform c.verb _ = handlerOf c.platform c.verb _
    rw [hverb, htop, ← hn]
    exact widgetsTop_withLimit s today
  -- The body is shaped by the fields and the limit of rows, which have names of their own.
  have hshape : ∀ o : Outcome, o.shape (c.withLimit n).args = o.shape c.args := by
    intro o
    unfold Outcome.shape Outcome.shapeBody Arguments.list? Arguments.integer? Arguments.switch
    rw [get?_withLimit n (by decide), get?_withLimit n (by decide), get?_withLimit n (by decide)]
  unfold Invocation.execute
  rw [hhandle]
  unfold Invocation.args
  simp only [hshape]

/-! ## Accepted lines

A captured word is held under the name of its slot, as the kind of the slot reads it. Thresholds and
limits are the kinds that may be kept as a text. -/

/-- What a command makes of a captured threshold. -/
structure HoldsThreshold (c : Command) (s : Settings) (word : String) : Prop where
  view : c.args.number? "threshold" = Number.float? word
  present : (c.args.number? "threshold").isSome = true ↔ IsAscii word.toList
  used : ∀ today x, c.args.number? "threshold" = some x →
    Invocation.number ⟨c, s, today⟩ "threshold" = .ok x
  refused : ∀ today, c.args.number? "threshold" = none →
    Invocation.number ⟨c, s, today⟩ "threshold" = .error (.invalidFlag "threshold" word)

/-- What a command makes of a captured limit. -/
structure HoldsLimit (c : Command) (s : Settings) (word : String) : Prop where
  view : ∀ n, c.args.integer? "filter_limit" = some n ↔
    IsAscii word.toList ∧ n = decimalValue word.toList ∧ n ≤ Number.maxInt64
  /-- The command runs by the number on the line, or else by the setting. -/
  run : ∀ today, Invocation.execute ⟨c, s, today⟩ = Invocation.execute
    ⟨c.withLimit (if IsAscii word.toList ∧ (decimalValue word.toList : Int) ≤ Number.maxInt64 then
      decimalValue word.toList else s.defaultFilterNumber), s, today⟩

namespace IsResolved

variable {head : Head} {cs rest : List Char} {g : Grammar} {captures : List Capture}

/-- What is known of a captured word. -/
theorem facts_of_mem (h : IsResolved s head (freeWords rest) (fun f => f.arguments cs) g captures c)
    {capture : Capture} (hmem : capture ∈ captures) :
    capture.slot ∈ g.slots ∧ capture.slot.kind.fits s capture.word = true ∧
      (∀ c ∈ capture.word.toList, Text.isBlank c = false) ∧
      c.args.get? capture.slot.name = capture.slot.held? s head.verb (some capture.word) := by
  obtain ⟨-, hfill⟩ := Grammar.choose?_eq_some h.grammar
  obtain ⟨hsub, hfits⟩ := fill_eq_some hfill
  have hslot : capture.slot ∈ g.slots := hsub.subset (List.mem_map_of_mem hmem)
  have hword : capture.word ∈ freeWords rest := by
    rw [← map_word_of_fill hfill]
    exact List.mem_map_of_mem hmem
  refine ⟨hslot, hfits capture hmem, not_isBlank_of_mem_freeWords hword, ?_⟩
  rw [h.get?_slot hslot, capturedWord?_eq h.nodup_captures hmem]

/-- **A captured threshold** is viewed as the number it is read as, and the handler takes this
number or refuses the word. -/
theorem holdsThreshold
    (h : IsResolved s head (freeWords rest) (fun f => f.arguments cs) g captures c)
    {capture : Capture} (hmem : capture ∈ captures) (hname : capture.slot.name = "threshold") :
    c.HoldsThreshold s capture.word := by
  obtain ⟨hslot, hfits, hword, hheld⟩ := h.facts_of_mem hmem
  have hkind : capture.slot.kind = .threshold :=
    (Grammar.slot_kind g h.sublist_slots.1 capture.slot hslot).1 hname
  have hget : c.args.get? "threshold" = some (SlotKind.threshold.argument capture.word) := by
    rw [← hname, hheld, Slot.held?_some fun hid => absurd (hkind.symm.trans hid) (by simp), hkind]
  have hview : c.args.number? "threshold" = Number.float? capture.word := by
    rw [← SlotKind.number?_threshold hword]
    unfold Arguments.number?
    rw [hget]
    rfl
  rw [hkind] at hfits
  refine ⟨hview, ?_, fun today x hx => ?_, fun today hnone => ?_⟩
  · rw [hview]
    exact Number.isSome_float?_iff hfits
  · unfold Invocation.number Invocation.args
    rw [hx]
  -- Without a number the word was kept as a text, which is what the failure quotes.
  · have hunread : SlotKind.threshold.argument capture.word = .text capture.word := by
      unfold SlotKind.argument
      rw [← hview, hnone]
      rfl
    unfold Invocation.number Invocation.args
    rw [hnone, hget, hunread]
    rfl

/-- **A captured limit** is viewed as the integer it is read as, and the command runs by this
integer or by the setting. -/
theorem holdsLimit
    (h : IsResolved s head (freeWords rest) (fun f => f.arguments cs) g captures c)
    {capture : Capture} (hmem : capture ∈ captures) (hname : capture.slot.name = "filter_limit") :
    c.HoldsLimit s capture.word := by
  obtain ⟨hslot, hfits, hword, hheld⟩ := h.facts_of_mem hmem
  have hg := h.sublist_slots.1
  have hkind : capture.slot.kind = .limit := (Grammar.slot_kind g hg capture.slot hslot).2.1 hname
  have hverb : c.verb = .widgetsTop := by
    -- Only one grammar has a slot for a limit.
    have htop : ∀ g ∈ Grammar.all, ∀ slot ∈ g.slots, slot.name = "filter_limit" →
        g.verb = .widgetsTop := by decide
    rw [← h.verb, htop g hg capture.slot hslot hname]
  have hview : c.args.integer? "filter_limit" = Number.integer? capture.word := by
    rw [← SlotKind.integer?_limit hword]
    unfold Arguments.integer?
    rw [← hname, hheld, Slot.held?_some fun hid => absurd (hkind.symm.trans hid) (by simp), hkind]
    rfl
  rw [hkind] at hfits
  have hread : ∀ n, c.args.integer? "filter_limit" = some n ↔ IsAscii capture.word.toList ∧
      n = decimalValue capture.word.toList ∧ n ≤ Number.maxInt64 := fun n => by
    rw [hview]
    exact Number.integer?_eq_some_iff hfits
  refine ⟨hread, fun today => ?_⟩
  rw [execute_withLimit hverb s today]
  congr 3
  -- The limit on the line is used if its digits are ASCII and denote a 64-bit integer.
  split
  · next hin => rw [(hread _).2 ⟨hin.1, rfl, hin.2⟩, Option.getD_some]
  · next hout =>
    have hnone : c.args.integer? "filter_limit" = none := by
      refine Option.eq_none_iff_forall_not_mem.2 fun n hn => hout ?_
      obtain ⟨hascii, rfl, hle⟩ := (hread n).1 hn
      exact ⟨hascii, hle⟩
    rw [hnone, Option.getD_none]

end IsResolved

/-- **What becomes of the numbers of an accepted line.** A captured threshold is viewed as the number
it is read as, and there is one exactly if the threshold is ASCII; else the handler that needs it
refuses it by name. A captured limit is viewed as the number that its digits denote exactly if it is
ASCII and this number is a 64-bit integer, and then the command runs by it; else it runs as if the
default were typed. -/
theorem parse_numbers {text : String} (h : parse s text = .ok c) :
    ∃ head rest g captures, Head.read? text.toList = some (head, rest) ∧
      IsResolved s head (freeWords rest) (fun f => f.arguments text.toList) g captures c ∧
      ∀ capture ∈ captures,
        (capture.slot.name = "threshold" → c.HoldsThreshold s capture.word) ∧
        (capture.slot.name = "filter_limit" → c.HoldsLimit s capture.word) := by
  unfold parse at h
  split at h
  · next head rest hhead =>
    obtain ⟨g, captures, hresolved⟩ := exists_isResolved h
    exact ⟨head, rest, g, captures, hhead, hresolved, fun capture hmem =>
      ⟨hresolved.holdsThreshold hmem, hresolved.holdsLimit hmem⟩⟩
  · exact absurd h (throw_ne_ok _ _)

/-- A limit that is too great for an integer: the command runs by the default. -/
theorem parse_numbers_great :
    ∃ c, parse {} "/mgid widgets-top 1 99999999999999999999" = .ok c ∧
      c.args.integer? "filter_limit" = none ∧
      ∀ today, Invocation.execute ⟨c, {}, today⟩ = Invocation.execute ⟨c.withLimit 5, {}, today⟩ := by
  let text := "/mgid widgets-top 1 99999999999999999999"
  have haccepted : (parse {} text).isOk = true := by decide +kernel
  -- The word stands in the slot for a limit.
  have hcaptures : ((Head.read? text.toList).bind fun found =>
      (Grammar.choose? {} found.1.verb (freeWords found.2)).map (·.2)) =
        some [⟨Grammar.campaign, "1"⟩, ⟨Grammar.anyLimit, "99999999999999999999"⟩] := by
    decide +kernel
  obtain ⟨c, hparse⟩ := isOk_iff.1 haccepted
  obtain ⟨head, rest, g, captures, hhead, hresolved, hnumbers⟩ := parse_numbers hparse
  rw [hhead, Option.bind_some, hresolved.grammar] at hcaptures
  obtain rfl := Option.some.inj hcaptures
  have hlimit := (hnumbers ⟨Grammar.anyLimit, "99999999999999999999"⟩ (by simp)).2 rfl
  have hgreat : ¬ ((decimalValue "99999999999999999999".toList : Int) ≤ Number.maxInt64) := by
    decide
  refine ⟨c, hparse, ?_, fun today => ?_⟩
  · refine Option.eq_none_iff_forall_not_mem.2 fun n hn => ?_
    obtain ⟨-, rfl, hle⟩ := (hlimit.view n).1 hn
    exact hgreat hle
  · rw [hlimit.run today, if_neg fun h => hgreat h.2]

end Command

end AdOps
