import AdOps.Proofs.Bot.Chunking
import AdOps.Proofs.Handler.Answers
import AdOps.Proofs.Message.Visible

/-!
# When an answer is blank

An answer with nothing to show is meant to hint at that, and the hint is given if there are no
records, or no field names. It is not given for records without fields, nor for field names that
together spell an array or an object of which nothing is seen; these answers, and no others, are
blank.

* **`isBlankText_text_respond`** — an answer is blank if every block of its body is, and there are no
  issues.
* **`answer_blank_iff`** — the answers that are blank.
-/

namespace AdOps

open Message

/-- The answer has something to show, but nothing of it is seen: records that have no fields, or
field names that are read as an array or an object of which nothing is seen. -/
inductive Outcome.Unseen (wantsFields : Bool) : Outcome → Prop where
  | records {rs : List Record} (h : wantsFields = false) (hne : rs ≠ [])
      (hall : ∀ r ∈ rs, r = NameMap.empty) : Unseen wantsFields ⟨.records rs, []⟩
  | names {names : List String} {s : String} {v : Json} (h : wantsFields = true)
      (hs : s = "\n".intercalate (NameSet.ofList names).toList) (hparse : Json.parse s = some v)
      (hv : ∀ t, v ≠ .string t) (hunseen : Invisible v) : Unseen wantsFields ⟨.text s, []⟩

/-! ## Acknowledgements

Of the texts that handlers answer with, the one that counts resumed widgets is never unseen: it
begins with a word that is no value, so it is shown as it is, and the word is no blank. -/

/-- A text that begins like an acknowledgement spells nothing: its first word is no value. -/
theorem Json.parse_resumed (rest : String) : parse ("Resumed " ++ rest) = none := by
  -- The scan fails on the first word already, whatever comes behind it.
  have hword : "Resumed ".toList.foldlM Scan.step ⟨[], .between⟩ = none := rfl
  unfold parse read tokens?
  rw [String.toList_append, List.foldlM_append, hword]
  rfl

theorem Text.isBlankText_resumed (rest : String) : isBlankText ("Resumed " ++ rest) = false := by
  rw [isBlankText_append]
  exact Bool.false_and _

/-- So an acknowledgement is seen: it is neither blank nor a value that could be unseen. -/
theorem Message.not_invisible_resumed (rest : String) :
    ¬ Invisible (.string ("Resumed " ++ rest)) := by
  intro h
  cases h with
  | blank hblank =>
    rw [Text.isBlankText_resumed] at hblank
    exact absurd hblank Bool.false_ne_true
  | spelled hparse =>
    rw [Json.parse_resumed] at hparse
    exact absurd hparse (by simp)

namespace Response

variable {wantsFields : Bool} {message : String}

/-- Nothing is seen of the body of an answer. -/
def BlankBody (message : String) (result : Except Failure Outcome) : Prop :=
  ∀ block ∈ bodyBlocks message result, Text.isBlankText block = true

/-- **An answer is blank if its body is, and there are no issues.** -/
theorem isBlankText_text_respond (b : Bot) (message : String) (result : Except Failure Outcome) :
    Text.isBlankText (b.respond message result).text = true ↔
      BlankBody message result ∧ issueBlocks result = [] := by
  rw [Bot.text_respond, Text.isBlankText_append, Bool.and_eq_true,
    Text.isBlankText_intercalate (by decide)]
  -- The heading of the issues is no blank, so a text with issues is not blank.
  refine and_congr_right fun _ => ?_
  split
  · next hnone => exact ⟨fun _ => hnone, fun _ => rfl⟩
  · next hissues =>
    rw [Text.isBlankText_append, show Text.isBlankText "\n\nERRORS:\n" = false by decide,
      Bool.false_and]
    exact ⟨fun h => absurd h Bool.false_ne_true, fun h => absurd h hissues⟩

/-- A failure is told. -/
theorem not_blankBody_error (message : String) (f : Failure) : ¬ BlankBody message (.error f) := by
  intro h
  -- The record of a failure has fields, and a record with fields has a text.
  have hempty := isBlankText_recordText.1 (h _ (List.mem_singleton.2 rfl))
  exact absurd (NameMap.ofList_eq_empty_iff.1 hempty) (List.cons_ne_nil _ _)

/-- The hint is seen. -/
theorem not_blankBody_of_isEmpty {o : Outcome} (hempty : o.isEmpty = true)
    (hissues : o.issues = []) : ¬ BlankBody message (.ok o) := by
  intro h
  have hhint : bodyBlocks message (.ok o) = [emptyHint] := if_pos (by simp [hempty, hissues])
  unfold BlankBody at h
  rw [hhint] at h
  exact absurd (h _ (List.mem_singleton.2 rfl)) (by decide)

/-- Nothing is seen of records exactly if none of them has a field. -/
theorem blankBody_records_iff {rs : List Record} (hne : rs ≠ []) :
    BlankBody message (.ok ⟨.records rs, []⟩) ↔ ∀ r ∈ rs, r = NameMap.empty := by
  have hblocks : bodyBlocks message (.ok ⟨.records rs, []⟩) = rs.map recordText :=
    if_neg (by simp [Outcome.isEmpty, hne])
  simp only [BlankBody, hblocks, List.forall_mem_map, isBlankText_recordText]

/-- Nothing is seen of a text exactly if nothing is seen of what it spells: the blocks of it are its
text, cut where lines are blank. -/
theorem blankBody_text_iff {s : String} (hs : Text.isBlankText s = false) :
    BlankBody message (.ok ⟨.text s, []⟩) ↔ Invisible (.string s) := by
  have hblocks : bodyBlocks message (.ok ⟨.text s, []⟩) = blocks (valueText (.string s)) := by
    simp [bodyBlocks, Outcome.isEmpty, hs]
  have hjoiner : Text.isBlankText blockJoiner = true := by decide
  rw [BlankBody, hblocks, ← Text.isBlankText_intercalate hjoiner, intercalate_blocks,
    isBlankText_valueText]

/-- For a list of names both ways to be unseen come to the same thing, and a blank list has the hint
instead. -/
theorem unseen_names_iff {names : List String} {s : String}
    (hs : s = "\n".intercalate (NameSet.ofList names).toList) :
    Outcome.Unseen true ⟨.text s, []⟩ ↔ Text.isBlankText s = false ∧ Invisible (.string s) := by
  constructor
  · intro h
    cases h with
    | names _ _ hparse hv hunseen =>
      refine ⟨?_, .spelled hparse hv hunseen⟩
      refine Bool.eq_false_iff.2 fun hblank => ?_
      rw [Json.parse_of_isBlankText hblank] at hparse
      exact absurd hparse (by simp)
  -- A list that is not blank and still not seen spells a value.
  · rintro ⟨hvisible, h⟩
    cases h with
    | blank hblank => exact absurd hblank (by simp [hvisible])
    | spelled hparse hv hunseen => exact .names rfl hs hparse hv hunseen

/-- **An answer is blank exactly if nothing is seen of what it shows.** -/
theorem blankBody_iff {o : Outcome} (h : o.IsAnswer wantsFields) :
    BlankBody message (.ok o) ∧ o.issues = [] ↔ o.Unseen wantsFields := by
  -- By the kinds of answers: names that were asked for, records, and an acknowledgement.
  cases h with
  | names hwants names =>
    subst hwants
    obtain ⟨s, hs⟩ : ∃ s, s = "\n".intercalate (NameSet.ofList names).toList := ⟨_, rfl⟩
    have hlist : Outcome.fieldList names = ⟨.text s, []⟩ := by rw [hs]; rfl
    rw [hlist, unseen_names_iff hs, and_iff_left rfl]
    cases hblank : Text.isBlankText s with
    | true =>
      -- No names at all: the hint is given.
      have hhint : ¬ BlankBody message (.ok ⟨.text s, []⟩) := not_blankBody_of_isEmpty hblank rfl
      exact ⟨fun h => absurd h hhint, fun h => absurd h.1 (by simp)⟩
    | false => rw [blankBody_text_iff hblank, and_iff_right rfl]
  | records hdata rs issues =>
    subst hdata
    constructor
    · rintro ⟨hblank, hissues⟩
      obtain rfl : issues = [] := hissues
      -- Without records there is the hint too, which is seen.
      have hne : rs ≠ [] := by
        rintro rfl
        exact not_blankBody_of_isEmpty rfl rfl hblank
      exact .records rfl hne ((blankBody_records_iff hne).1 hblank)
    · intro h
      cases h with
      | records _ hne hall => exact ⟨(blankBody_records_iff hne).2 hall, rfl⟩
  | resumed hdata count campaign =>
    subst hdata
    have hrest : "Resumed " ++ Number.integerText (Int.ofNat count) ++ " widgets in campaign " ++
        campaign = "Resumed " ++
          (Number.integerText (Int.ofNat count) ++ (" widgets in campaign " ++ campaign)) := by
      simp only [String.append_assoc]
    rw [hrest]
    constructor
    · rintro ⟨hblank, -⟩
      exact absurd ((blankBody_text_iff (Text.isBlankText_resumed _)).1 hblank)
        (not_invisible_resumed _)
    · intro h
      cases h with
      | names hfalse => exact absurd hfalse Bool.false_ne_true

end Response

namespace Bot

open AdOps.Action Response

/-- **The answers that are blank.** On every desk and for every message, the text of the answer has
nothing but blanks exactly if the command succeeds without issues and what it answers with is unseen:
one record or more that has no field, or names of fields that were asked for and that together are
read as an array or an object of which nothing is seen. -/
theorem answer_blank_iff (b : Bot) (today : Date) (message : String) (d : Desk) :
    Text.isBlankText (b.answer today message d).1.text = true ↔
      ∃ c o, b.parse message = .ok c ∧ ((b.run today message).on d).1 = .ok o ∧
        o.Unseen (c.args.switch "list_fields") := by
  rw [answer_eq, isBlankText_text_respond]
  rcases hrun : (b.run today message).on d with ⟨result, d'⟩
  cases result with
  -- A failure is always told, so its answer is not blank.
  | error f =>
    refine ⟨fun h => absurd h.1 (not_blankBody_error message f), ?_⟩
    rintro ⟨_, _, -, hok, -⟩
    exact absurd hok (by simp)
  | ok o =>
    obtain ⟨c, o', hparse, rfl, hhandle⟩ := run_eq_ok b today message hrun
    -- Shaping keeps the answer one of the three kinds.
    have hanswer : (o'.shape c.args).IsAnswer (c.args.switch "list_fields") :=
      .shape c.args (Handler.isAnswer_handle _ d o' d' hhandle)
    have hissues : issueBlocks (.ok (o'.shape c.args)) = [] ↔ (o'.shape c.args).issues = [] :=
      List.map_eq_nil_iff
    rw [hissues, blankBody_iff hanswer]
    constructor
    · exact fun h => ⟨c, _, hparse, rfl, h⟩
    · rintro ⟨c', o, hparse', hok, h⟩
      obtain rfl := Except.ok.inj (hparse.symm.trans hparse')
      obtain rfl := Except.ok.inj hok
      exact h

/-! A campaign that lacks the field asked for. -/

example :
    (answer ⟨{}, Settings.valid_default⟩ ⟨15746, by decide⟩ "/mgid list /fields:nosuch"
      { mgid := some { data := { campaigns := [NameMap.ofList [("id", .int 1)]] } } }).1.text = "" := by
  decide +kernel

end Bot

end AdOps
