import AdOps.Proofs.Json.Shorter
import AdOps.Proofs.Message.Packing
import AdOps.Proofs.Record.Fields

/-!
# What can be seen of a value

Every number has a digit and every line of a record has a colon, so a value whose text is blank holds
no line and no scalar but blank texts. `Invisible` says this of the value itself, through the texts
that spell other values.

* **`isBlankText_recordText`** — of a record nothing is seen exactly if it has no field.
* **`isBlankText_valueText`** — of a value nothing is seen exactly if it is invisible.
-/

namespace AdOps

/-! ## Numbers

Whatever layout a number is written in, it has a digit, a point or an exponent. -/

namespace Number

/-- A numeral has a digit. -/
theorem exists_digit_numeral (n : Nat) : ∃ c ∈ numeral n, Text.isBlank c = false := by
  obtain ⟨c, hc⟩ := List.exists_mem_of_ne_nil _ (Nat.toDigits_ne_nil (n := n) (b := 10))
  have hdigit := Nat.isDigit_of_mem_toDigits (by decide) (Nat.le_refl 10) hc
  exact ⟨c, hc, Text.isBlank_of_isDigit hdigit⟩

/-- An integer is seen. -/
theorem isBlankText_integerText (n : Int) : Text.isBlankText (integerText n) = false := by
  obtain ⟨c, hc, hblank⟩ := exists_digit_numeral n.natAbs
  unfold integerText
  refine Text.isBlankText_of_mem ?_ hblank
  rw [String.toList_ofList]
  split
  · exact List.mem_cons_of_mem _ hc
  · exact hc

/-- Digits that are set with a point are seen. -/
theorem exists_mem_setPositional {keepPoint : Bool} {digits : List Char} {point : Int}
    (h : ∃ c ∈ digits, Text.isBlank c = false) :
    ∃ c ∈ setPositional keepPoint digits point, Text.isBlank c = false := by
  obtain ⟨c, hc, hblank⟩ := h
  unfold setPositional
  split
  · exact ⟨'0', List.mem_cons_self, by decide⟩
  · dsimp only
    split
    · exact ⟨c, List.mem_append_left _ (List.mem_append_left _ hc), hblank⟩
    · exact ⟨'.', List.mem_append_right _ List.mem_cons_self, by decide⟩

theorem exists_mem_setScientific (digits : List Char) (exponent : Int) :
    ∃ c ∈ setScientific digits exponent, Text.isBlank c = false :=
  ⟨'e', List.mem_append_right _ List.mem_cons_self, by decide⟩

/-- A magnitude is seen in every layout. -/
theorem exists_mem_magnitude (l : Layout) (m : Nat) (q : Int) :
    ∃ c ∈ l.magnitude m q, Text.isBlank c = false := by
  have hdigits := exists_digit_numeral (shortest l.tie m q).digits
  unfold Layout.magnitude
  split
  · exact exists_mem_setPositional ⟨'0', List.mem_cons_self, by decide⟩
  · dsimp only
    split
    · split
      · exact exists_mem_setPositional hdigits
      · exact exists_mem_setScientific _ _
    · exact exists_mem_setPositional hdigits

/-- A floating-point number is seen. -/
theorem isBlankText_text (l : Layout) (x : Float) : Text.isBlankText (l.text x) = false := by
  unfold Layout.text
  split
  · decide
  · split <;> decide
  · next negative m q _ =>
    obtain ⟨c, hc, hblank⟩ := exists_mem_magnitude l m q
    refine Text.isBlankText_of_mem ?_ hblank
    rw [String.toList_ofList]
    split
    · exact List.mem_cons_of_mem _ hc
    · exact hc

end Number

/-- A number is seen. -/
theorem JsonNumber.isBlankText_text (n : JsonNumber) : Text.isBlankText n.text = false := by
  cases n with
  | integer n => exact Number.isBlankText_integerText n
  | float x => exact Number.isBlankText_text _ x

/-! ## Records

A record is written line by line, and each line has the colon behind the name of its field. So a
record is blank only if it has no line, and every field has one. -/

namespace Message

/-- All fields of a record are listed. -/
theorem listed_eq_nil_iff {r : Record} : listed r = [] ↔ r = NameMap.empty := by
  constructor
  · intro h
    obtain ⟨hleading, hothers⟩ := List.append_eq_nil_iff.1 h
    rw [List.filterMap_eq_nil_iff] at hleading
    refine NameMap.ext_get? fun name => ?_
    rw [NameMap.get?_empty]
    by_cases hname : name ∈ leadingFields
    · simpa using hleading name hname
    · -- A field that does not lead would be among the others.
      refine Option.eq_none_iff_forall_ne_some.2 fun v hv => ?_
      have hmem : (name, v) ∈ r.entries := Entries.mem_of_find hv
      have hkept : (name, v) ∈ r.entries.filter fun e => !leadingFields.contains e.1 :=
        List.mem_filter.2 ⟨hmem, by simpa using hname⟩
      rw [hothers] at hkept
      exact absurd hkept List.not_mem_nil
  · rintro rfl
    rfl

/-- **Of a record nothing is seen exactly if it has no field.** -/
theorem isBlankText_recordText {r : Record} :
    Text.isBlankText (recordText r) = true ↔ r = NameMap.empty := by
  have hline : ∀ line ∈ (listed r).map fun e => e.1 ++ ": " ++ scalarText e.2,
      Text.isBlankText line = false := by
    intro line hline
    obtain ⟨e, -, rfl⟩ := List.mem_map.1 hline
    rw [Text.isBlankText_append, Text.isBlankText_append,
      show Text.isBlankText ": " = false by decide, Bool.and_false, Bool.false_and]
  rw [recordText, Text.isBlankText_intercalate (by decide), ← listed_eq_nil_iff]
  cases hlisted : listed r with
  | nil => simp
  | cons e rest =>
    rw [hlisted] at hline
    refine ⟨fun h => ?_, fun h => absurd h (List.cons_ne_nil _ _)⟩
    have hblank := h _ List.mem_cons_self
    rw [hline _ List.mem_cons_self] at hblank
    exact absurd hblank Bool.false_ne_true

/-! ## Values

An array is as visible as its items, and a text that spells an array or an object as that. The proof
follows the writing, with the depth as in `valueTextWithin`, and looks at what a text spells before
it looks at the text. -/

/-- A value of which nothing is seen: a blank text, an object without members, an array of nothing
else, and a text that spells one of the latter two. -/
inductive Invisible : Json → Prop where
  | blank {s : String} (h : Text.isBlankText s = true) : Invisible (.string s)
  | object : Invisible (.object [])
  | array {items : List Json} (h : ∀ v ∈ items, Invisible v) : Invisible (.array items)
  | spelled {s : String} {v : Json} (hparse : Json.parse s = some v) (hv : ∀ t, v ≠ .string t)
      (h : Invisible v) : Invisible (.string s)

/-- Of an object nothing is seen if it has no members. -/
theorem invisible_object_iff {members : List (String × Json)} :
    Invisible (.object members) ↔ members = [] := by
  constructor
  · intro h
    cases h
    rfl
  · rintro rfl
    exact .object

/-- Of an array nothing is seen if nothing is seen of its items. -/
theorem invisible_array_iff {items : List Json} :
    Invisible (.array items) ↔ ∀ v ∈ items, Invisible v := by
  constructor
  · intro h
    cases h with
    | array h => exact h
  · exact .array

/-- A text that spells a value other than a text is as visible as the value. -/
theorem invisible_string_iff {s : String} {v : Json} (hparse : Json.parse s = some v)
    (hv : ∀ t, v ≠ .string t) : Invisible (.string s) ↔ Invisible v := by
  constructor
  · intro h
    cases h with
    | blank hblank =>
      rw [Json.parse_of_isBlankText hblank] at hparse
      exact absurd hparse (by simp)
    | spelled hparse' _ h =>
      rw [hparse] at hparse'
      obtain rfl := Option.some.inj hparse'
      exact h
  · exact .spelled hparse hv

/-- A text that spells neither an object nor an array stays as it is. -/
theorem invisible_string_iff_of_plain {s : String}
    (hobject : ∀ members, Json.parse s ≠ some (.object members))
    (harray : ∀ items, Json.parse s ≠ some (.array items)) :
    Invisible (.string s) ↔ Text.isBlankText s = true := by
  refine ⟨fun h => ?_, .blank⟩
  cases h with
  | blank hblank => exact hblank
  | spelled hparse hv h =>
    cases h with
    | object => exact absurd hparse (hobject [])
    | array => exact absurd hparse (harray _)
    | blank | spelled => exact absurd rfl (hv _)

theorem isBlankText_of_members {members : List (String × Json)} :
    Text.isBlankText (recordText (NameMap.ofList members)) = true ↔ Invisible (.object members) := by
  rw [isBlankText_recordText, NameMap.ofList_eq_empty_iff, invisible_object_iff]

/-- A scalar that is no text is seen. -/
theorem isBlankText_of_scalar {v : Json} (hscalar : Text.isBlankText (scalarText v) = false)
    (hvisible : ¬ Invisible v) : Text.isBlankText (scalarText v) = true ↔ Invisible v := by
  rw [hscalar]
  exact ⟨fun h => absurd h Bool.false_ne_true, fun h => absurd h hvisible⟩

-- The induction goes along the writing of a value and of the items of an array. What a text spells
-- has shorter texts, so one decoding less is enough for it.
mutual

/-- **Of a value nothing is seen exactly if it is invisible**, if its texts are decoded often enough.
-/
theorem isBlankText_valueTextWithin (depth : Nat) (v : Json) (hdepth : textSize v < depth) :
    Text.isBlankText (valueTextWithin depth v) = true ↔ Invisible v := by
  cases v with
  | string s =>
    cases depth with
    | zero => exact absurd hdepth (Nat.not_lt_zero _)
    | succ depth =>
      have hsize : s.length < depth + 1 := hdepth
      rw [valueTextWithin]
      split
      · next members hparse =>
        rw [invisible_string_iff hparse (by simp), isBlankText_of_members]
      · next items hparse =>
        have hshorter : textSizes items < s.length := Json.textSize_lt_of_parse hparse
        rw [invisible_string_iff hparse (by simp), invisible_array_iff,
          Text.isBlankText_intercalate (by decide)]
        exact isBlankText_itemTexts depth items (by omega)
      · next hobject harray =>
        exact (invisible_string_iff_of_plain hobject harray).symm
  | object members =>
    rw [valueTextWithin, isBlankText_of_members]
  | array items =>
    rw [valueTextWithin, Text.isBlankText_intercalate (by decide), invisible_array_iff]
    exact isBlankText_itemTexts depth items hdepth
  | null =>
    rw [valueTextWithin.eq_def]
    exact isBlankText_of_scalar (by decide) nofun
  | bool b =>
    rw [valueTextWithin.eq_def]
    exact isBlankText_of_scalar (by cases b <;> decide) nofun
  | number n =>
    rw [valueTextWithin.eq_def]
    exact isBlankText_of_scalar n.isBlankText_text nofun
termination_by (depth, sizeOf v)

/-- Of the texts of items nothing is seen exactly if the items are invisible. -/
theorem isBlankText_itemTexts (depth : Nat) (items : List Json) (hdepth : textSizes items < depth) :
    (∀ t ∈ itemTexts depth items, Text.isBlankText t = true) ↔ ∀ v ∈ items, Invisible v := by
  cases items with
  | nil =>
    rw [itemTexts]
    exact ⟨fun _ _ hv => absurd hv List.not_mem_nil, fun _ _ ht => absurd ht List.not_mem_nil⟩
  | cons v items =>
    obtain ⟨hv, hitems⟩ := Nat.max_lt.1 hdepth
    rw [itemTexts, List.forall_mem_cons, List.forall_mem_cons,
      isBlankText_valueTextWithin depth v hv, isBlankText_itemTexts depth items hitems]
termination_by (depth, sizeOf items)

end

/-- **Of a value nothing is seen exactly if it is invisible.** -/
theorem isBlankText_valueText {v : Json} :
    Text.isBlankText (valueText v) = true ↔ Invisible v :=
  isBlankText_valueTextWithin _ v (Nat.lt_succ_self _)

example : Text.isBlankText (valueText (.string "[]")) = true :=
  isBlankText_valueText.2
    (.spelled (v := .array []) rfl (by simp) (.array fun _ hv => absurd hv List.not_mem_nil))

end Message

end AdOps
