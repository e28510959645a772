import AdOps.Proofs.Json.Shorter
import Mathlib.Data.List.Forall2
import Mathlib.Logic.Relation

/-!
# Decoding comes to an end

To write a value is to write others: of a text the object or the array that it spells, of an array
its items. The former need not be parts of the text, so the recursion does not follow the value. But
what a text spells has only shorter texts, and an item of an array is a part of it, so the longest
text of a value and then the value itself get smaller. `Writes` says what is written with no bound on
how often texts are decoded, and `valueText` is what it says.

* **`wellFounded_calls`** — no chain of values to write goes on for ever.
* **`length_lt_of_reached`** — every text that is reached from a text is shorter.
* **`valueTextWithin_eq`** — decoding more often than the longest text is long changes nothing.
* **`writes_iff`** — writing has one result for every value, which is its text.
-/

namespace AdOps.Message

open Relation (TransGen)

/-! ## What is called for

Writing a value calls for others, in two ways. A text that is decoded is replaced by something with
shorter texts only; an item is a part of its array, and its texts are among those of the array. So
the pair of the longest text and the size of the value goes down in the lexicographic order. -/

/-- The object or the array that a text spells. -/
inductive Spells (s : String) : Json → Prop
  | object {members : List (String × Json)} (h : Json.parse s = some (.object members)) :
      Spells s (.object members)
  | array {items : List Json} (h : Json.parse s = some (.array items)) : Spells s (.array items)

/-- To write the first value, the second one is written. -/
inductive Calls : Json → Json → Prop
  | spelled {s : String} {v : Json} (h : Spells s v) : Calls (.string s) v
  | item {items : List Json} {v : Json} (h : v ∈ items) : Calls (.array items) v

/-- What a text spells is what it is parsed as. -/
theorem Spells.parse {s : String} {v : Json} (h : Spells s v) : Json.parse s = some v := by
  cases h with
  | object h => exact h
  | array h => exact h

/-- **A text spells shorter texts only.** -/
theorem Spells.textSize_lt {s : String} {v : Json} (h : Spells s v) : textSize v < s.length :=
  Json.textSize_lt_of_parse h.parse

/-- An item has no longer text than its array. -/
theorem textSize_le_of_mem {items : List Json} {v : Json} (h : v ∈ items) :
    textSize v ≤ textSize (.array items) :=
  Json.textSizes_le_iff.1 (Nat.le_refl _) v h

/-- What is called for has no longer text. -/
theorem textSize_le_of_calls {v w : Json} (h : Calls v w) : textSize w ≤ textSize v := by
  cases h with
  | spelled h => exact Nat.le_of_lt h.textSize_lt
  | item h => exact textSize_le_of_mem h

/-- Nor has anything that is reached. -/
theorem textSize_le_of_reached {v w : Json} (h : TransGen Calls v w) : textSize w ≤ textSize v := by
  induction h with
  | single h => exact textSize_le_of_calls h
  | tail _ h ih => exact Nat.le_trans (textSize_le_of_calls h) ih

/-- **Every text that is reached from a text is shorter.** -/
theorem length_lt_of_reached {s t : String} (h : TransGen Calls (.string s) (.string t)) :
    t.length < s.length := by
  obtain ⟨v, hfirst, hrest⟩ := Relation.TransGen.head'_iff.1 h
  cases hfirst with
  | spelled hspells =>
    have hle : textSize (.string t) ≤ textSize v := by
      rcases Relation.reflTransGen_iff_eq_or_transGen.1 hrest with heq | hmore
      · exact Nat.le_of_eq (congrArg textSize heq)
      · exact textSize_le_of_reached hmore
    exact Nat.lt_of_le_of_lt hle hspells.textSize_lt

/-- **No chain of values to write goes on for ever.** -/
theorem wellFounded_calls : WellFounded fun w v => Calls v w := by
  have hsmaller : ∀ {w v : Json}, Calls v w →
      Prod.Lex (· < ·) (· < ·) (textSize w, sizeOf w) (textSize v, sizeOf v) := by
    intro w v h
    cases h with
    | spelled h => exact .left _ _ h.textSize_lt
    | @item items _ h =>
      have hpart : sizeOf w < sizeOf (Json.array items) :=
        Nat.lt_trans (List.sizeOf_lt_of_mem h) (by simp)
      -- An item may hold the longest text of the array, and then it is still a part of it.
      rcases Nat.lt_or_eq_of_le (textSize_le_of_mem h) with hlt | heq
      · exact .left _ _ hlt
      · rw [heq]
        exact .right _ hpart
  exact Subrelation.wf hsmaller (InvImage.wf _ (Prod.lex ⟨_, Nat.lt_wfRel.wf⟩ ⟨_, Nat.lt_wfRel.wf⟩).wf)

/-! ## How often texts are decoded

The depth counts how often texts are decoded inside of one another. Every decoding makes the longest
text shorter, so the depth cannot run out before the texts do, and any depth that is great enough
gives the same. -/

/-- The texts of items are written one by one. -/
theorem itemTexts_eq_map (depth : Nat) (items : List Json) :
    itemTexts depth items = items.map (valueTextWithin depth) := by
  induction items with
  | nil => rw [itemTexts, List.map_nil]
  | cons v items ih => rw [itemTexts, List.map_cons, ih]

/-- An array is written as its items with blank lines between them. -/
theorem valueTextWithin_array (depth : Nat) (items : List Json) :
    valueTextWithin depth (.array items) =
      blockJoiner.intercalate (items.map (valueTextWithin depth)) := by
  rw [valueTextWithin, itemTexts_eq_map]

/-- A text is written as what it spells, at the cost of one decoding. -/
theorem valueTextWithin_of_spells {s : String} {v : Json} (h : Spells s v) (depth : Nat) :
    valueTextWithin (depth + 1) (.string s) = valueTextWithin depth v := by
  cases h with
  | object h => rw [valueTextWithin, h, valueTextWithin]
  | array h => rw [valueTextWithin, h, valueTextWithin]

/-- A text that spells neither stays as it is. -/
theorem valueTextWithin_of_plain {s : String} (h : ∀ v, ¬ Spells s v) (depth : Nat) :
    valueTextWithin depth (.string s) = s := by
  cases depth with
  | zero => rw [valueTextWithin]
  | succ depth =>
    rw [valueTextWithin]
    split
    · next hparse => exact absurd (.object hparse) (h _)
    · next hparse => exact absurd (.array hparse) (h _)
    · rfl

/-- **Decoding more often than the longest text is long changes nothing.** -/
theorem valueTextWithin_eq {v : Json} {depth depth' : Nat} (h : textSize v ≤ depth)
    (h' : textSize v ≤ depth') : valueTextWithin depth v = valueTextWithin depth' v := by
  -- Induction along the calls. A text that is decoded uses up one of the depth.
  induction v using wellFounded_calls.induction generalizing depth depth' with
  | _ v ih =>
    cases v with
    | string s =>
      by_cases hspells : ∃ v, Spells s v
      · obtain ⟨v, hv⟩ := hspells
        have hlt := hv.textSize_lt
        have hs : s.length ≤ depth := h
        have hs' : s.length ≤ depth' := h'
        obtain ⟨n, rfl⟩ : ∃ n, depth = n + 1 := ⟨depth - 1, by omega⟩
        obtain ⟨m, rfl⟩ : ∃ m, depth' = m + 1 := ⟨depth' - 1, by omega⟩
        rw [valueTextWithin_of_spells hv, valueTextWithin_of_spells hv]
        exact ih v (.spelled hv) (by omega) (by omega)
      · have hplain : ∀ v, ¬ Spells s v := fun v hv => hspells ⟨v, hv⟩
        rw [valueTextWithin_of_plain hplain, valueTextWithin_of_plain hplain]
    | array items =>
      rw [valueTextWithin_array, valueTextWithin_array]
      refine congrArg _ (List.map_congr_left fun w hw => ?_)
      have hle : textSize w ≤ textSize (.array items) := textSize_le_of_mem hw
      exact ih w (.item hw) (by omega) (by omega)
    | object members => rw [valueTextWithin, valueTextWithin]
    | null | bool | number => rw [valueTextWithin.eq_def, valueTextWithin.eq_def]

theorem valueTextWithin_eq_valueText {v : Json} {depth : Nat} (h : textSize v ≤ depth) :
    valueTextWithin depth v = valueText v :=
  valueTextWithin_eq h (Nat.le_succ _)

/-! ## Writing without a bound

`Writes` leaves the depth out and says for each kind of value what is written. That it is
`valueText` is shown both ways by induction along the calls, where the depth that `valueText` begins
with is great enough for every value that is called for. -/

/-- What is written for a value, where every text that spells an object or an array is decoded. -/
inductive Writes : Json → String → Prop
  | spelled {s t : String} {v : Json} (hspells : Spells s v) (h : Writes v t) :
      Writes (.string s) t
  | plain {s : String} (h : ∀ v, ¬ Spells s v) : Writes (.string s) s
  | object (members : List (String × Json)) :
      Writes (.object members) (recordText (NameMap.ofList members))
  | array {items : List Json} {texts : List String} (h : List.Forall₂ Writes items texts) :
      Writes (.array items) (blockJoiner.intercalate texts)
  | null : Writes .null (scalarText .null)
  | bool (b : Bool) : Writes (.bool b) (scalarText (.bool b))
  | number (n : JsonNumber) : Writes (.number n) (scalarText (.number n))

/-- A text that spells an object or an array is written as that. -/
theorem valueText_of_spells {s : String} {v : Json} (h : Spells s v) :
    valueText (.string s) = valueText v := by
  have hdepth : textSize v ≤ s.length := Nat.le_of_lt h.textSize_lt
  calc
    valueText (.string s) = valueTextWithin s.length v := valueTextWithin_of_spells h s.length
    _ = valueText v := valueTextWithin_eq_valueText hdepth

/-- The items of an array are written as values of their own. -/
theorem valueText_array (items : List Json) :
    valueText (.array items) = blockJoiner.intercalate (items.map valueText) := by
  unfold valueText
  rw [valueTextWithin_array]
  refine congrArg _ (List.map_congr_left fun v hv => ?_)
  exact valueTextWithin_eq_valueText (Nat.le_succ_of_le (textSize_le_of_mem hv))

/-- A text in an array that a text spells is decoded in its turn. -/
example : valueText (.string "[\"[1, 2]\"]") = "1\n\n2" := by cbv

/-- **The text of a value is what is written for it.** -/
theorem writes_valueText (v : Json) : Writes v (valueText v) := by
  induction v using wellFounded_calls.induction with
  | _ v ih =>
    cases v with
    | string s =>
      by_cases hspells : ∃ v, Spells s v
      · obtain ⟨v, hv⟩ := hspells
        rw [valueText_of_spells hv]
        exact .spelled hv (ih v (.spelled hv))
      · have hplain : ∀ v, ¬ Spells s v := fun v hv => hspells ⟨v, hv⟩
        rw [valueText, valueTextWithin_of_plain hplain]
        exact .plain hplain
    | array items =>
      rw [valueText_array]
      apply Writes.array
      rw [List.forall₂_map_right_iff]
      exact List.forall₂_same.2 fun w hw => ih w (.item hw)
    | object members =>
      rw [valueText, valueTextWithin]
      exact .object members
    | null =>
      rw [valueText, valueTextWithin.eq_def]
      exact .null
    | bool b =>
      rw [valueText, valueTextWithin.eq_def]
      exact .bool b
    | number n =>
      rw [valueText, valueTextWithin.eq_def]
      exact .number n

/-- Nothing else is written for a value than its text. -/
theorem valueText_of_writes {v : Json} {t : String} (h : Writes v t) : valueText v = t := by
  induction v using wellFounded_calls.induction generalizing t with
  | _ v ih =>
    cases h with
    | spelled hspells h =>
      rw [valueText_of_spells hspells]
      exact ih _ (.spelled hspells) h
    | plain hplain => rw [valueText, valueTextWithin_of_plain hplain]
    | @array items texts h =>
      obtain ⟨hlength, hpairs⟩ := List.forall₂_iff_zip.1 h
      have htexts : List.Forall₂ (valueText · = ·) items texts :=
        List.forall₂_iff_zip.2 ⟨hlength, fun hpair =>
          ih _ (.item (List.of_mem_zip hpair).1) (hpairs hpair)⟩
      rw [← List.forall₂_map_left_iff, List.forall₂_eq_eq_eq] at htexts
      rw [valueText_array, htexts]
    | object | null | bool | number => rw [valueText, valueTextWithin.eq_def]

/-- **Writing has one result for every value, which is its text.** -/
theorem writes_iff {v : Json} {t : String} : Writes v t ↔ valueText v = t := by
  constructor
  · exact valueText_of_writes
  · rintro rfl
    exact writes_valueText v

/-- **Writing comes to an end for every value.** No chain of values to write goes on for ever, however
deep texts spell further texts: every text that is reached from a text is shorter, and nothing is
reached from an object. With no bound on how often texts are decoded there is one result, and to decode
them as often as the longest is long is enough for it. -/
theorem writing_ends :
    (WellFounded fun w v => Calls v w) ∧
      (∀ s t, TransGen Calls (.string s) (.string t) → t.length < s.length) ∧
      (∀ members v, ¬ Calls (.object members) v) ∧
      (∀ v t, Writes v t ↔ valueText v = t) ∧
      ∀ v depth, textSize v ≤ depth → valueTextWithin depth v = valueText v :=
  ⟨wellFounded_calls, fun _ _ => length_lt_of_reached, fun _ _ => nofun, fun _ _ => writes_iff,
    fun _ _ => valueTextWithin_eq_valueText⟩

end AdOps.Message
