import Mathlib.Data.List.Basic

/-!
# Places and bytes

A text is stored as bytes, and a character takes one to four of them. Where a character begins is a
boundary of the bytes, and so is the end of the text; the order of places is the order of their bytes.

* **`byteAt_lt_iff`**, **`byteAt_le_iff`** — places are ordered like their bytes.
* **`isValid_byteAt`** — every place is a boundary of the bytes.
-/

namespace AdOps.Text

variable {cs : List Char} {i j : Nat} {c : Char}

/-- The number of bytes of the characters. -/
def byteSize (cs : List Char) : Nat := (String.ofList cs).utf8ByteSize

/-- The byte at which the character at a place begins. -/
def byteAt (cs : List Char) (place : Nat) : Nat := byteSize (cs.take place)

/-- Bytes add up, as the characters of two texts do not merge into one another. -/
theorem byteSize_append (cs ds : List Char) : byteSize (cs ++ ds) = byteSize cs + byteSize ds := by
  unfold byteSize
  rw [String.ofList_append, String.utf8ByteSize_append]

/-- One character by itself takes what its encoding takes. -/
theorem byteSize_singleton (c : Char) : byteSize [c] = c.utf8Size := by
  unfold byteSize
  rw [String.ofList_cons]
  simp

theorem byteAt_length (cs : List Char) : byteAt cs cs.length = byteSize cs := by
  unfold byteAt
  rw [List.take_length]

theorem byteAt_zero (cs : List Char) : byteAt cs 0 = 0 := rfl

/-- A character takes its own number of bytes. -/
theorem byteAt_succ (h : cs[i]? = some c) : byteAt cs (i + 1) = byteAt cs i + c.utf8Size := by
  unfold byteAt
  rw [List.take_add_one, h, Option.toList_some, byteSize_append, byteSize_singleton]

/-- No character is encoded in nothing, so the next one begins later. -/
theorem byteAt_lt_succ (h : i < cs.length) : byteAt cs i < byteAt cs (i + 1) := by
  rw [byteAt_succ (List.getElem?_eq_getElem h)]
  exact Nat.lt_add_of_pos_right (Char.utf8Size_pos _)

/-- A later place has a later byte. The induction is on the later place, one character at a time. -/
theorem byteAt_lt (hlt : i < j) (hj : j ≤ cs.length) : byteAt cs i < byteAt cs j := by
  induction j with
  | zero => exact absurd hlt (Nat.not_lt_zero i)
  | succ j ih =>
    -- The place just before the last step, or one before that.
    rcases Nat.lt_succ_iff_lt_or_eq.1 hlt with hlt | rfl
    · exact Nat.lt_trans (ih hlt (Nat.le_of_succ_le hj)) (byteAt_lt_succ hj)
    · exact byteAt_lt_succ hj

/-- **Places are ordered like their bytes.** -/
theorem byteAt_lt_iff (hi : i ≤ cs.length) (hj : j ≤ cs.length) :
    byteAt cs i < byteAt cs j ↔ i < j := by
  constructor
  · intro h
    -- Bytes that are in order leave no other order for their places.
    rcases Nat.lt_trichotomy i j with hlt | rfl | hgt
    · exact hlt
    · exact absurd h (Nat.lt_irrefl _)
    · exact absurd h (Nat.lt_asymm (byteAt_lt hgt hi))
  · exact fun hlt => byteAt_lt hlt hj

theorem byteAt_le_iff (hi : i ≤ cs.length) (hj : j ≤ cs.length) :
    byteAt cs i ≤ byteAt cs j ↔ i ≤ j := by
  rw [← Nat.not_lt, ← Nat.not_lt, byteAt_lt_iff hj hi]

/-- **Every place is a boundary of the bytes.** -/
theorem isValid_byteAt (cs : List Char) (i : Nat) :
    (String.Pos.Raw.mk (byteAt cs i)).IsValid (String.ofList cs) :=
  String.Pos.Raw.isValid_ofList.2 ⟨i, rfl⟩

end AdOps.Text
