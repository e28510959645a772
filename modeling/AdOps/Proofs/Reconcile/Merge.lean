import Mathlib.Data.List.Basic
import AdOps.Proofs.Number.Whole
import AdOps.Proofs.Reconcile.Keyed

/-!
# What a merge on a key is made of

Each left record has one share in a merge: nothing if it has no key, a combined row if its key occurs
on the right, and itself, in an outer merge, if its key does not. The right records that stand alone
follow in an outer merge. Shares and combined rows are said here without the search through the other
side and without the building of a record, and two `iff`s tie them to the merge.

* **`holds_iff`** — the sum of two numbers is the number that is computed of them.
* **`isCombined_iff`** — the combined record is determined field by field.
* **`leftShare_iff`** — each left record has exactly one share.
* **`mergeOn_shares`** — a merge puts the shares together.
-/

namespace AdOps.Reconcile

/-! ## Sums

Numbers are added as floating-point numbers, and a sum that is whole and small enough goes back to
an integer. `Holds` says which value stands for a sum by the rational number it is. -/

/-- The value is what JSON has for a floating-point number: an integer if the number is one below
`2^63`, else the number as it is, and `null` if it is not finite. -/
inductive Holds (x : Float) : Json → Prop where
  | integer {n : Int} (hx : Number.rational? x = some (n : ℚ)) (hn : n.natAbs < 2 ^ 63) :
      Holds x (.number (.integer n))
  | float {r : ℚ} (hx : Number.rational? x = some r)
      (hr : ∀ n : Int, r = n → 2 ^ 63 ≤ n.natAbs) : Holds x (.number (.float x))
  | infinite (hx : Number.rational? x = none) : Holds x .null

theorem ofFloat_of_isFinite {x : Float} (h : Number.isFinite x = true) :
    Json.ofFloat x = .number (.float x) := if_pos h

/-- What the merge computes for a sum holds it. -/
theorem holds_sum (a b : Float) : Holds (a + b) (sum a b) := by
  unfold sum
  dsimp only
  cases hr : Number.rational? (a + b) with
  | none =>
    have hfinite : ¬ Number.isFinite (a + b) = true := fun h => by
      rw [Number.isFinite_iff, hr] at h
      exact absurd h (by simp)
    have hwhole : Number.whole? (a + b) = none := by
      refine Option.eq_none_iff_forall_ne_some.2 fun n hn => ?_
      rw [Number.whole?_eq_some_iff, hr] at hn
      exact absurd hn (by simp)
    rw [hwhole]
    dsimp only
    rw [Json.ofFloat, if_neg hfinite]
    exact .infinite hr
  | some r =>
    have hfinite : Number.isFinite (a + b) = true := Number.isFinite_iff.2 (by rw [hr]; rfl)
    rw [ofFloat_of_isFinite hfinite]
    cases hwhole : Number.whole? (a + b) with
    | none =>
      refine .float hr fun n hn => ?_
      rw [hn, ← Number.whole?_eq_some_iff, hwhole] at hr
      exact absurd hr (by simp)
    | some n =>
      have hn := Number.whole?_eq_some_iff.1 hwhole
      dsimp only
      split
      · next hlt => exact .integer hn hlt
      · next hge =>
        -- The rational number is this integer and no other.
        refine .float hn fun m hm => ?_
        rw [← Int.cast_injective hm]
        exact Nat.le_of_not_lt hge

/-- A number is held in one way. -/
theorem Holds.unique {x : Float} {v w : Json} (hv : Holds x v) (hw : Holds x w) : v = w := by
  cases hv with
  | infinite hx =>
    cases hw with
    | infinite => rfl
    | integer hx' => exact absurd (hx.symm.trans hx') (by simp)
    | float hx' => exact absurd (hx.symm.trans hx') (by simp)
  | integer hx hn =>
    cases hw with
    | infinite hx' => exact absurd (hx'.symm.trans hx) (by simp)
    | integer hx' =>
      have heq := Int.cast_injective (Option.some.inj (hx.symm.trans hx'))
      rw [heq]
    | float hx' hr => exact absurd hn (Nat.not_lt.2 (hr _ (Option.some.inj (hx'.symm.trans hx))))
  | float hx hr =>
    cases hw with
    | infinite hx' => exact absurd (hx'.symm.trans hx) (by simp)
    | float => rfl
    | integer hx' hn =>
      exact absurd hn (Nat.not_lt.2 (hr _ (Option.some.inj (hx.symm.trans hx'))))

/-- **The sum of two numbers holds what is computed of them**, and nothing else does. -/
theorem holds_iff {a b : Float} {v : Json} : Holds (a + b) v ↔ v = sum a b :=
  ⟨fun h => h.unique (holds_sum a b), fun h => h ▸ holds_sum a b⟩

/-! ## Combined records

Two values of one field come to one value. There is a constructor for each way: one side lacks the
field, it is the key, both values are numbers, or they clash and the left one stays. -/

/-- What a field of a combined record holds, by what the left record and the right one hold in it.
-/
inductive CombinedField (isKey : Prop) : Option Json → Option Json → Option Json → Prop where
  | absent : CombinedField isKey none none none
  | left {v : Json} : CombinedField isKey (some v) none (some v)
  | right {v : Json} : CombinedField isKey none (some v) (some v)
  | key {v u : Json} (h : isKey) : CombinedField isKey (some v) (some u) (some v)
  | added {a b : JsonNumber} {v : Json} (h : ¬ isKey) (hv : Holds (a.toFloat + b.toFloat) v) :
      CombinedField isKey (some (.number a)) (some (.number b)) (some v)
  | clash {v u : Json} (h : ¬ isKey) (hclash : ∀ a b, ¬ (v = .number a ∧ u = .number b)) :
      CombinedField isKey (some v) (some u) (some v)

/-- The row is the left record combined with the right one. -/
def IsCombined (key : String) (left right row : Record) : Prop :=
  ∀ field, CombinedField (field = key) (left.get? field) (right.get? field) (row.get? field)

theorem combineValue_none (v : Json) : combineValue v none = v := by
  cases v <;> rfl

/-- Unless both are numbers the left value stays. -/
theorem combineValue_of_clash {v u : Json} (h : ∀ a b, ¬ (v = .number a ∧ u = .number b)) :
    combineValue v (some u) = v := by
  unfold combineValue
  split
  · next a b heq => exact absurd ⟨rfl, Option.some.inj heq⟩ (h a b)
  · rfl

/-- What a field of the combined record holds is what the merge computes for it. -/
theorem combinedField_iff {isKey : Prop} [Decidable isKey] {l r w : Option Json} :
    CombinedField isKey l r w ↔
      w = (l.map fun v => if isKey then v else combineValue v r).or r := by
  constructor
  · intro h
    cases h with
    | absent => rfl
    | left => rw [Option.map_some, combineValue_none, ite_self]; rfl
    | right => rfl
    | key h => rw [Option.map_some, if_pos h]; rfl
    | added h hv => rw [Option.map_some, if_neg h, holds_iff.1 hv]; rfl
    | clash h hclash => rw [Option.map_some, if_neg h, combineValue_of_clash hclash]; rfl
  · rintro rfl
    -- By what the two sides hold. Only where both hold something is there a choice.
    cases l with
    | none => cases r <;> constructor
    | some v =>
      cases r with
      | none =>
        rw [Option.map_some, combineValue_none, ite_self]
        exact .left
      | some u =>
        rw [Option.map_some]
        by_cases h : isKey
        · rw [if_pos h]
          exact .key h
        · rw [if_neg h]
          by_cases hclash : ∀ a b, ¬ (v = .number a ∧ u = .number b)
          · rw [combineValue_of_clash hclash]
            exact .clash h hclash
          · push Not at hclash
            obtain ⟨a, b, rfl, rfl⟩ := hclash
            exact .added h (holds_sum _ _)

/-- **The combined record is determined field by field.** -/
theorem isCombined_iff {key : String} {left right row : Record} :
    IsCombined key left right row ↔ row = combine key left right := by
  simp only [IsCombined, combinedField_iff, ← get?_combine]
  exact ⟨NameMap.ext_get?, fun h field => by rw [h]⟩

/-! ## Shares

A left record looks for its key on the right. The search stops at the first record with the key, and
a record without a key has no share at all. -/

/-- What a left record adds to a merge: rows with a common key, and rows that stand alone. -/
structure Share where
  common : List Record
  alone : List Record

/-- The share of a left record. -/
inductive LeftShare (key : String) (right : List Record) (l : Record) : Share → Prop where
  | keyless (hkey : l.text? key = none) : LeftShare key right l ⟨[], []⟩
  | common {text : String} {before after : List Record} {r row : Record}
      (hkey : l.text? key = some text) (hright : right = before ++ r :: after)
      (hfirst : ∀ u ∈ before, u.text? key ≠ some text) (hr : r.text? key = some text)
      (hrow : IsCombined key l r row) : LeftShare key right l ⟨[row], []⟩
  | alone {text : String} (hkey : l.text? key = some text)
      (hnone : ∀ r ∈ right, r.text? key ≠ some text) : LeftShare key right l ⟨[], [l]⟩

/-- The record has a key, and none of the others has it. -/
def IsAlone (key : String) (others : List Record) (r : Record) : Prop :=
  ∃ text, r.text? key = some text ∧ ∀ o ∈ others, o.text? key ≠ some text

def shareOf (key : String) (right : List Record) (l : Record) : Share :=
  ⟨(matched? key right l).toList, if isAlone key right l then [l] else []⟩

section shares

variable {key text : String} {others right : List Record} {l r : Record}

/-- What the search finds is the first record with the key. -/
theorem withKey?_eq_some_iff :
    withKey? right key text = some r ↔ r.text? key = some text ∧
      ∃ before after, right = before ++ r :: after ∧ ∀ u ∈ before, u.text? key ≠ some text := by
  unfold withKey?
  rw [List.find?_eq_some_iff_append]
  simp

/-- The search finds nothing if no record has the key. -/
theorem withKey?_eq_none_iff :
    withKey? right key text = none ↔ ∀ r ∈ right, r.text? key ≠ some text := by
  unfold withKey?
  rw [List.find?_eq_none]
  simp

/-- The test of a record against the other side says whether it stands alone. -/
theorem isAlone_iff : isAlone key others r = true ↔ IsAlone key others r := by
  unfold isAlone IsAlone
  cases r.text? key with
  | none => simp
  | some text => simp [withKey?_eq_none_iff]

theorem shareOf_of_keyless (h : l.text? key = none) : shareOf key right l = ⟨[], []⟩ := by
  unfold shareOf matched? isAlone
  rw [h]
  rfl

theorem shareOf_of_found (hkey : l.text? key = some text) (h : withKey? right key text = some r) :
    shareOf key right l = ⟨[combine key l r], []⟩ := by
  unfold shareOf matched? isAlone
  simp [hkey, h]

theorem shareOf_of_alone (hkey : l.text? key = some text) (h : withKey? right key text = none) :
    shareOf key right l = ⟨[], [l]⟩ := by
  unfold shareOf matched? isAlone
  simp [hkey, h]

/-- What the merge makes of a left record is a share of it. -/
theorem leftShare_shareOf (key : String) (right : List Record) (l : Record) :
    LeftShare key right l (shareOf key right l) := by
  cases hkey : l.text? key with
  | none =>
    rw [shareOf_of_keyless hkey]
    exact .keyless hkey
  | some text =>
    cases hfound : withKey? right key text with
    | none =>
      rw [shareOf_of_alone hkey hfound]
      exact .alone hkey (withKey?_eq_none_iff.1 hfound)
    | some r =>
      rw [shareOf_of_found hkey hfound]
      obtain ⟨hr, before, after, hright, hfirst⟩ := withKey?_eq_some_iff.1 hfound
      exact .common hkey hright hfirst hr (isCombined_iff.2 rfl)

/-- **Each left record has exactly one share.** -/
theorem leftShare_iff {s : Share} : LeftShare key right l s ↔ s = shareOf key right l := by
  constructor
  · intro h
    cases h with
    | keyless hkey => rw [shareOf_of_keyless hkey]
    | common hkey hright hfirst hr hrow =>
      rw [shareOf_of_found hkey (withKey?_eq_some_iff.2 ⟨hr, _, _, hright, hfirst⟩),
        isCombined_iff.1 hrow]
    | alone hkey hnone => rw [shareOf_of_alone hkey (withKey?_eq_none_iff.2 hnone)]
  · rintro rfl
    exact leftShare_shareOf key right l

end shares

/-! ## The whole merge

A merge runs over the left records three times, for the rows with a common key, for the left ones
alone and for the right ones alone. Each run takes the part of the shares it is for. -/

theorem filter_eq_flatMap (keep : Record → Bool) (rs : List Record) :
    rs.filter keep = rs.flatMap fun r => if keep r then [r] else [] := by
  induction rs with
  | nil => rfl
  | cons r rs ih =>
    rw [List.filter_cons, List.flatMap_cons, ih]
    split <;> rfl

theorem mergeOn_common (key : String) (left right : List Record) :
    mergeOn key .common left right = left.flatMap fun l => (shareOf key right l).common :=
  List.filterMap_eq_flatMap_toList _ _

/-- An outer merge adds the records that stand alone, of the left side and then of the right. -/
theorem mergeOn_outer (key : String) (left right : List Record) :
    mergeOn key .outer left right =
      (left.flatMap fun l => (shareOf key right l).common) ++
        (left.flatMap fun l => (shareOf key right l).alone) ++
          right.filter (isAlone key left) := by
  rw [← mergeOn_common]
  exact congrArg (_ ++ · ++ _) (filter_eq_flatMap _ left)

/-- **A merge on a key is exact.** Each left record has exactly one share. The common rows are the
left records whose key occurs on the right, in their order, each combined with the first right
record of its key. An outer merge goes on with the left records whose key does not occur on the
right, and then with the right records whose key does not occur on the left, all as they are and in
their order. -/
theorem mergeOn_shares (key : String) (left right : List Record) :
    ∃ (share : Record → Share) (isRightOnly : Record → Bool),
      (∀ l s, LeftShare key right l s ↔ s = share l) ∧
      (∀ r, isRightOnly r = true ↔ IsAlone key left r) ∧
      mergeOn key .common left right = (left.flatMap fun l => (share l).common) ∧
      mergeOn key .outer left right =
        (left.flatMap fun l => (share l).common) ++ (left.flatMap fun l => (share l).alone) ++
          right.filter isRightOnly :=
  ⟨shareOf key right, isAlone key left, fun _ _ => leftShare_iff, fun _ => isAlone_iff,
    mergeOn_common key left right, mergeOn_outer key left right⟩

end AdOps.Reconcile
