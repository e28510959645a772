import AdOps.Proofs.Number.Rounding
import AdOps.Proofs.Reconcile.Merge

/-!
# Sums of integers

Where two joined records hold integers in a field, each is taken for the nearest floating-point number,
and so is the sum of these. Up to `2^53` every integer is a floating-point number and sums are exact;
beyond, an integer may be rounded before it is added, and the sum after.

* **`rational?_add_ofInt`** — what the sum of two integers comes to.
* **`integers_added_iff`** — what the combined field holds, and when exactly it is the sum.
-/

namespace AdOps.Reconcile

open Number (nearest rational?)

variable {a b : ℤ} {v : Json}

/-- The sum of two integers as it is computed. -/
def roundedSum (a b : ℤ) : ℚ := nearest (nearest a + nearest b)

/-- **The sum of two integers** is computed from the nearest floating-point numbers, and rounded
again. -/
theorem rational?_add_ofInt (ha : a.natAbs < 2 ^ 64) (hb : b.natAbs < 2 ^ 64) :
    rational? (Number.ofInt a + Number.ofInt b) = some (roundedSum a b) := by
  obtain ⟨c, hc, hca⟩ := Number.exists_nearest_intCast a
  obtain ⟨d, hd, hdb⟩ := Number.exists_nearest_intCast b
  -- Neither the conversions nor the sum leave the range of finite numbers.
  apply Number.rational?_add (Number.rational?_ofInt (Number.abs_lt_range (by omega)))
    (Number.rational?_ofInt (Number.abs_lt_range (by omega)))
  rw [hca, hdb, ← Int.cast_add]
  exact Number.abs_lt_range (by omega)

/-- What the sum comes to is an integer: integers are rounded to integers. -/
theorem exists_roundedSum (a b : ℤ) : ∃ n : ℤ, roundedSum a b = n := by
  obtain ⟨c, -, hca⟩ := Number.exists_nearest_intCast a
  obtain ⟨d, -, hdb⟩ := Number.exists_nearest_intCast b
  obtain ⟨n, -, hn⟩ := Number.exists_nearest_intCast (c + d)
  exact ⟨n, by rw [roundedSum, hca, hdb, ← Int.cast_add, hn]⟩

/-- Up to `2^53` nothing is rounded. -/
theorem roundedSum_of_small (ha : a.natAbs ≤ 2 ^ 53) (hb : b.natAbs ≤ 2 ^ 53)
    (hsum : (a + b).natAbs ≤ 2 ^ 53) : roundedSum a b = (a + b : ℤ) := by
  rw [roundedSum, (Number.isRepresentable_intCast ha).nearest_eq,
    (Number.isRepresentable_intCast hb).nearest_eq, ← Int.cast_add,
    (Number.isRepresentable_intCast hsum).nearest_eq]

/-- What a field holds whose sum comes to an integer: the integer, if it is below `2^63`, and else the
floating-point number. -/
def HoldsSum (n : ℤ) (v : Json) : Prop :=
  if n.natAbs < 2 ^ 63 then v = .int n else ∃ x, rational? x = some (n : ℚ) ∧ v = .number (.float x)

/-- What holds the number holds the sum. -/
theorem holdsSum_of_holds {x : Float} {n : ℤ} (hx : rational? x = some (n : ℚ)) (hv : Holds x v) :
    HoldsSum n v := by
  unfold HoldsSum
  split
  · next hlt => exact hv.unique (.integer hx hlt)
  · next hge =>
    refine ⟨x, hx, hv.unique (.float hx fun m hm => ?_)⟩
    rw [← Int.cast_injective hm]
    exact Nat.le_of_not_lt hge

/-- A field holds an integer if the sum comes to it and is below `2^63`. -/
theorem HoldsSum.eq_int_iff {n m : ℤ} (h : HoldsSum n v) :
    v = .int m ↔ m.natAbs < 2 ^ 63 ∧ n = m := by
  unfold HoldsSum at h
  -- A sum that is too great stays a floating-point number.
  split at h
  · next hlt =>
    subst h
    constructor
    · intro heq
      obtain rfl : n = m := by injections
      exact ⟨hlt, rfl⟩
    · rintro ⟨-, rfl⟩
      rfl
  · next hge =>
    obtain ⟨x, -, rfl⟩ := h
    refine iff_of_false (fun heq => ?_) (fun ⟨hlt, heq⟩ => hge (heq ▸ hlt))
    injections

section merge

variable {key field text : String} {left right : List Record} {l r : Record}

/-- A matched pair is a row of the merge, in either mode. -/
theorem combine_mem_mergeOn (hl : l ∈ left) (hkey : l.text? key = some text)
    (hr : withKey? right key text = some r) (mode : KeyedMerge) :
    combine key l r ∈ mergeOn key mode left right := by
  have hcommon : combine key l r ∈ left.filterMap (matched? key right) := by
    refine List.mem_filterMap.2 ⟨l, hl, ?_⟩
    unfold matched?
    rw [hkey, Option.bind_some, hr, Option.map_some]
  cases mode with
  | common => exact hcommon
  | outer => exact List.mem_append_left _ (List.mem_append_left _ hcommon)

/-- The field of the row holds the sum of the two numbers. -/
theorem get?_combine_integers (hfield : field ≠ key) (hla : l.get? field = some (.int a))
    (hrb : r.get? field = some (.int b)) :
    (combine key l r).get? field = some (sum (Number.ofInt a) (Number.ofInt b)) := by
  rw [get?_combine, hla, hrb, Option.map_some, if_neg hfield]
  rfl

/-- **When the sum of two integers is exact.** Two joined records that hold integers in a field other
than the key are combined into a row of the merge, and its field holds the sum as it is computed: both
integers are rounded to the nearest floating-point number, and so is the sum of these. It holds the
sum of the integers exactly if the rounding changes nothing in the end and the sum is below `2^63`,
which is so if neither the integers nor their sum exceed `2^53`. -/
theorem integers_added_iff (hl : l ∈ left) (hkey : l.text? key = some text)
    (hr : withKey? right key text = some r) (hfield : field ≠ key)
    (hla : l.get? field = some (.int a)) (hrb : r.get? field = some (.int b))
    (ha : a.natAbs < 2 ^ 64) (hb : b.natAbs < 2 ^ 64) (mode : KeyedMerge) :
    combine key l r ∈ mergeOn key mode left right ∧
      ∃ (v : Json) (n : ℤ), (combine key l r).get? field = some v ∧ roundedSum a b = n ∧
        HoldsSum n v ∧
        (v = .int (a + b) ↔ (a + b).natAbs < 2 ^ 63 ∧ n = a + b) ∧
        (a.natAbs ≤ 2 ^ 53 → b.natAbs ≤ 2 ^ 53 → (a + b).natAbs ≤ 2 ^ 53 → v = .int (a + b)) := by
  refine ⟨combine_mem_mergeOn hl hkey hr mode, ?_⟩
  obtain ⟨n, hn⟩ := exists_roundedSum a b
  have hvalue := rational?_add_ofInt ha hb
  rw [hn] at hvalue
  have hsum := holdsSum_of_holds hvalue (holds_sum _ _)
  refine ⟨_, n, get?_combine_integers hfield hla hrb, hn, hsum, hsum.eq_int_iff, ?_⟩
  -- Small integers are added exactly, and their sum is small.
  intro hsmalla hsmallb hsmall
  rw [hsum.eq_int_iff]
  refine ⟨by omega, Int.cast_injective (α := ℚ) ?_⟩
  rw [← hn, roundedSum_of_small hsmalla hsmallb hsmall]

end merge

/-- An integer past `2^53` to which nothing is added: the merge gives its neighbour. -/
theorem integers_added_iff_past_mantissa :
    ∃ row ∈ mergeOn "id" .common
        [NameMap.ofList [("clicks", .int 9007199254740993), ("id", .string "w")]]
        [NameMap.ofList [("clicks", .int 0), ("id", .string "w")]],
      row.get? "clicks" = some (.int 9007199254740992) := by
  let l : Record := NameMap.ofList [("clicks", .int 9007199254740993), ("id", .string "w")]
  let r : Record := NameMap.ofList [("clicks", .int 0), ("id", .string "w")]
  have hkey : l.text? "id" = some "w" := by decide +kernel
  have hr : withKey? [r] "id" "w" = some r := rfl
  have hfield : ("clicks" : String) ≠ "id" := by decide
  obtain ⟨hmem, v, n, hv, hn, hsum, -⟩ := integers_added_iff (List.mem_singleton.2 rfl) hkey hr hfield
    (a := 9007199254740993) (b := 0) rfl rfl (by decide) (by decide) .common
  -- The integer lies halfway between two floating-point numbers, and the even one is taken.
  have hrounded : roundedSum 9007199254740993 0 = (9007199254740992 : ℤ) := by decide +kernel
  obtain rfl : n = 9007199254740992 := Int.cast_injective (hn.symm.trans hrounded)
  have hint : v = .int 9007199254740992 := hsum
  rw [hint] at hv
  exact ⟨_, hmem, hv⟩

end AdOps.Reconcile
