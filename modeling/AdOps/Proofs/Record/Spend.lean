import AdOps.Proofs.Reconcile.Join
import AdOps.Record.Cost

/-!
# Whose cost a joined record has

Platform and tracker may keep the cost under different names. A joined record holds the fields of
both, and its cost is looked for under one name after the other, so a cost of the tracker under the
first name comes before one of the platform under the second: where the platform has no field of the
first name, what it spent is not what the joined record costs.

* **`number?_joined`** — a field of the joined record as a number.
* **`cost?_joined`** — the cost of a joined record.
* **`platform_cost_iff`** — when exactly it is the platform's.
-/

namespace AdOps.Record

variable {platform tracker : Record} {field : String} {cost : Float}

/-- A field with a number is a field. -/
theorem get?_isSome_of_number? {r : Record} (h : (r.number? field).isSome = true) :
    (r.get? field).isSome = true := by
  unfold number? at h
  cases hv : r.get? field with
  | none =>
    rw [hv] at h
    exact absurd h (by simp)
  | some v => rfl

/-- **A field of the joined record as a number** is the platform's if the platform has the field, be
it a number or not, and else the tracker's. -/
theorem number?_joined (platform tracker : Record) (field : String) :
    (platform.joined (some tracker)).number? field =
      if (platform.get? field).isSome then platform.number? field else tracker.number? field := by
  unfold number?
  rw [get?_joined]
  cases platform.get? field with
  | none => rfl
  | some v => rfl

/-- The cost of a record is looked for under two names, in this order. -/
theorem cost?_eq (r : Record) : r.cost? = (r.number? "cost").or (r.number? "spent") := by
  show [("cost" : String), "spent"].findSome? r.number? = _
  rw [List.findSome?_cons, List.findSome?_cons, List.findSome?_nil]
  cases r.number? "cost" with
  | some x => rfl
  | none => cases r.number? "spent" <;> rfl

/-- **The cost of a joined record** whose platform part has one: the platform's, if the platform has a
field of the first name, and else what the tracker has under that name, if it is a number. -/
theorem cost?_joined (h : platform.cost? = some cost) (tracker : Record) :
    (platform.joined (some tracker)).cost? =
      some (if (platform.get? "cost").isSome then cost else (tracker.number? "cost").getD cost) := by
  -- Where the platform's cost stands under the second name, the platform has that field, and no
  -- tracker hides it.
  have hspent : platform.number? "cost" = none →
      (platform.joined (some tracker)).number? "spent" = some cost := fun hnone => by
    have hown : platform.number? "spent" = some cost := by
      rw [cost?_eq, hnone] at h
      exact h
    rw [number?_joined, if_pos (get?_isSome_of_number? (by rw [hown]; rfl)), hown]
  rw [cost?_eq, number?_joined platform tracker "cost"]
  split
  · -- The platform's field hides the tracker's, even if it is no number.
    cases hcost : platform.number? "cost" with
    | some x =>
      rw [cost?_eq, hcost] at h
      exact h
    | none => exact hspent hcost
  · next hfield =>
    have hnone : platform.number? "cost" = none := by
      refine Option.eq_none_iff_forall_ne_some.2 fun x hx => hfield ?_
      exact get?_isSome_of_number? (by rw [hx]; rfl)
    rw [hspent hnone]
    cases tracker.number? "cost" <;> rfl

/-- **When a joined record costs what the platform reported.** A joined record whose platform part has
a cost always has one, and its cost per acquisition is made of it. It is the platform's cost exactly if
the platform has a field of the first name, or the tracker has no other number under that name; else
it is the tracker's. -/
theorem platform_cost_iff (h : platform.cost? = some cost) (tracker : Record) :
    ∃ spend, (platform.joined (some tracker)).cost? = some spend ∧
      (platform.joined (some tracker)).cpa? =
        some (if (platform.joined (some tracker)).conversions == 0 then 0
          else spend / (platform.joined (some tracker)).conversions) ∧
      (spend = cost ↔
        (platform.get? "cost").isSome ∨ ∀ x, tracker.number? "cost" = some x → x = cost) ∧
      (spend ≠ cost → tracker.number? "cost" = some spend) := by
  have hspend := cost?_joined h tracker
  refine ⟨_, hspend, by unfold cpa?; rw [hspend]; rfl, ?_⟩
  -- By whether the platform has a field of the first name.
  by_cases hfield : (platform.get? "cost").isSome = true
  · rw [if_pos hfield]
    exact ⟨iff_of_true rfl (.inl hfield), fun hne => absurd rfl hne⟩
  · rw [if_neg hfield]
    cases htracker : tracker.number? "cost" with
    | none => simp
    | some x => simp [hfield]

/-- A platform that reports what was spent, and a tracker that has a cost of its own. -/
theorem platform_cost_iff_tracked :
    ∃ spend, (joined (NameMap.ofList [("id", .int 1), ("spent", .int 50)])
        (some (NameMap.ofList [("conv", .int 2), ("cost", .int 7)]))).cost? = some spend ∧
      spend ≠ 50 := by
  have hcost : cost? (NameMap.ofList [("id", .int 1), ("spent", .int 50)]) = some 50 := by
    decide +kernel
  obtain ⟨spend, hspend, -, hiff, -⟩ := platform_cost_iff hcost
    (NameMap.ofList [("conv", .int 2), ("cost", .int 7)])
  refine ⟨spend, hspend, fun heq => ?_⟩
  rcases hiff.1 heq with hfield | hother
  · exact absurd hfield (by decide +kernel)
  · exact absurd (hother 7 (by decide +kernel)) (by decide +kernel)

end AdOps.Record
