import Mathlib.Data.List.Pairwise
import AdOps.Proofs.Reconcile.Join

/-!
# A join does not depend on order

Which tracker record answers to a link is decided by their order only if several do. Where no two of
them have the same identifier, the tracker's list can be put in any order. Platform records are
joined one by one, each by itself as long as no failure stops the join, so their list can be cut and
put in any order too.

* **`counterpart?_perm`** — with distinct identifiers, the order of the tracker's records is of no
  account.
* **`join_order`** — order independence and compositionality of joins.
-/

namespace AdOps.Reconcile

/-- No two records that hold something have the same identifier. -/
def DistinctIds (tracker : List Record) : Prop :=
  ((tracker.filter fun t => !t.isEmpty).filterMap Record.id?).Nodup

instance (tracker : List Record) : Decidable (DistinctIds tracker) :=
  inferInstanceAs (Decidable (List.Nodup _))

variable {tracker t₁ t₂ : List Record} {p : Platform} {key : String}

theorem DistinctIds.perm (h : DistinctIds t₁) (hperm : t₁.Perm t₂) : DistinctIds t₂ :=
  ((hperm.filter _).filterMap Record.id?).nodup_iff.1 h

/-- At most one record answers to a key. -/
theorem DistinctIds.eq_of_answersTo (h : DistinctIds tracker) {t u : Record} (ht : t ∈ tracker)
    (hu : u ∈ tracker) (htkey : t.AnswersTo key) (hukey : u.AnswersTo key) : t = u := by
  have hfull : ∀ {v : Record}, v ∈ tracker → v.AnswersTo key →
      v ∈ tracker.filter fun t => !t.isEmpty := fun hv hkey =>
    List.mem_filter.2 ⟨hv, (Bool.and_eq_true_iff.1 (Record.answersTo_iff.1 hkey)).1⟩
  have hapart : Std.Symm fun a b : Record =>
      ∀ x, a.id? = some x → ∀ y, b.id? = some y → x ≠ y :=
    ⟨fun a b hab x hx y hy hxy => hab y hy x hx hxy.symm⟩
  -- Two records that are not the same would have two different identifiers.
  by_contra hne
  exact (List.pairwise_filterMap.1 h).forall (hfull ht htkey) (hfull hu hukey) hne key htkey.2 key
    hukey.2 rfl

/-- The record that is found for a key is the one in the list that answers to it. -/
theorem DistinctIds.counterpart?_eq_some_iff (h : DistinctIds tracker) {t : Record} :
    counterpart? tracker key = some t ↔ t ∈ tracker ∧ t.AnswersTo key := by
  have hsound : ∀ {u : Record}, counterpart? tracker key = some u →
      u ∈ tracker ∧ u.AnswersTo key := fun hu =>
    ⟨List.mem_of_find?_eq_some hu, (Reconcile.counterpart?_eq_some_iff.1 hu).1⟩
  refine ⟨hsound, fun ⟨ht, hkey⟩ => ?_⟩
  -- The search finds the first one that answers, and there is no other.
  cases hfound : counterpart? tracker key with
  | none => exact absurd hkey (counterpart?_eq_none_iff.1 hfound t ht)
  | some u =>
    obtain ⟨hu, hukey⟩ := hsound hfound
    rw [h.eq_of_answersTo hu ht hukey hkey]

/-- **The order of the tracker's records is of no account**, if their identifiers are distinct. -/
theorem counterpart?_perm (hperm : t₁.Perm t₂) (h : DistinctIds t₁) (key : String) :
    counterpart? t₁ key = counterpart? t₂ key := by
  apply Option.ext
  intro t
  rw [h.counterpart?_eq_some_iff, (h.perm hperm).counterpart?_eq_some_iff, hperm.mem_iff]

/-- Each record of the platform has the same fate. -/
theorem joinOne_perm (hperm : t₁.Perm t₂) (h : DistinctIds t₁) (p : Platform) (mode : JoinMode) :
    joinOne t₁ p mode = joinOne t₂ p mode := by
  funext r
  unfold joinOne
  simp only [counterpart?_perm hperm h]

/-- A placeholder stays one in any order. -/
theorem isPlaceholder_perm (hperm : t₁.Perm t₂) : isPlaceholder t₁ = isPlaceholder t₂ := by
  have himp : ∀ {l l' : List Record}, l.Perm l' → isPlaceholder l = true →
      isPlaceholder l' = true := by
    intro l l' hl hplace
    rw [isPlaceholder_iff] at hplace ⊢
    exact List.perm_singleton.1 (hplace ▸ hl).symm
  exact Bool.eq_iff_iff.2 ⟨himp hperm, himp hperm.symm⟩

/-- The whole join is the same. -/
theorem join_perm_tracker (hperm : t₁.Perm t₂) (h : DistinctIds t₁) (p : Platform)
    (mode : JoinMode) (records : List Record) :
    join t₁ p mode records = join t₂ p mode records := by
  unfold join
  rw [isPlaceholder_perm hperm, joinOne_perm hperm h]

/-- **Joins are order independent and compositional.** Tracker records with distinct identifiers can
be given in any order, in both modes. A lenient join of a list in two parts joins the parts and puts
the results together, and a lenient join of a list in another order has the same records and issues
in another order. -/
theorem join_order (p : Platform) :
    (∀ mode records t₁ t₂, t₁.Perm t₂ → DistinctIds t₁ →
        join t₁ p mode records = join t₂ p mode records) ∧
      (∀ tracker first second, ∃ j₁ j₂,
        join tracker p .lenient first = .ok j₁ ∧ join tracker p .lenient second = .ok j₂ ∧
          join tracker p .lenient (first ++ second) =
            .ok ⟨j₁.records ++ j₂.records, j₁.issues ++ j₂.issues⟩) ∧
      ∀ tracker records₁ records₂, records₁.Perm records₂ → ∃ j₁ j₂,
        join tracker p .lenient records₁ = .ok j₁ ∧ join tracker p .lenient records₂ = .ok j₂ ∧
          j₁.records.Perm j₂.records ∧ j₁.issues.Perm j₂.issues := by
  refine ⟨fun mode records t₁ t₂ hperm h => join_perm_tracker hperm h p mode records,
    fun tracker first second => ?_, fun tracker records₁ records₂ hperm => ?_⟩
  -- Each record has a part in the join that does not depend on the others.
  · obtain ⟨part, hpart⟩ := exists_join_lenient tracker p
    refine ⟨_, _, hpart first, hpart second, ?_⟩
    rw [hpart, List.flatMap_append, List.flatMap_append]
  · obtain ⟨part, hpart⟩ := exists_join_lenient tracker p
    exact ⟨_, _, hpart records₁, hpart records₂, hperm.flatMap_right _, hperm.flatMap_right _⟩

/-! Three tracker records, two of them with identifiers of their own, a number and a text, and one
with no identifier: the platform's rows are linked to the two, and a third row to none. -/

namespace Swapped

def winter : Record := NameMap.ofList [("id", Json.int 7), ("name", .string "Winter")]

def summer : Record := NameMap.ofList [("id", .string "8"), ("name", .string "Summer")]

def nameless : Record := NameMap.ofList [("roi", Json.int 2)]

def snow : Record := NameMap.ofList [("name", .string "7 Snow")]

def sun : Record := NameMap.ofList [("name", .string "8 Sun")]

def unlinked : Record := NameMap.ofList [("name", .string "Rain")]

end Swapped

open Swapped in
/-- With the tracker's list the other way round the strict join stays, and with the platform's the
lenient one, up to order. -/
theorem join_order_swapped :
    [winter, summer, nameless].Perm [nameless, summer, winter] ∧
      DistinctIds [winter, summer, nameless] ∧
      [winter, summer, nameless].filterMap Record.id? = ["7", "8"] ∧
      join [winter, summer, nameless] .mgid .strict [sun, snow] =
        join [nameless, summer, winter] .mgid .strict [sun, snow] ∧
      [snow, sun, unlinked].Perm [unlinked, sun, snow] ∧
      ∃ j₁ j₂, join [winter, summer] .mgid .lenient [snow, sun, unlinked] = .ok j₁ ∧
        join [winter, summer] .mgid .lenient [unlinked, sun, snow] = .ok j₂ ∧
        j₁.records.Perm j₂.records ∧ j₁.issues.Perm j₂.issues := by
  have hdistinct : DistinctIds [winter, summer, nameless] := by decide +kernel
  obtain ⟨htracker, -, hrecords⟩ := join_order .mgid
  have hperm : [winter, summer, nameless].Perm [nameless, summer, winter] :=
    (List.reverse_perm [winter, summer, nameless]).symm
  have hrows : [snow, sun, unlinked].Perm [unlinked, sun, snow] :=
    (List.reverse_perm [snow, sun, unlinked]).symm
  exact ⟨hperm, hdistinct, by decide +kernel, htracker .strict _ _ _ hperm hdistinct, hrows,
    hrecords [winter, summer] _ _ hrows⟩

end AdOps.Reconcile
