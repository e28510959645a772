import Mathlib.Data.List.Induction
import AdOps.Proofs.Handler.Table
import AdOps.Proofs.Number.Order

/-!
# The best widgets

Widgets are ranked by their conversions, and those with as many by their cost per acquisition. As long
as no cost per acquisition is a NaN, every converting widget has a place in a linear order by this, so
there is one stable ranking of the rows of a table: each row goes before the rows that it precedes, and
rows that tie keep their order. The insertion of one row after the other makes this ranking, and the
best widgets are its front.

* **`isRanking_concat`** — a row inserted into a ranking makes a ranking again.
* **`isRanking_iff`** — there is one ranking, the one that is made by insertion.
* **`isTop_take`** — what the front of a ranking is.
* **`widgetsTop_best`** — the widgets that are answered.
-/

namespace AdOps.Handler

open AdOps.Action Number

variable {a b r : Record} {rows ranking acc : List Record}

/-! ## Ranks

Comparisons of floats are no linear order, but they are one on the places that all numbers but NaN
have. A row's rank is a pair of places, the greater conversions first. To precede and to tie are the
order and the equality of ranks, and everything below is about these. -/

/-- The cost per acquisition by which a row is ranked. -/
def rankedCost (r : Record) : Float := r.cpa?.getD 0

/-- A row precedes another by more conversions, or by as many and a lower cost per acquisition. -/
def Precedes (a b : Record) : Prop :=
  b.conversions < a.conversions ∨
    (a.conversions == b.conversions) = true ∧ rankedCost a < rankedCost b

/-- Rows tie by equal conversions and equal costs per acquisition. -/
def Ties (a b : Record) : Prop :=
  (a.conversions == b.conversions) = true ∧ (rankedCost a == rankedCost b) = true

instance (a b : Record) : Decidable (Ties a b) := inferInstanceAs (Decidable (_ ∧ _))

/-- The rows are ranked, and keep their order where they tie. -/
structure IsRanking (rows ranking : List Record) : Prop where
  perm : ranking.Perm rows
  ordered : ranking.Pairwise fun a b => ¬ Precedes b a
  stable : ∀ r, (ranking.filter fun s => Ties r s) = rows.filter fun s => Ties r s

/-- A row that can be ranked: its conversions and its cost are no NaN. -/
def IsRanked (r : Record) : Prop :=
  (place? r.conversions).isSome = true ∧ (place? (rankedCost r)).isSome = true

/-- Where a row stands: first by its conversions, the most first, then by its cost. -/
def rankOf (r : Record) : Placeᵒᵈ ×ₗ Place :=
  toLex (.toDual ((place? r.conversions).getD default), (place? (rankedCost r)).getD default)

/-- The two places of a row that can be ranked. -/
theorem IsRanked.exists_places (h : IsRanked r) :
    ∃ p q, place? r.conversions = some p ∧ place? (rankedCost r) = some q ∧
      rankOf r = toLex (.toDual p, q) := by
  obtain ⟨p, hp⟩ := Option.isSome_iff_exists.1 h.1
  obtain ⟨q, hq⟩ := Option.isSome_iff_exists.1 h.2
  refine ⟨p, q, hp, hq, ?_⟩
  unfold rankOf
  rw [hp, hq]
  rfl

/-- **To precede is to rank before.** -/
theorem precedes_iff (ha : IsRanked a) (hb : IsRanked b) : Precedes a b ↔ rankOf a < rankOf b := by
  obtain ⟨pa, qa, hpa, hqa, hranka⟩ := ha.exists_places
  obtain ⟨pb, qb, hpb, hqb, hrankb⟩ := hb.exists_places
  unfold Precedes
  rw [hranka, hrankb, lt_iff, lt_iff, beq_iff, Prod.Lex.toLex_lt_toLex]
  simp [hpa, hqa, hpb, hqb, eq_comm]

/-- To tie is to rank the same. -/
theorem ties_iff (ha : IsRanked a) (hb : IsRanked b) : Ties a b ↔ rankOf a = rankOf b := by
  obtain ⟨pa, qa, hpa, hqa, hranka⟩ := ha.exists_places
  obtain ⟨pb, qb, hpb, hqb, hrankb⟩ := hb.exists_places
  unfold Ties
  rw [hranka, hrankb, beq_iff, beq_iff]
  simp [hpa, hqa, hpb, hqb, eq_comm]

/-- Rows that tie can be ranked: a NaN is equal to nothing. -/
theorem isRanked_of_ties (h : Ties a b) : IsRanked a ∧ IsRanked b := by
  obtain ⟨p, hpa, hpb⟩ := beq_iff.1 h.1
  obtain ⟨q, hqa, hqb⟩ := beq_iff.1 h.2
  exact ⟨⟨by rw [hpa]; rfl, by rw [hqa]; rfl⟩, ⟨by rw [hpb]; rfl, by rw [hqb]; rfl⟩⟩

/-- The comparison by which rows are inserted is that of their ranks. -/
theorem ranksBefore_iff (ha : IsRanked a) (hb : IsRanked b) :
    ranksBefore a b = true ↔ rankOf a < rankOf b := by
  rw [← precedes_iff ha hb]
  obtain ⟨pa, -, hpa, -⟩ := ha.exists_places
  obtain ⟨pb, -, hpb, -⟩ := hb.exists_places
  have hmore : b.conversions < a.conversions ↔ pb < pa := by rw [lt_iff]; simp [hpa, hpb]
  have hless : a.conversions < b.conversions ↔ pa < pb := by rw [lt_iff]; simp [hpa, hpb]
  have hequal : (a.conversions == b.conversions) = true ↔ pb = pa := by
    rw [beq_iff]
    simp [hpa, hpb]
  unfold ranksBefore Precedes
  -- More conversions decide, fewer do too, and with as many the costs are compared.
  split
  · next h => exact iff_of_true rfl (.inl h)
  · next h =>
    rw [or_iff_right h, hequal]
    rw [hmore] at h
    split
    · next h' => exact iff_of_false (by simp) fun heq => absurd heq.1 (hless.1 h').ne'
    · next h' =>
      rw [hless] at h'
      have heq : pb = pa := le_antisymm (not_lt.1 h') (not_lt.1 h)
      simp [heq, rankedCost]

/-! ## Inserting a row

Rows are inserted one after the other in the order of the table, each behind all that it does not
rank before. That a row goes behind those that it ties with is what makes the ranking stable: they
stood in front of it in the table. -/

/-- A row is put behind the last row that it does not rank before. The rows are given last to first. -/
theorem insertRanked_eq (r : Record) (acc : List Record) :
    insertRanked r acc = acc.takeWhile (ranksBefore r) ++ r :: acc.dropWhile (ranksBefore r) := by
  induction acc with
  | nil => rfl
  | cons last before ih =>
    rw [insertRanked, List.takeWhile_cons, List.dropWhile_cons]
    split
    · rw [ih]
      rfl
    · rfl

/-- The last row of the table is inserted last. -/
theorem ranked_concat (rows : List Record) (r : Record) :
    ranked (rows ++ [r]) = (insertRanked r (ranked rows).reverse).reverse := by
  unfold ranked
  rw [List.foldl_append, List.reverse_reverse]
  rfl

/-- The row that stops the search ranks no later, and the rows in front of it no later than it. -/
theorem rankOf_le_of_mem_dropWhile (hordered : acc.Pairwise fun a b => ¬ Precedes a b)
    (hranked : ∀ s ∈ acc, IsRanked s) (hr : IsRanked r)
    (hb : b ∈ acc.dropWhile (ranksBefore r)) : rankOf b ≤ rankOf r := by
  induction acc with
  | nil => exact absurd hb List.not_mem_nil
  | cons last before ih =>
    have hlast : IsRanked last := hranked last List.mem_cons_self
    have hbefore : ∀ s ∈ before, IsRanked s := fun s hs => hranked s (List.mem_cons_of_mem _ hs)
    rw [List.dropWhile_cons] at hb
    -- The search goes on past a row that is ranked before, and stops at the first other one.
    split at hb
    · exact ih (List.pairwise_cons.1 hordered).2 hbefore hb
    · next hstop =>
      rw [ranksBefore_iff hr hlast, not_lt] at hstop
      rcases List.mem_cons.1 hb with rfl | hmem
      · exact hstop
      · have hnot := (List.pairwise_cons.1 hordered).1 b hmem
        rw [precedes_iff hlast (hbefore b hmem), not_lt] at hnot
        exact hnot.trans hstop

/-- **A row is put at its place in a ranking**: in front of it stand rows that rank no later, and behind
it rows that rank later. -/
theorem exists_split (hordered : ranking.Pairwise fun a b => ¬ Precedes b a)
    (hranked : ∀ s ∈ ranking, IsRanked s) (hr : IsRanked r) :
    ∃ front back, ranking = front ++ back ∧
      (insertRanked r ranking.reverse).reverse = front ++ r :: back ∧
      (∀ s ∈ front, rankOf s ≤ rankOf r) ∧ ∀ s ∈ back, rankOf r < rankOf s := by
  have hreverse : ∀ s ∈ ranking.reverse, IsRanked s := fun s hs => hranked s (List.mem_reverse.1 hs)
  refine ⟨(ranking.reverse.dropWhile (ranksBefore r)).reverse,
    (ranking.reverse.takeWhile (ranksBefore r)).reverse, ?_, ?_, fun s hs => ?_, fun s hs => ?_⟩
  · rw [← List.reverse_append, List.takeWhile_append_dropWhile, List.reverse_reverse]
  · rw [insertRanked_eq, List.reverse_append, List.reverse_cons, List.append_assoc]
    rfl
  · exact rankOf_le_of_mem_dropWhile (List.pairwise_reverse.2 hordered) hreverse hr
      (List.mem_reverse.1 hs)
  · rw [List.mem_reverse] at hs
    exact (ranksBefore_iff hr (hreverse s ((List.takeWhile_sublist _).subset hs))).1
      (List.all_eq_true.1 List.all_takeWhile s hs)

/-- **A row inserted into a ranking makes a ranking again**, of the rows and this row behind them. -/
theorem isRanking_concat (h : IsRanking rows ranking) (hrows : ∀ s ∈ rows, IsRanked s)
    (hr : IsRanked r) :
    IsRanking (rows ++ [r]) (insertRanked r ranking.reverse).reverse := by
  have hranked : ∀ s ∈ ranking, IsRanked s := fun s hs => hrows s (h.perm.mem_iff.1 hs)
  obtain ⟨front, back, rfl, hinsert, hfront, hback⟩ := exists_split h.ordered hranked hr
  obtain ⟨hfrontOrdered, hbackOrdered, hacross⟩ := List.pairwise_append.1 h.ordered
  have hmemFront : ∀ s ∈ front, IsRanked s := fun s hs => hranked s (List.mem_append_left _ hs)
  have hmemBack : ∀ s ∈ back, IsRanked s := fun s hs => hranked s (List.mem_append_right _ hs)
  rw [hinsert]
  refine ⟨?_, ?_, fun t => ?_⟩
  · exact List.perm_middle.trans ((h.perm.cons r).trans (List.perm_append_singleton r rows).symm)
  · refine List.pairwise_append.2 ⟨hfrontOrdered, List.pairwise_cons.2 ⟨fun s hs => ?_, hbackOrdered⟩,
      fun s hs t ht => ?_⟩
    · rw [precedes_iff (hmemBack s hs) hr]
      exact (hback s hs).not_gt
    · rcases List.mem_cons.1 ht with rfl | ht
      · rw [precedes_iff hr (hmemFront s hs)]
        exact (hfront s hs).not_gt
      · exact hacross s hs t ht
  · have hsame := h.stable t
    rw [List.filter_append] at hsame
    rw [List.filter_append, List.filter_append, ← hsame]
    -- The rows that tie with the new one stand in front of it.
    by_cases hties : Ties t r
    · -- What stands behind the row ranks later, so it does not tie.
      have hnone : back.filter (fun s => Ties t s) = [] := by
        refine List.filter_eq_nil_iff.2 fun s hs htie => ?_
        have ht : IsRanked t := (isRanked_of_ties hties).1
        have heq := (ties_iff ht (hmemBack s hs)).1 (of_decide_eq_true htie)
        rw [(ties_iff ht hr).1 hties] at heq
        exact absurd heq (hback s hs).ne
      simp [hnone, hties]
    · simp [hties]

/-- **What insertion makes of rows is a ranking of them.** -/
theorem isRanking_ranked (h : ∀ s ∈ rows, IsRanked s) : IsRanking rows (ranked rows) := by
  -- Induction from the last row, which is the one that is inserted last.
  induction rows using List.reverseRecOn with
  | nil => exact ⟨.refl _, .nil, fun _ => rfl⟩
  | append_singleton rows r ih =>
    obtain ⟨hrows, hr⟩ := List.forall_mem_append.1 h
    rw [ranked_concat]
    exact isRanking_concat (ih hrows) hrows (hr r List.mem_cons_self)

/-! ## One ranking

Two rankings begin with rows that rank no later than each other, so these tie. In both of them the
rows that tie stand as in the table, so the first rows are equal, and the rest is by induction. -/

theorem ties_self (h : IsRanked r) : Ties r r := (ties_iff h h).2 rfl

/-- The first row of an ordered list ranks no later than any row of it. -/
theorem rankOf_le_of_mem (hordered : (a :: rows).Pairwise fun a b => ¬ Precedes b a)
    (hranked : ∀ s ∈ a :: rows, IsRanked s) (hb : b ∈ a :: rows) : rankOf a ≤ rankOf b := by
  rcases List.mem_cons.1 hb with rfl | hmem
  · exact le_refl _
  · have hnot := (List.pairwise_cons.1 hordered).1 b hmem
    rwa [precedes_iff (hranked b hb) (hranked a List.mem_cons_self), not_lt] at hnot

/-- A row is in every list that has the same rows tied with it. -/
theorem mem_of_ties {l l' : List Record} (hranked : ∀ s ∈ l, IsRanked s)
    (hties : ∀ r, (l.filter fun s => Ties r s) = l'.filter fun s => Ties r s) (hr : r ∈ l) :
    r ∈ l' := by
  have hfound : r ∈ l.filter fun s => Ties r s :=
    List.mem_filter.2 ⟨hr, decide_eq_true (ties_self (hranked r hr))⟩
  rw [hties] at hfound
  exact (List.mem_filter.1 hfound).1

/-- Ordered lists in which rows that tie stand alike are equal. -/
theorem eq_of_ordered {l l' : List Record} (h : l.Pairwise fun a b => ¬ Precedes b a)
    (h' : l'.Pairwise fun a b => ¬ Precedes b a) (hranked : ∀ s ∈ l, IsRanked s)
    (hranked' : ∀ s ∈ l', IsRanked s)
    (hties : ∀ r, (l.filter fun s => Ties r s) = l'.filter fun s => Ties r s) : l = l' := by
  induction l generalizing l' with
  | nil =>
    cases l' with
    | nil => rfl
    | cons b l' => exact absurd (mem_of_ties hranked' (fun r => (hties r).symm) List.mem_cons_self) (by simp)
  | cons a l ih =>
    cases l' with
    | nil => exact absurd (mem_of_ties hranked hties List.mem_cons_self) (by simp)
    | cons b l' =>
      have ha : IsRanked a := hranked a List.mem_cons_self
      have hb : IsRanked b := hranked' b List.mem_cons_self
      -- The first rows rank no later than each other, so they tie, and ties stand alike.
      have hab : rankOf a = rankOf b := le_antisymm
        (rankOf_le_of_mem h hranked (mem_of_ties hranked' (fun r => (hties r).symm) List.mem_cons_self))
        (rankOf_le_of_mem h' hranked' (mem_of_ties hranked hties List.mem_cons_self))
      have hheads := hties a
      rw [List.filter_cons, List.filter_cons, if_pos (decide_eq_true (ties_self ha)),
        if_pos (decide_eq_true ((ties_iff ha hb).2 hab))] at hheads
      obtain rfl : a = b := (List.cons.inj hheads).1
      have htail : l = l' := by
        refine ih (List.pairwise_cons.1 h).2 (List.pairwise_cons.1 h').2
          (fun s hs => hranked s (List.mem_cons_of_mem _ hs))
          (fun s hs => hranked' s (List.mem_cons_of_mem _ hs)) fun r => ?_
        have hsame := hties r
        rw [List.filter_cons, List.filter_cons] at hsame
        split at hsame
        · exact (List.cons.inj hsame).2
        · exact hsame
      rw [htail]

/-- **There is one ranking of rows that can be ranked**, the one that is made by insertion. -/
theorem isRanking_iff (h : ∀ s ∈ rows, IsRanked s) : IsRanking rows ranking ↔ ranking = ranked rows := by
  have hmade := isRanking_ranked h
  constructor
  · intro hranking
    exact eq_of_ordered hranking.ordered hmade.ordered (fun s hs => h s (hranking.perm.mem_iff.1 hs))
      (fun s hs => h s (hmade.perm.mem_iff.1 hs)) fun r => (hranking.stable r).trans (hmade.stable r).symm
  · rintro rfl
    exact hmade

/-! ## The front of a ranking

To cut a ranking off leaves rows that precede, or tie with, all that is left out. -/

/-- The rows are the best of all, up to a limit: they are ranked, as many as the limit allows for, and
each of them at most as often as it was there; no row that was left out precedes one of them, and rows
that tie are the first of these in their order. -/
structure IsTop (limit : Nat) (rows top : List Record) : Prop where
  ordered : top.Pairwise fun a b => ¬ Precedes b a
  length_eq : top.length = min limit rows.length
  best : ∃ omitted, (top ++ omitted).Perm rows ∧ ∀ a ∈ top, ∀ b ∈ omitted, ¬ Precedes b a
  stable : ∀ r, (top.filter fun s => Ties r s) <+: rows.filter fun s => Ties r s

/-- **The front of a ranking is the best of all rows.** -/
theorem isTop_take (h : IsRanking rows ranking) (limit : Nat) :
    IsTop limit rows (ranking.take limit) := by
  have hordered := h.ordered
  rw [← List.take_append_drop limit ranking, List.pairwise_append] at hordered
  obtain ⟨htop, -, hacross⟩ := hordered
  refine ⟨htop, ?_, ⟨ranking.drop limit, ?_, hacross⟩, fun r => ?_⟩
  · rw [List.length_take, h.perm.length_eq]
  · rw [List.take_append_drop]
    exact h.perm
  · rw [← h.stable r]
    exact (List.take_prefix limit ranking).filter _

/-! ## Best widgets

Rows without conversions are dropped, and the others have a rank unless their cost is a NaN. So the
answer is the front of the one ranking of these rows, and has no more rows than asked for. -/

/-- The rows that convert. -/
def converting (rows : List Record) : List Record := rows.filter fun r => 0 < r.conversions

/-- How many widgets are asked for, none by a negative number. -/
def limitOf (inv : Invocation) : Nat :=
  ((inv.args.integer? "filter_limit").getD inv.settings.defaultFilterNumber).toNat

/-- A converting row can be ranked if its cost per acquisition is no NaN. -/
theorem isRanked_of_converts (hconv : 0 < r.conversions)
    (hcpa : ∀ cpa, r.cpa? = some cpa → cpa.isNaN = false) : IsRanked r := by
  obtain ⟨-, p, -, hp, -⟩ := lt_iff.1 hconv
  refine ⟨by rw [hp]; rfl, Option.isSome_iff_ne_none.2 fun hnone => ?_⟩
  rw [place?_eq_none_iff] at hnone
  unfold rankedCost at hnone
  -- Without a cost a row is ranked as if it were zero.
  cases h : r.cpa? with
  | none =>
    rw [h] at hnone
    exact absurd hnone (by decide +kernel)
  | some cpa =>
    rw [h] at hnone
    exact absurd hnone (by rw [Option.getD_some, hcpa cpa h]; decide)

/-- **The best widgets are answered.** Of a table in which no cost per acquisition is a NaN, there is
one stable ranking of the converting rows, by conversions with the most first and then by cost per
acquisition, and `widgets-top` answers its front, as many rows as are asked for. -/
theorem widgetsTop_best {inv : Invocation} {d d' : Desk} {table : WidgetTable}
    (hdata : inv.wantsFields = false) (htable : (widgetTable inv).on d = (.ok table, d'))
    (hcpa : ∀ r ∈ table.rows, ∀ cpa, r.cpa? = some cpa → cpa.isNaN = false) :
    ∃ ranking, (∀ other, IsRanking (converting table.rows) other ↔ other = ranking) ∧
      (widgetsTop inv).on d =
        (.ok (.records ((ranking.take (limitOf inv)).map Record.withCpa) table.issues), d') ∧
      IsTop (limitOf inv) (converting table.rows) (ranking.take (limitOf inv)) := by
  have hranked : ∀ r ∈ converting table.rows, IsRanked r := fun r hr => by
    obtain ⟨hmem, hconv⟩ := List.mem_filter.1 hr
    exact isRanked_of_converts (of_decide_eq_true hconv) (hcpa r hmem)
  have htop : widgetsTop inv = widgetTable inv >>= fun table =>
      pure (respond table (topRows (limitOf inv) table.rows)) := by
    unfold widgetsTop
    rw [hdata]
    rfl
  refine ⟨ranked (converting table.rows), fun other => isRanking_iff hranked, ?_,
    isTop_take (isRanking_ranked hranked) _⟩
  rw [htop, on_bind_ok htable]
  rfl

/-! Three converting widgets of which two tie, and a limit of two: of those that tie, the one that stands
first in the table is answered. -/

namespace Tied

def widget (id : String) (conversions : Int) (spent : Int) : Record :=
  NameMap.ofList [("id", .string id), ("conv", .int conversions), ("spent", .int spent)]

def desk : Desk where
  mgid := some { data :=
    { campaigns := [NameMap.ofList [("id", .int 1), ("name", .string "No Key")]]
      widgetStats := NameMap.ofList
        [("1", [widget "a" 1 5, widget "b" 0 9, widget "c" 3 3, widget "d" 1 5])] } }

def invocation : Invocation where
  command := (Command.parse {} "/mgid widgets-top 1 2").toOption.get (by decide +kernel)
  settings := {}
  today := ⟨15759, by decide⟩

def isTable : Except Failure WidgetTable × Desk → Bool
  | (.ok table, _) => table.rows.all fun r => r.cpa?.all fun cpa => !cpa.isNaN
  | _ => false

def answered? : Except Failure Outcome × Desk → Option (List String)
  | (.ok ⟨.records rows, _⟩, _) => some (rows.filterMap Record.id?)
  | _ => none

end Tied

/-- The widget with the most conversions is answered, and of the two that tie the first one. -/
theorem widgetsTop_best_tied :
    ∃ table d' ranking, (widgetTable Tied.invocation).on Tied.desk = (.ok table, d') ∧
      IsRanking (converting table.rows) ranking ∧
      ((ranking.take (limitOf Tied.invocation)).map Record.withCpa).filterMap Record.id? =
        ["c", "a"] := by
  have hdata : Tied.invocation.wantsFields = false := by decide +kernel
  have htable : Tied.isTable ((widgetTable Tied.invocation).on Tied.desk) = true := by decide +kernel
  have hanswered : Tied.answered? ((widgetsTop Tied.invocation).on Tied.desk) = some ["c", "a"] := by
    decide +kernel
  rcases hon : (widgetTable Tied.invocation).on Tied.desk with ⟨res, d'⟩
  rw [hon] at htable
  cases res with
  | error e => exact absurd htable (by simp [Tied.isTable])
  | ok table =>
    have hcpa : ∀ r ∈ table.rows, ∀ cpa, r.cpa? = some cpa → cpa.isNaN = false := by
      intro r hr cpa h
      have hall := List.all_eq_true.1 htable r hr
      rw [h] at hall
      simpa using hall
    obtain ⟨ranking, hranking, htop, -⟩ := widgetsTop_best hdata hon hcpa
    rw [htop] at hanswered
    exact ⟨table, d', ranking, rfl, (hranking ranking).2 rfl, Option.some.inj hanswered⟩

end AdOps.Handler
