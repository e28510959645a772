import Mathlib.Data.Fin.VecNotation
import Mathlib.Data.List.Pairwise
import Mathlib.Order.Fin.Basic
import AdOps.Grammar

/-!
# Placing words in slots

Words are put into slots from left to right, and no word is ever taken out of a slot again, although
a word may fit several slots. Nothing is lost by that: in a grammar that has its required slots in
front, a word that goes into the first slot it fits leaves at least as much room behind it as any
other choice would.

* **`Placement.le_of_isGreedy`** — a greedy placement stays ahead of every other.
* **`exists_isGreedy`** — what slots are filled with is a greedy placement.
* **`exists_fill_of_placement`** — where any placement exists, the slots are filled.
* **`fill_complete`** — slots are filled exactly if the words can be placed, and then each word stands
  in the earliest slot that it has in any placement.
-/

namespace AdOps

/-- A way to put words into slots: each word into a slot of its own that it fits, in the order of the
words, so that no required slot stays empty. -/
@[ext]
structure Placement (s : Settings) (slots : List Slot) (words : List String) where
  place : Fin words.length → Fin slots.length
  ordered : StrictMono place
  fits : ∀ i, slots[place i].kind.fits s words[i] = true
  filled : ∀ j, slots[j].optional = false → ∃ i, place i = j

/-- Behind a slot that may stay empty there are only such slots. -/
def RequiredFirst (slots : List Slot) : Prop :=
  slots.Pairwise fun slot later => slot.optional = true → later.optional = true

instance (slots : List Slot) : Decidable (RequiredFirst slots) :=
  inferInstanceAs (Decidable (slots.Pairwise _))

namespace Placement

variable {s : Settings} {slot : Slot} {slots : List Slot} {word : String} {words : List String}

/-- The words with the slots they are in. -/
def captures (p : Placement s slots words) : List Capture :=
  List.ofFn fun i => ⟨slots[p.place i], words[i]⟩

/-- Each word in turn is in the first slot that it fits behind the slots of the words before it. -/
def IsGreedy (p : Placement s slots words) : Prop :=
  ∀ i j, j < p.place i → (∀ k < i, p.place k < j) → slots[j].kind.fits s words[i] = false

/-- **A greedy placement stays ahead of every other**: no word has an earlier slot in any. -/
theorem le_of_isGreedy {p : Placement s slots words} (hp : p.IsGreedy)
    (q : Placement s slots words) (i : Fin words.length) : p.place i ≤ q.place i := by
  -- Induction on the words: the words before stand behind nothing that the other placement uses.
  induction i using WellFoundedLT.induction with
  | ind i ih =>
    by_contra hlt
    have hbehind : ∀ k < i, p.place k < q.place i := fun k hk =>
      lt_of_le_of_lt (ih k hk) (q.ordered hk)
    have hunfit := hp i (q.place i) (lt_of_not_ge hlt) hbehind
    have hfit := q.fits i
    rw [hunfit] at hfit
    exact absurd hfit (by simp)

/-! ## One slot more

A placement grows by a slot in front in two ways, as slots are filled in two ways: the slot is
passed over, or it takes the word in front. Either step keeps a placement greedy. -/

/-- The slot in front stays empty. -/
def skip (p : Placement s slots words) (hoptional : slot.optional = true) :
    Placement s (slot :: slots) words where
  place i := (p.place i).succ
  ordered := fun _ _ hlt => Fin.succ_lt_succ_iff.2 (p.ordered hlt)
  fits := p.fits
  filled := by
    intro j hrequired
    induction j using Fin.cases with
    | zero =>
      have hslot : slot.optional = false := hrequired
      rw [hoptional] at hslot
      exact absurd hslot (by simp)
    | succ j =>
      obtain ⟨i, hi⟩ := p.filled j hrequired
      exact ⟨i, congrArg Fin.succ hi⟩

/-- The slot in front takes the word in front. -/
def take (p : Placement s slots words) (hfits : slot.kind.fits s word = true) :
    Placement s (slot :: slots) (word :: words) where
  place := Fin.cons 0 fun i => (p.place i).succ
  ordered := by
    intro i i' hlt
    induction i' using Fin.cases with
    | zero => exact absurd hlt (Fin.not_lt_zero i)
    | succ i' =>
      induction i using Fin.cases with
      | zero => exact Fin.succ_pos (p.place i')
      | succ i => exact Fin.succ_lt_succ_iff.2 (p.ordered (Fin.succ_lt_succ_iff.1 hlt))
  fits := by
    intro i
    induction i using Fin.cases with
    | zero => exact hfits
    | succ i => exact p.fits i
  filled := by
    intro j hrequired
    induction j using Fin.cases with
    | zero => exact ⟨0, rfl⟩
    | succ j =>
      obtain ⟨i, hi⟩ := p.filled j hrequired
      exact ⟨i.succ, congrArg Fin.succ hi⟩

theorem captures_skip (p : Placement s slots words) (hoptional : slot.optional = true) :
    (p.skip hoptional).captures = p.captures := rfl

/-- A slot that takes the word in front captures it before all others. -/
theorem captures_take (p : Placement s slots words) (hfits : slot.kind.fits s word = true) :
    (p.take hfits).captures = ⟨slot, word⟩ :: p.captures := by
  unfold captures
  exact List.ofFn_succ

/-- To leave a slot empty is greedy if the word in front does not fit it. -/
theorem IsGreedy.skip {p : Placement s slots words} (hp : p.IsGreedy)
    (hoptional : slot.optional = true)
    (hunfit : ∀ word ∈ words.head?, slot.kind.fits s word = false) : (p.skip hoptional).IsGreedy := by
  intro i j hlt hbehind
  induction j using Fin.cases with
  | zero =>
    -- Only the word in front has no word before it.
    have hfirst : i.val = 0 := by
      by_contra hne
      have hlt : (⟨0, i.pos⟩ : Fin words.length) < i := Fin.lt_def.2 (Nat.pos_of_ne_zero hne)
      exact absurd (hbehind _ hlt) (Fin.not_lt_zero _)
    refine hunfit words[i] ?_
    rw [List.head?_eq_getElem?]
    exact List.getElem?_eq_some_iff.2 ⟨i.pos, by simp [hfirst]⟩
  | succ j =>
    exact hp i j (Fin.succ_lt_succ_iff.1 hlt) fun k hk => Fin.succ_lt_succ_iff.1 (hbehind k hk)

/-- To take the word in front is greedy. -/
theorem IsGreedy.take {p : Placement s slots words} (hp : p.IsGreedy)
    (hfits : slot.kind.fits s word = true) : (p.take hfits).IsGreedy := by
  intro i j hlt hbehind
  induction i using Fin.cases with
  | zero => exact absurd hlt (Fin.not_lt_zero j)
  | succ i =>
    induction j using Fin.cases with
    | zero => exact absurd (hbehind 0 (Fin.succ_pos i)) (Fin.not_lt_zero _)
    | succ j =>
      refine hp i j (Fin.succ_lt_succ_iff.1 hlt) fun k hk => ?_
      exact Fin.succ_lt_succ_iff.1 (hbehind k.succ (Fin.succ_lt_succ_iff.2 hk))

/-! ## One slot less

For completeness any placement has to be cut down along with the step that filling makes, though it
may have put the word in front elsewhere. Where that word leaves its slot for the one in front, the
slot it leaves may stay empty: the slot in front was empty, so it is optional, and so are all behind
it. -/

/-- A slot is counted from the front, or from the one behind the front. -/
theorem getElem_pred (j : Fin (slot :: slots).length) (h : j ≠ 0) :
    slots[j.pred h] = (slot :: slots)[j] := by
  induction j using Fin.cases with
  | zero => exact absurd rfl h
  | succ j => rfl

/-- A placement that leaves the slot in front empty is a placement in the slots behind it. -/
def behind (q : Placement s (slot :: slots) words) (hempty : ∀ i, q.place i ≠ 0) :
    Placement s slots words where
  place i := (q.place i).pred (hempty i)
  ordered := fun _ _ hlt => Fin.pred_lt_pred_iff.2 (q.ordered hlt)
  fits := by
    intro i
    rw [getElem_pred]
    exact q.fits i
  filled := by
    intro j hrequired
    obtain ⟨i, hi⟩ := q.filled j.succ hrequired
    refine ⟨i, ?_⟩
    simp only [hi, Fin.pred_succ]

/-- Only the word in front can be in the slot in front. -/
theorem place_succ_ne_zero (q : Placement s (slot :: slots) (word :: words))
    (i : Fin words.length) : q.place i.succ ≠ 0 := by
  have hlt : q.place 0 < q.place i.succ := q.ordered (Fin.succ_pos i)
  exact (lt_of_le_of_lt (Fin.zero_le _) hlt).ne'

/-- The slot in front is required only if the word in front is in it. -/
theorem place_zero_of_required (q : Placement s (slot :: slots) (word :: words))
    (hrequired : slot.optional = false) : q.place 0 = 0 := by
  obtain ⟨i, hi⟩ := q.filled 0 hrequired
  induction i using Fin.cases with
  | zero => exact hi
  | succ i => exact absurd hi (q.place_succ_ne_zero i)

/-- A word that does not fit the slot in front is further back, and so are the words behind it. -/
theorem place_ne_zero (q : Placement s (slot :: slots) (word :: words))
    (hunfit : ¬ slot.kind.fits s word = true) (i : Fin (word :: words).length) :
    q.place i ≠ 0 := by
  induction i using Fin.cases with
  | zero =>
    intro hzero
    have hslot : (slot :: slots)[q.place 0] = slot := by
      simp only [hzero]
      rfl
    have hfits := q.fits 0
    rw [hslot] at hfits
    exact hunfit hfits
  | succ i => exact q.place_succ_ne_zero i

/-- Without its first word and its first slot a placement is one still. If the first word was in a
slot further back, that slot was optional, for the one in front stayed empty. -/
def tail (q : Placement s (slot :: slots) (word :: words))
    (hfirst : RequiredFirst (slot :: slots)) : Placement s slots words where
  place i := (q.place i.succ).pred (q.place_succ_ne_zero i)
  ordered := fun _ _ hlt => Fin.pred_lt_pred_iff.2 (q.ordered (Fin.succ_lt_succ_iff.2 hlt))
  fits := by
    intro i
    rw [getElem_pred]
    exact q.fits i.succ
  filled := by
    intro j hrequired
    obtain ⟨i, hi⟩ := q.filled j.succ hrequired
    induction i using Fin.cases with
    | succ i =>
      refine ⟨i, ?_⟩
      simp only [hi, Fin.pred_succ]
    | zero =>
      have hoptional : slot.optional = true := by
        by_contra hslot
        have hzero := q.place_zero_of_required (Bool.eq_false_iff.2 hslot)
        exact absurd (hi.symm.trans hzero) (Fin.succ_ne_zero j)
      have hlater : slots[j].optional = true :=
        (List.pairwise_cons.1 hfirst).1 _ (List.getElem_mem j.isLt) hoptional
      have hj : slots[j].optional = false := hrequired
      rw [hj] at hlater
      exact absurd hlater (by simp)

end Placement

/-! ## Filling slots

Both directions follow the recursion of filling, case by case. Read forwards, each step builds the
greedy placement that it stands for; read backwards, each step leaves what a given placement can be
cut down to. -/

section fill

variable {s : Settings} {slots : List Slot} {words : List String}

/-- **What slots are filled with is a greedy placement.** -/
theorem exists_isGreedy {captures : List Capture} (h : fill s slots words = some captures) :
    ∃ p : Placement s slots words, p.IsGreedy ∧ p.captures = captures := by
  -- Cases 3 and 6 pass a slot over, case 5 takes a word, and the others fail.
  fun_induction fill s slots words generalizing captures with
  | case1 =>
    obtain rfl := Option.some.inj h
    exact ⟨⟨Fin.elim0, fun i => i.elim0, fun i => i.elim0, fun j => j.elim0⟩, fun i => i.elim0, rfl⟩
  | case2 => exact absurd h (by simp)
  | case3 slot slots hoptional ih =>
    obtain ⟨p, hp, hcaptures⟩ := ih h
    refine ⟨p.skip hoptional, hp.skip hoptional (by simp), ?_⟩
    rw [p.captures_skip, hcaptures]
  | case4 => exact absurd h (by simp)
  | case5 slot slots word words hfits ih =>
    obtain ⟨rest, hrest, rfl⟩ := Option.map_eq_some_iff.1 h
    obtain ⟨p, hp, rfl⟩ := ih hrest
    exact ⟨p.take hfits, hp.take hfits, p.captures_take hfits⟩
  | case6 slot slots word words hfits hoptional ih =>
    obtain ⟨p, hp, hcaptures⟩ := ih h
    have hunfit : ∀ w ∈ (word :: words).head?, slot.kind.fits s w = false := by
      intro w hw
      obtain rfl := Option.some.inj hw
      exact Bool.eq_false_iff.2 hfits
    refine ⟨p.skip hoptional, hp.skip hoptional hunfit, ?_⟩
    rw [p.captures_skip, hcaptures]
  | case7 => exact absurd h (by simp)

/-- **Where any placement exists, the slots are filled.** -/
theorem exists_fill_of_placement (hfirst : RequiredFirst slots) (q : Placement s slots words) :
    ∃ captures, fill s slots words = some captures := by
  -- Whatever the step does with the slot in front, the words left can be placed in the slots left.
  fun_induction fill s slots words with
  | case1 => exact ⟨[], rfl⟩
  | case2 => exact (q.place 0).elim0
  | case3 slot slots hoptional ih =>
    exact ih (List.pairwise_cons.1 hfirst).2 (q.behind fun i => i.elim0)
  | case4 slot slots hrequired =>
    obtain ⟨i, -⟩ := q.filled 0 (Bool.eq_false_iff.2 hrequired)
    exact i.elim0
  | case5 slot slots word words hfits ih =>
    obtain ⟨captures, hfill⟩ := ih (List.pairwise_cons.1 hfirst).2 (q.tail hfirst)
    exact ⟨⟨slot, word⟩ :: captures, by rw [hfill]; rfl⟩
  | case6 slot slots word words hunfit hoptional ih =>
    exact ih (List.pairwise_cons.1 hfirst).2 (q.behind (q.place_ne_zero hunfit))
  | case7 slot slots word words hunfit hrequired =>
    have hzero := q.place_zero_of_required (Bool.eq_false_iff.2 hrequired)
    exact absurd hzero (q.place_ne_zero hunfit 0)

/-- **Filling slots greedily is complete.** In each grammar, and in any that has its required slots in
front: the slots are filled exactly if the words can be placed in them at all; and they are filled
with the one placement in which each word in turn is in the first slot that it fits behind the words
before it, which is also the earliest slot that the word has in any placement. -/
theorem fill_complete :
    (∀ g ∈ Grammar.all, RequiredFirst g.slots) ∧
      ∀ slots, RequiredFirst slots → ∀ s words,
        ((fill s slots words).isSome = true ↔ Nonempty (Placement s slots words)) ∧
          ∀ captures, fill s slots words = some captures ↔
            ∃ p : Placement s slots words, p.captures = captures ∧ p.IsGreedy ∧
              ∀ (q : Placement s slots words) i, p.place i ≤ q.place i := by
  refine ⟨by decide, fun slots hfirst s words => ⟨⟨fun hsome => ?_, ?_⟩, fun captures => ⟨?_, ?_⟩⟩⟩
  · obtain ⟨captures, hfill⟩ := Option.isSome_iff_exists.1 hsome
    obtain ⟨p, -, -⟩ := exists_isGreedy hfill
    exact ⟨p⟩
  -- Any placement will do, greedy or not.
  · rintro ⟨q⟩
    obtain ⟨captures, hfill⟩ := exists_fill_of_placement hfirst q
    rw [hfill]
    rfl
  · intro hfill
    obtain ⟨p, hp, hcaptures⟩ := exists_isGreedy hfill
    exact ⟨p, hcaptures, hp, Placement.le_of_isGreedy hp⟩
  · rintro ⟨p, rfl, hp, hleast⟩
    -- What the slots are filled with is greedy too, so it is the same placement.
    obtain ⟨captures, hfill⟩ := exists_fill_of_placement hfirst p
    obtain ⟨p', hp', rfl⟩ := exists_isGreedy hfill
    obtain rfl : p' = p := Placement.ext <| funext fun i =>
      le_antisymm (Placement.le_of_isGreedy hp' p i) (hleast p' i)
    exact hfill

end fill

/-! The word for "all" may be a word that is an interval as well. Where a widget may be named, it goes
there, although the interval behind would take it. -/

namespace Ambiguous

def settings : Settings := { allAlias := "today" }

def slots : List Slot := [Grammar.campaign, Grammar.anyWidget, Grammar.interval]

def words : List String := ["1", "today"]

def asInterval : Placement settings slots words where
  place := (![0, 2] : Fin 2 → Fin 3)
  ordered := by
    show ∀ i i' : Fin 2, i < i' → (![0, 2] : Fin 2 → Fin 3) i < ![0, 2] i'
    decide
  fits := by decide +kernel
  filled := by
    -- Only the slot in front is required.
    have hfront : ∀ j : Fin slots.length, slots[j].optional = false → j.val = 0 := by decide
    exact fun j hrequired => ⟨(0 : Fin 2), Fin.ext (hfront j hrequired).symm⟩

end Ambiguous

/-- The word stands in the slot for a widget, which is earlier than the slot for an interval. -/
theorem fill_complete_ambiguous :
    RequiredFirst Ambiguous.slots ∧
      ∃ p : Placement Ambiguous.settings Ambiguous.slots Ambiguous.words,
        p.captures = [⟨Grammar.campaign, "1"⟩, ⟨Grammar.anyWidget, "today"⟩] ∧ p.IsGreedy ∧
          ∀ i, p.place i ≤ Ambiguous.asInterval.place i := by
  have hfirst : RequiredFirst Ambiguous.slots := by decide
  obtain ⟨-, hfill⟩ := fill_complete.2 Ambiguous.slots hfirst Ambiguous.settings Ambiguous.words
  obtain ⟨p, hcaptures, hp, hleast⟩ :=
    (hfill [⟨Grammar.campaign, "1"⟩, ⟨Grammar.anyWidget, "today"⟩]).1 (by decide +kernel)
  exact ⟨hfirst, p, hcaptures, hp, hleast Ambiguous.asInterval⟩

end AdOps
