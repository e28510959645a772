import Mathlib.Data.List.Chain
import AdOps.Proofs.Message.Packing

/-!
# Packing with the fewest chunks

A chunk is a group of neighbouring blocks, and a group of more than one block has to fit into a
message. Packing closes a group only when the next block would not fit, so each group is *full*; and
full groups are as few as groups can be: wherever other groups are cut, they have a cut inside of
each full group or right behind it.

* **`length_le_of_isFull`** — full groups are no more than other groups of the same blocks.
* **`exists_isFull_pack`** — what is packed are full groups.
* **`pack_fewest`** — packing is a grouping with the fewest groups.
-/

namespace AdOps.Message

/-- A way to cut blocks into groups of neighbours: no group is empty, and a group of more than one
block fits into a message when it is joined. -/
structure Grouping (max : Nat) (joiner : String) (bs : List String) where
  groups : List (List String)
  flatten_eq : groups.flatten = bs
  ne_nil : ∀ g ∈ groups, g ≠ []
  fits : ∀ g ∈ groups, 2 ≤ g.length → (joiner.intercalate g).length ≤ max

/-- No group could also take the first block of the next one. -/
def IsFull (max : Nat) (joiner : String) (groups : List (List String)) : Prop :=
  groups.IsChain fun g next => ∀ b ∈ next.head?, max < (joiner.intercalate (g ++ [b])).length

variable {max : Nat} {joiner : String} {bs : List String}

/-! ## The length of a group

A joined group is no shorter than a part of it, so a group that does not fit makes every group that
contains it too long. -/

theorem intercalate_append_singleton {g : List String} (hg : g ≠ []) (b : String) :
    joiner.intercalate (g ++ [b]) = joiner.intercalate g ++ joiner ++ b := by
  rw [String.intercalate_append_of_ne_nil hg (List.cons_ne_nil b []), String.intercalate_singleton]

/-- A group is no shorter than neighbours in it. -/
theorem length_intercalate_le_of_isInfix {g h : List String} (hpart : g <:+: h) :
    (joiner.intercalate g).length ≤ (joiner.intercalate h).length := by
  have happend : ∀ l m : List String,
      (joiner.intercalate l).length ≤ (joiner.intercalate (l ++ m)).length ∧
        (joiner.intercalate m).length ≤ (joiner.intercalate (l ++ m)).length := by
    intro l m
    by_cases hl : l = []
    · simp [hl]
    · by_cases hm : m = []
      · simp [hm]
      · rw [String.intercalate_append_of_ne_nil hl hm, String.length_append, String.length_append]
        omega
  obtain ⟨l, m, rfl⟩ := hpart
  exact Nat.le_trans (happend l g).2 (happend (l ++ g) m).1

/-! ## Full groups are few

Take the groups in turn and look at where each of the others ends. It cannot reach behind the first
block after the first full group, so every other group uses up one full group at most. The two lists
need not begin at the same block, which is why the statement is about the last of the blocks. -/

/-- A group that takes all of a full group and the block behind it does not fit. -/
theorem not_fits_of_full {before g : List String} {b : String} {rest : List String} (hg : g ≠ [])
    (hfull : max < (joiner.intercalate (g ++ [b])).length)
    (hfits : 2 ≤ (before ++ (g ++ b :: rest)).length →
      (joiner.intercalate (before ++ (g ++ b :: rest))).length ≤ max) : False := by
  have hpart : g ++ [b] <:+: before ++ (g ++ b :: rest) := ⟨before, rest, by simp⟩
  have hlong : 2 ≤ (before ++ (g ++ b :: rest)).length := by
    have hpos := List.length_pos_iff.2 hg
    simp only [List.length_append, List.length_cons]
    omega
  have hle : (joiner.intercalate (g ++ [b])).length ≤
      (joiner.intercalate (before ++ (g ++ b :: rest))).length :=
    length_intercalate_le_of_isInfix hpart
  have hmax := hfits hlong
  omega

/-- **Full groups are no more than other groups**, if they are groups of the last of the blocks. -/
theorem length_le_of_isFull {full other : List (List String)} (hfull : IsFull max joiner full)
    (hne : ∀ g ∈ full, g ≠ [])
    (hfits : ∀ h ∈ other, 2 ≤ h.length → (joiner.intercalate h).length ≤ max)
    (hsuffix : full.flatten <:+ other.flatten) : full.length ≤ other.length := by
  -- Induction on the other groups. Each ends before the first full group does, or right there.
  induction other generalizing full with
  | nil =>
    cases full with
    | nil => exact Nat.le_refl 0
    | cons g gs =>
      have hnil : g = [] ∧ gs.flatten = [] := by simpa using hsuffix
      exact absurd hnil.1 (hne g List.mem_cons_self)
  | cons h hs ih =>
    obtain ⟨hh, hhs⟩ := List.forall_mem_cons.1 hfits
    cases full with
    | nil => exact Nat.zero_le _
    | cons g gs =>
      obtain ⟨hg, hgs⟩ := List.forall_mem_cons.1 hne
      obtain ⟨hnext, hfull'⟩ := List.isChain_cons.1 hfull
      obtain ⟨before, heq⟩ := hsuffix
      rw [List.flatten_cons, List.flatten_cons, List.append_eq_append_iff] at heq
      rcases heq with ⟨start, rfl, hstart⟩ | ⟨rest, -, heq⟩
      · rcases List.append_eq_append_iff.1 hstart with ⟨rest, rfl, heq⟩ | ⟨rest, -, heq⟩
        · cases rest with
          | nil =>
            -- It ends right where the full group does.
            have hrest : gs.flatten <:+ hs.flatten := ⟨[], heq⟩
            exact Nat.succ_le_succ (ih hfull' hgs hhs hrest)
          | cons b rest =>
            -- It would end behind the full group, but then it would not fit.
            cases gs with
            | nil => exact absurd heq (by simp)
            | cons g' gs =>
              obtain ⟨c, rest', rfl⟩ := List.exists_cons_of_ne_nil (hgs g' List.mem_cons_self)
              obtain rfl : c = b := (List.cons.inj heq).1
              exact absurd hh (not_fits_of_full hg (hnext _ rfl c rfl))
        · -- It ends inside of the full group.
          have hrest : gs.flatten <:+ hs.flatten := ⟨rest, heq.symm⟩
          exact Nat.succ_le_succ (ih hfull' hgs hhs hrest)
      · -- It ends before the full group begins.
        have hrest : (g :: gs).flatten <:+ hs.flatten := ⟨rest, heq.symm⟩
        exact Nat.le_succ_of_le (ih hfull hne hhs hrest)

/-! ## What is packed

The chunk being filled is the join of a group, and the group is what the proof follows: a block is
put into it while there is room, and else the group is closed, which makes it full by the very
comparison that closed it. -/

/-- **What is packed behind a group are full groups**, and the first of them begins with it. -/
theorem exists_isFull_packFrom {current : List String} (hne : current ≠ [])
    (hfits : 2 ≤ current.length → (joiner.intercalate current).length ≤ max) :
    ∃ G : Grouping max joiner (current ++ bs), IsFull max joiner G.groups ∧
      packFrom max joiner (joiner.intercalate current) bs = G.groups.map joiner.intercalate ∧
        ∃ more rest, G.groups = (current ++ more) :: rest := by
  -- Induction on the blocks: each one is taken into the group, or the group is closed and full.
  induction bs generalizing current with
  | nil =>
    refine ⟨⟨[current], by simp, ?_, ?_⟩, List.isChain_singleton _, rfl, [], [], by simp⟩
    · exact List.forall_mem_singleton.2 hne
    · exact List.forall_mem_singleton.2 hfits
  | cons b bs ih =>
    have hlength : (joiner.intercalate (current ++ [b])).length =
        (joiner.intercalate current).length + joiner.length + b.length := by
      rw [intercalate_append_singleton hne, String.length_append, String.length_append]
    rw [packFrom]
    split
    · next hroom =>
      obtain ⟨G, hfull, hpack, more, rest, hgroups⟩ := ih (List.append_ne_nil_of_left_ne_nil hne [b])
        fun _ => by rw [hlength]; exact hroom
      refine ⟨⟨G.groups, ?_, G.ne_nil, G.fits⟩, hfull, ?_, b :: more, rest, ?_⟩
      · rw [G.flatten_eq, List.append_assoc]
        rfl
      · rw [← intercalate_append_singleton hne, hpack]
      · rw [hgroups, List.append_assoc]
        rfl
    · next hroom =>
      obtain ⟨G, hfull, hpack, more, rest, hgroups⟩ := ih (List.cons_ne_nil b [])
        fun hlong => absurd hlong (by simp)
      rw [String.intercalate_singleton] at hpack
      refine ⟨⟨current :: G.groups, ?_, ?_, ?_⟩, ?_, ?_, [], G.groups, by simp⟩
      · rw [List.flatten_cons, G.flatten_eq]
        rfl
      · exact List.forall_mem_cons.2 ⟨hne, G.ne_nil⟩
      · exact List.forall_mem_cons.2 ⟨hfits, G.fits⟩
      · refine List.isChain_cons.2 ⟨?_, hfull⟩
        rw [hgroups]
        rintro _ ⟨⟩ _ ⟨⟩
        omega
      · rw [List.map_cons, ← hpack]

/-- **What is packed are full groups.** -/
theorem exists_isFull_pack (max : Nat) (joiner : String) (bs : List String) :
    ∃ G : Grouping max joiner bs,
      pack max joiner bs = G.groups.map joiner.intercalate ∧ IsFull max joiner G.groups := by
  cases bs with
  | nil => exact ⟨⟨[], rfl, by simp, by simp⟩, rfl, List.isChain_nil⟩
  | cons b bs =>
    have hfits : 2 ≤ [b].length → (joiner.intercalate [b]).length ≤ max :=
      fun hlong => absurd hlong (by simp)
    obtain ⟨G, hfull, hpack, -⟩ : ∃ G : Grouping max joiner ([b] ++ bs), _ ∧ _ ∧ _ :=
      exists_isFull_packFrom (List.cons_ne_nil b []) hfits
    rw [String.intercalate_singleton] at hpack
    exact ⟨G, hpack, hfull⟩

/-- **Packing makes the fewest chunks.** The chunks are groups of neighbouring blocks, joined: no
group is empty, one of more than one block fits into a message, and none could also take the first
block of the next one. So nothing is lost and nothing is added, and no grouping has fewer groups. -/
theorem pack_fewest (max : Nat) (joiner : String) (bs : List String) :
    ∃ G : Grouping max joiner bs,
      pack max joiner bs = G.groups.map joiner.intercalate ∧ IsFull max joiner G.groups ∧
        joiner.intercalate (pack max joiner bs) = joiner.intercalate bs ∧
          (pack max joiner bs = [] ↔ bs = []) ∧
            ∀ other : Grouping max joiner bs, (pack max joiner bs).length ≤ other.groups.length := by
  obtain ⟨G, hpack, hfull⟩ := exists_isFull_pack max joiner bs
  refine ⟨G, hpack, hfull, intercalate_pack max joiner bs, pack_eq_nil_iff, fun other => ?_⟩
  have hsuffix : G.groups.flatten <:+ other.groups.flatten :=
    ⟨[], G.flatten_eq.trans other.flatten_eq.symm⟩
  rw [hpack, List.length_map]
  exact length_le_of_isFull hfull G.ne_nil other.fits hsuffix

/-! A block that is too long stands alone, and an empty block behind it is not taken along even where
the joiner is empty. -/

example : pack 4 "" ["a", "bcdef", "", "gh", "ij"] = ["a", "bcdef", "ghij"] := by decide +kernel

end AdOps.Message
