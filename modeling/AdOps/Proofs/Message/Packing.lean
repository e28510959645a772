import AdOps.Message.Chunk

/-!
# Packing blocks into chunks

Packing puts blocks together and takes none apart, so the chunks joined again are the blocks joined.
A chunk is longer than allowed only if it is a single block. The blocks of a text are cut at its
blank lines, so none is left inside of one.

* **`intercalate_pack`** — nothing is lost and nothing is added.
* **`length_le_of_mem_pack`** — a chunk that is too long is one block.
* **`not_infix_of_mem_blocks`** — a block of a text holds no blank line.
* **`intercalate_blocks`** — the blocks of a text, joined, are the text.
-/

namespace AdOps.Message

variable {max : Nat} {joiner current chunk : String} {bs : List String}

/-- There is always the chunk being filled. -/
theorem packFrom_ne_nil (max : Nat) (joiner current : String) (bs : List String) :
    packFrom max joiner current bs ≠ [] := by
  induction bs generalizing current with
  | nil => exact List.cons_ne_nil _ _
  | cons b bs ih =>
    rw [packFrom]
    split
    · exact ih _
    · exact List.cons_ne_nil _ _

/-- Packing behind a chunk being filled loses nothing. -/
theorem intercalate_packFrom (max : Nat) (joiner current : String) (bs : List String) :
    joiner.intercalate (packFrom max joiner current bs) = joiner.intercalate (current :: bs) := by
  -- Induction on the blocks: each one is taken into the chunk being filled, or begins the next.
  induction bs generalizing current with
  | nil => rfl
  | cons b bs ih =>
    rw [packFrom]
    split
    · rw [ih, String.intercalate_cons_append, String.intercalate_cons_cons]
    · rw [String.intercalate_cons_of_ne_nil (packFrom_ne_nil max joiner b bs), ih,
        String.intercalate_cons_of_ne_nil (List.cons_ne_nil _ _)]

/-- **Nothing is lost and nothing is added**: the chunks joined are the blocks joined. -/
theorem intercalate_pack (max : Nat) (joiner : String) (bs : List String) :
    joiner.intercalate (pack max joiner bs) = joiner.intercalate bs := by
  cases bs with
  | nil => rfl
  | cons b bs => exact intercalate_packFrom max joiner b bs

/-- Only no blocks make no chunks. -/
theorem pack_eq_nil_iff : pack max joiner bs = [] ↔ bs = [] := by
  cases bs with
  | nil => exact ⟨fun _ => rfl, fun _ => rfl⟩
  | cons b bs => simp [pack, packFrom_ne_nil]

/-- Behind a chunk being filled: a chunk that is too long is one block, or the one that was being
filled. -/
theorem length_le_of_mem_packFrom (h : chunk ∈ packFrom max joiner current bs) :
    chunk.length ≤ max ∨ chunk = current ∨ chunk ∈ bs := by
  induction bs generalizing current with
  | nil => exact .inr (.inl (List.mem_singleton.1 h))
  | cons b bs ih =>
    rw [packFrom] at h
    -- A chunk that a block was taken into has been measured.
    split at h
    · next hfits =>
      rcases ih h with hle | rfl | hmem
      · exact .inl hle
      · refine .inl ?_
        rwa [String.length_append, String.length_append]
      · exact .inr (.inr (List.mem_cons_of_mem _ hmem))
    · rcases List.mem_cons.1 h with rfl | h
      · exact .inr (.inl rfl)
      · rcases ih h with hle | rfl | hmem
        · exact .inl hle
        · exact .inr (.inr List.mem_cons_self)
        · exact .inr (.inr (List.mem_cons_of_mem _ hmem))

/-- **A chunk that is longer than allowed is one block.** -/
theorem length_le_of_mem_pack (h : chunk ∈ pack max joiner bs) :
    chunk.length ≤ max ∨ chunk ∈ bs := by
  cases bs with
  | nil => exact absurd h List.not_mem_nil
  | cons b bs =>
    rcases length_le_of_mem_packFrom h with hle | rfl | hmem
    · exact .inl hle
    · exact .inr List.mem_cons_self
    · exact .inr (List.mem_cons_of_mem _ hmem)

/-! ## The blocks of a text

Blocks are cut at the first blank line from the left, then at the next one behind it. What is in
front of a cut is put together from the back, one character at a time, so that each step has to look
at the two characters in front only. -/

/-- The first piece is empty or begins as the characters do. -/
theorem exists_head_splitPair (a b c : Char) (cs : List Char) :
    ∃ piece pieces, Text.splitPair a b (c :: cs) = piece :: pieces ∧
      (piece = [] ∨ ∃ rest, piece = c :: rest) := by
  cases cs with
  | nil => exact ⟨_, _, rfl, .inr ⟨[], rfl⟩⟩
  | cons d cs =>
    rw [Text.splitPair]
    split
    · exact ⟨_, _, rfl, .inl rfl⟩
    · cases Text.splitPair a b (d :: cs) with
      | nil => exact ⟨_, _, rfl, .inr ⟨[], rfl⟩⟩
      | cons piece pieces => exact ⟨_, _, rfl, .inr ⟨piece, rfl⟩⟩

/-- No piece holds the pair at which it would have been cut. -/
theorem not_infix_of_mem_splitPair {a b : Char} {cs piece : List Char}
    (h : piece ∈ Text.splitPair a b cs) : ¬ [a, b] <:+: piece := by
  have hshort : ∀ cs : List Char, cs.length ≤ 1 → ¬ [a, b] <:+: cs := fun cs hle hinfix => by
    have := hinfix.length_le
    simp only [List.length_cons, List.length_nil] at this
    omega
  -- Induction along the cuts: a character goes in front of a piece only if no cut is there.
  induction cs using Text.splitPair.induct a b generalizing piece with
  | case1 =>
    rw [Text.splitPair, List.mem_singleton] at h
    exact h ▸ hshort [] (Nat.zero_le 1)
  | case2 c =>
    rw [Text.splitPair, List.mem_singleton] at h
    exact h ▸ hshort [c] (Nat.le_refl 1)
  | case3 c d cs hcut ih =>
    rw [Text.splitPair, if_pos hcut] at h
    rcases List.mem_cons.1 h with rfl | h
    · exact hshort [] (Nat.zero_le 1)
    · exact ih h
  | case4 c d cs hcut ih =>
    obtain ⟨first, pieces, hsplit, hfirst⟩ := exists_head_splitPair a b d cs
    rw [Text.splitPair, if_neg hcut, hsplit, Text.consHead] at h
    rw [hsplit] at ih
    rcases List.mem_cons.1 h with rfl | h
    · intro hinfix
      rcases List.infix_cons_iff.1 hinfix with hprefix | hinfix
      · obtain ⟨heq, htail⟩ := List.cons_prefix_cons.1 hprefix
        rcases hfirst with rfl | ⟨rest, rfl⟩
        · exact absurd htail.length_le (by simp)
        · exact hcut ⟨heq.symm, (List.cons_prefix_cons.1 htail).1.symm⟩
      · exact ih List.mem_cons_self hinfix
    · exact ih (List.mem_cons_of_mem _ h)

/-- **A block of a text holds no blank line.** -/
theorem not_infix_of_mem_blocks {text block : String} (h : block ∈ blocks text) :
    ¬ ['\n', '\n'] <:+: block.toList := by
  obtain ⟨piece, hpiece, rfl⟩ := List.mem_map.1 h
  rw [String.toList_ofList]
  exact not_infix_of_mem_splitPair hpiece

/-- There is always a piece. -/
theorem splitPair_ne_nil (a b : Char) (cs : List Char) : Text.splitPair a b cs ≠ [] := by
  cases cs with
  | nil => exact List.cons_ne_nil _ _
  | cons c cs =>
    obtain ⟨piece, pieces, hsplit, -⟩ := exists_head_splitPair a b c cs
    rw [hsplit]
    exact List.cons_ne_nil _ _

/-- The pieces with the pair put back between them are the characters. -/
theorem intercalate_splitPair (cs : List Char) :
    blockJoiner.intercalate ((Text.splitPair '\n' '\n' cs).map String.ofList) = String.ofList cs := by
  induction cs using Text.splitPair.induct '\n' '\n' with
  | case1 => rfl
  | case2 c => exact String.intercalate_singleton
  | case3 c d cs hcut ih =>
    have hne : (Text.splitPair '\n' '\n' cs).map String.ofList ≠ [] :=
      fun hnil => splitPair_ne_nil _ _ cs (List.map_eq_nil_iff.1 hnil)
    obtain ⟨rfl, rfl⟩ := hcut
    rw [Text.splitPair, if_pos ⟨rfl, rfl⟩, List.map_cons, String.intercalate_cons_of_ne_nil hne, ih]
    rw [show '\n' :: '\n' :: cs = ['\n', '\n'] ++ cs from rfl, String.ofList_append]
    rfl
  | case4 c d cs hcut ih =>
    obtain ⟨first, pieces, hsplit, -⟩ := exists_head_splitPair '\n' '\n' d cs
    rw [hsplit, List.map_cons] at ih
    rw [Text.splitPair, if_neg hcut, hsplit, Text.consHead, List.map_cons, String.ofList_cons,
      String.intercalate_cons_append, ih, ← String.ofList_cons]

/-- **The blocks of a text, joined, are the text.** -/
theorem intercalate_blocks (text : String) : blockJoiner.intercalate (blocks text) = text := by
  unfold blocks
  rw [intercalate_splitPair, String.ofList_toList]

end AdOps.Message
