import AdOps.Proofs.Message.Grouping

/-!
# Cutting a text at its blank lines

A blank line is two line feeds. In a longer run of line feeds the cut is made at the first two, then at
the next two, so a piece in front of a cut never ends in a line feed, and a line feed that is left over
begins the piece behind. A text can be cut in this way only once, empty pieces included. The chunks of
a text are these pieces, some of them put together again.

* **`isCut_blocks`**, **`IsCut.unique`** — the blocks of a text are its leftmost cut, and it has no
  other.
* **`packText_lossless`** — the chunks of a text, joined, are the text, and a chunk that is too long
  holds no blank line.
-/

namespace AdOps.Message

/-- The pieces of a text between blank lines, each cut made as far to the left as it can be. -/
structure IsCut (text : String) (pieces : List String) : Prop where
  ne_nil : pieces ≠ []
  joined : blockJoiner.intercalate pieces = text
  whole : ∀ piece ∈ pieces, ¬ ['\n', '\n'] <:+: piece.toList
  leftmost : ∀ piece ∈ pieces.dropLast, piece.toList.getLast? ≠ some '\n'

variable {text : String} {pieces pieces' : List String}

/-! ## The blocks of a text are cut leftmost

Blocks are made from the front: where two line feeds begin, the cut is made, and otherwise a
character is put in front of the first block of the rest. A block can only end in a line feed if the
cut behind it was made one character too late. -/

/-- Only a cut makes the first piece empty. -/
theorem eq_of_splitPair_eq_nil_cons {a b c : Char} {cs : List Char} {rest : List (List Char)}
    (h : Text.splitPair a b (c :: cs) = [] :: rest) : c = a := by
  cases cs with
  | nil => simp [Text.splitPair] at h
  | cons d cs =>
    rw [Text.splitPair] at h
    split at h
    · next hcut => exact hcut.1
    · cases hsplit : Text.splitPair a b (d :: cs) with
      | nil => simp [hsplit, Text.consHead] at h
      | cons piece pieces => simp [hsplit, Text.consHead] at h

/-- A piece in front of a cut does not end in a line feed. -/
theorem getLast?_of_mem_splitPair {cs piece : List Char}
    (h : piece ∈ (Text.splitPair '\n' '\n' cs).dropLast) : piece.getLast? ≠ some '\n' := by
  -- Induction along the cuts. A character is last in front of a cut if the next one begins the cut.
  induction cs using Text.splitPair.induct '\n' '\n' generalizing piece with
  | case1 => simp [Text.splitPair] at h
  | case2 c => simp [Text.splitPair] at h
  | case3 c d cs hcut ih =>
    rw [Text.splitPair, if_pos hcut, List.dropLast_cons_of_ne_nil (splitPair_ne_nil _ _ cs)] at h
    rcases List.mem_cons.1 h with rfl | h
    · simp
    · exact ih h
  | case4 c d cs hcut ih =>
    obtain ⟨first, rest, hsplit, hfirst⟩ := exists_head_splitPair '\n' '\n' d cs
    rw [Text.splitPair, if_neg hcut, hsplit, Text.consHead] at h
    rw [hsplit] at ih
    by_cases hrest : rest = []
    · rw [hrest] at h
      exact absurd h (by simp)
    rw [List.dropLast_cons_of_ne_nil hrest] at h ih
    rcases List.mem_cons.1 h with rfl | h
    · cases first with
      | nil =>
        obtain rfl : d = '\n' := eq_of_splitPair_eq_nil_cons hsplit
        simpa using hcut
      | cons e first =>
        rw [List.getLast?_cons_cons]
        exact ih List.mem_cons_self
    · exact ih (List.mem_cons_of_mem _ h)

/-- **The blocks of a text are its leftmost cut.** -/
theorem isCut_blocks (text : String) : IsCut text (blocks text) where
  ne_nil := fun hnil => splitPair_ne_nil _ _ _ (List.map_eq_nil_iff.1 hnil)
  joined := intercalate_blocks text
  whole := fun _ hpiece => not_infix_of_mem_blocks hpiece
  leftmost := fun piece hpiece => by
    unfold blocks at hpiece
    rw [← List.map_dropLast] at hpiece
    obtain ⟨cs, hcs, rfl⟩ := List.mem_map.1 hpiece
    rw [String.toList_ofList]
    exact getLast?_of_mem_splitPair hcs

/-- Five line feeds hold two blank lines, and the one that is left over stays. -/
example : blocks "a\n\n\n\n\nb" = ["a", "", "\nb"] := by decide

/-! ## A text has one leftmost cut

Suppose that two cuts of one text differ, and look at the first pieces that do. The longer one of
them goes on with a line feed where the other one ends, and then it holds a blank line or ends in
that line feed, neither of which a leftmost cut allows. -/

/-- Where the first cuts of two texts that are equal are made: neither can be in front. -/
theorem eq_of_append_pair {p q xs ys : List Char} (hp : p.getLast? ≠ some '\n')
    (hwhole : ¬ ['\n', '\n'] <:+: p) (h : p ++ '\n' :: '\n' :: xs = q ++ '\n' :: '\n' :: ys)
    (hle : q.length ≤ p.length) : p = q ∧ xs = ys := by
  obtain ⟨r, rfl⟩ : ∃ r, p = q ++ r := by
    rcases List.append_eq_append_iff.1 h with ⟨r, rfl, -⟩ | ⟨r, hr, -⟩
    · rw [List.length_append] at hle
      obtain rfl : r = [] := List.length_eq_zero_iff.1 (by omega)
      exact ⟨[], by simp⟩
    · exact ⟨r, hr⟩
  rw [List.append_assoc, List.append_cancel_left_eq] at h
  -- What one piece has more begins the pair that ends the other.
  rcases r with _ | ⟨c, _ | ⟨d, r⟩⟩
  · simpa using h
  · obtain ⟨rfl, -⟩ := List.cons.inj h
    exact absurd (by simp) hp
  · obtain ⟨rfl, htail⟩ := List.cons.inj h
    obtain ⟨rfl, -⟩ := List.cons.inj htail
    exact absurd ⟨q, r, by simp⟩ hwhole

/-- The first piece stands in front, and a blank line behind it. -/
theorem joined_cons {piece : String} (hne : pieces ≠ []) :
    (blockJoiner.intercalate (piece :: pieces)).toList =
      piece.toList ++ '\n' :: '\n' :: (blockJoiner.intercalate pieces).toList := by
  rw [String.intercalate_cons_of_ne_nil hne, String.toList_append, String.toList_append,
    List.append_assoc]
  rfl

/-- A cut of one piece has no blank line to cut at. -/
theorem eq_nil_of_joined {p q : String} (hwhole : ¬ ['\n', '\n'] <:+: p.toList)
    (h : blockJoiner.intercalate [p] = blockJoiner.intercalate (q :: pieces)) : pieces = [] := by
  by_contra hne
  rw [String.intercalate_singleton] at h
  exact hwhole ⟨q.toList, (blockJoiner.intercalate pieces).toList, by rw [h, joined_cons hne]; simp⟩

/-- Behind the first piece the text is cut leftmost too. -/
theorem IsCut.tail {piece : String} (h : IsCut text (piece :: pieces)) (hne : pieces ≠ []) :
    IsCut (blockJoiner.intercalate pieces) pieces where
  ne_nil := hne
  joined := rfl
  whole := fun p hp => h.whole p (List.mem_cons_of_mem _ hp)
  leftmost := fun p hp => h.leftmost p <| by
    rw [List.dropLast_cons_of_ne_nil hne]
    exact List.mem_cons_of_mem _ hp

/-- **A text has no other leftmost cut.** -/
theorem IsCut.unique (h : IsCut text pieces) (h' : IsCut text pieces') : pieces = pieces' := by
  induction pieces generalizing text pieces' with
  | nil => exact absurd rfl h.ne_nil
  | cons p ps ih =>
    cases pieces' with
    | nil => exact absurd rfl h'.ne_nil
    | cons q qs =>
      have hp : ¬ ['\n', '\n'] <:+: p.toList := h.whole p List.mem_cons_self
      have hq : ¬ ['\n', '\n'] <:+: q.toList := h'.whole q List.mem_cons_self
      have hjoined := h.joined.trans h'.joined.symm
      -- A piece that is the whole text leaves nothing for the other cut to cut at.
      by_cases hps : ps = []
      · subst hps
        obtain rfl := eq_nil_of_joined hp hjoined
        rw [String.intercalate_singleton, String.intercalate_singleton] at hjoined
        rw [hjoined]
      by_cases hqs : qs = []
      · subst hqs
        exact absurd (eq_nil_of_joined hq hjoined.symm) hps
      have hlast : p.toList.getLast? ≠ some '\n' := h.leftmost p <| by
        rw [List.dropLast_cons_of_ne_nil hps]
        exact List.mem_cons_self
      have hlast' : q.toList.getLast? ≠ some '\n' := h'.leftmost q <| by
        rw [List.dropLast_cons_of_ne_nil hqs]
        exact List.mem_cons_self
      have hlists := congrArg String.toList hjoined
      rw [joined_cons hps, joined_cons hqs] at hlists
      obtain ⟨hfirst, hrest⟩ : p.toList = q.toList ∧
          (blockJoiner.intercalate ps).toList = (blockJoiner.intercalate qs).toList := by
        -- One of the first pieces is not longer than the other.
        rcases Nat.le_total q.toList.length p.toList.length with hle | hle
        · exact eq_of_append_pair hlast hp hlists hle
        · obtain ⟨hfirst, hrest⟩ := eq_of_append_pair hlast' hq hlists.symm hle
          exact ⟨hfirst.symm, hrest.symm⟩
      have htail := h'.tail hqs
      rw [← String.toList_inj.1 hrest] at htail
      rw [String.toList_inj.1 hfirst, ih (h.tail hps) htail]

/-! ## The chunks of a text

Packing groups the blocks as they come, so whatever holds of the blocks carries over to their
groups. -/

/-- **Nothing of a text is lost in its chunks, and it is split only at blank lines.** The chunks,
joined by blank lines, are the text, whatever size is allowed. They are groups of neighbours among the
pieces of the one leftmost cut of the text, and a chunk that is longer than allowed holds no blank line
at which it could have been split. -/
theorem packText_lossless (max : Nat) (text : String) :
    blockJoiner.intercalate (packText max text) = text ∧
      (∀ chunk ∈ packText max text, max < chunk.length → ¬ ['\n', '\n'] <:+: chunk.toList) ∧
      ∃ groups : List (List String), (∀ g ∈ groups, g ≠ []) ∧
        packText max text = groups.map blockJoiner.intercalate ∧
          ∀ pieces, IsCut text pieces ↔ pieces = groups.flatten := by
  refine ⟨?_, fun chunk hchunk hlong => ?_, ?_⟩
  · unfold packText
    rw [intercalate_pack, intercalate_blocks]
  · rcases length_le_of_mem_pack hchunk with hle | hblock
    · exact absurd hlong (Nat.not_lt.2 hle)
    · exact not_infix_of_mem_blocks hblock
  · obtain ⟨G, hpack, -⟩ := exists_isFull_pack max blockJoiner (blocks text)
    refine ⟨G.groups, G.ne_nil, hpack, fun pieces => ?_⟩
    rw [G.flatten_eq]
    constructor
    -- The pieces of any leftmost cut are the blocks, and these are the groups laid out.
    · intro hcut
      exact hcut.unique (isCut_blocks text)
    · rintro rfl
      exact isCut_blocks text

end AdOps.Message
