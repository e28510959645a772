import AdOps.Proofs.Flag.Segment
import AdOps.Proofs.Text.Places

/-!
# The flag that stands at a word

A flag is recognised in the characters from its marker on. If a word stands there, then what is
recognised depends on this word and on the next one only, and is told by the role of the word.

* **`ahead?_word`** — what stands at a word is told by the role of the word.
-/

namespace AdOps

open Text

namespace Flag

variable {f : Flag} {w rest cs : List Char} {i : Nat}

/-! ## The flag ahead

The pattern of a flag is a marker, a name, a separator and a value. At a word that ends at a
boundary, the marker and the name lie in the word; the separator is a colon in the word, or the gap
behind it; and the value is the rest of the word, or the word behind the gap. Each lemma moves one
of these parts from the text to its words. -/

theorem accepts_nil (f : Flag) : f.accepts [] = false := by
  cases f <;> decide

/-- A marker is a matter of the word alone. -/
theorem unmark_append (hw : IsWord w) (hrest : atBoundary rest = true) :
    unmark (w ++ rest) = (unmark w).map (· ++ rest) := by
  -- Were the word one hyphen, then the second one would have to stand behind its end.
  have hdash : ∀ cs : List Char, rest ≠ '-' :: cs := by
    rintro cs rfl
    exact absurd hrest (by simp [atBoundary, show isBlank '-' = false by decide])
  unfold unmark
  -- A slash in front, two hyphens in front, or no marker.
  split
  · next heq =>
    cases w with
    | nil => exact absurd rfl hw.1
    | cons c w =>
      obtain ⟨rfl, rfl⟩ := List.cons.inj heq
      rfl
  · next heq =>
    cases w with
    | nil => exact absurd rfl hw.1
    | cons c w =>
      cases w with
      | nil => exact absurd (List.cons.inj heq).2 (hdash _)
      | cons d w =>
        obtain ⟨rfl, htail⟩ := List.cons.inj heq
        obtain ⟨rfl, rfl⟩ := List.cons.inj htail
        rfl
  · next hslash hdashes =>
    split
    · next cs => exact absurd rfl (hslash (cs ++ rest))
    · next cs => exact absurd rfl (hdashes (cs ++ rest))
    · rfl

/-- What stands behind the marker is part of the word. -/
theorem mem_of_unmark {body : List Char} (h : unmark w = some body) {c : Char} (hc : c ∈ body) :
    c ∈ w := by
  unfold unmark at h
  split at h
  · obtain rfl := Option.some.inj h
    exact List.mem_cons_of_mem _ hc
  · obtain rfl := Option.some.inj h
    exact List.mem_cons_of_mem _ (List.mem_cons_of_mem _ hc)
  · exact absurd h (by simp)

/-- A flag is told by its marker, so none begins at a boundary. -/
theorem ahead?_boundary (hcs : atBoundary cs = true) : f.ahead? cs = none := by
  have hnone : unmark cs = none := by
    unfold unmark
    split
    · exact absurd hcs (by simp [atBoundary, show isBlank '/' = false by decide])
    · exact absurd hcs (by simp [atBoundary, show isBlank '-' = false by decide])
    · rfl
  unfold ahead?
  rw [hnone]
  rfl

/-- The name in front of a flag's value ends at a colon or with its word. -/
theorem name_of_word {body : List Char} (hbody : ∀ c ∈ body, isBlank c = false)
    (hrest : atBoundary rest = true) (switch : Bool) :
    let inName (c : Char) := !isBlank c && (switch || c ≠ ':')
    let ofName (c : Char) : Bool := switch || c ≠ ':'
    (body ++ rest).takeWhile inName = body.takeWhile ofName ∧
      (body ++ rest).dropWhile inName = body.dropWhile ofName ++ rest := by
  intro inName ofName
  have hblank : ∀ c, isBlank c = true → inName c = false := fun c hc => by simp [inName, hc]
  have hsame : ∀ c ∈ body, inName c = ofName c := fun c hc => by simp [inName, ofName, hbody c hc]
  obtain ⟨htake, hdrop⟩ := takeWhile_congr hsame
  exact ⟨by rw [takeWhile_append_boundary hblank hrest, htake],
    by rw [dropWhile_append_boundary hblank hrest, hdrop]⟩

/-- The value word behind a gap is the next word, if there is one. -/
theorem value_ahead (rest : List Char) :
    (rest.dropWhile isBlank).takeWhile (!isBlank ·) =
      ((wordsOf rest).head?.map String.toList).getD [] := by
  obtain ⟨g, behind, rfl, hg, rfl | ⟨w, rest, rfl, hw, hrest⟩⟩ := exists_gap rest
  · rw [wordsOf_gap hg, List.append_nil, List.dropWhile_eq_nil_iff.2 hg]
    rfl
  · rw [wordsOf_gap hg, wordsOf_word hw hrest, dropWhile_gap hg hw, takeWhile_word hw hrest]
    simp

/-- At a boundary the separator is the gap. -/
theorem skipSeparator_boundary (hrest : atBoundary rest = true) :
    skipSeparator rest = rest.dropWhile isBlank := by
  unfold skipSeparator
  split
  · exact absurd hrest (by simp [atBoundary, show isBlank ':' = false by decide])
  · rfl

/-- What stands behind the name in a word begins with the colon. -/
theorem value_of_dropWhile {body value : List Char} {c : Char}
    (h : body.dropWhile (· ≠ ':') = c :: value) : c = ':' ∧ ∀ x ∈ value, x ∈ body := by
  have hne : body.dropWhile (· ≠ ':') ≠ [] := by
    rw [h]
    exact List.cons_ne_nil _ _
  have hhead := List.head_dropWhile_not (· ≠ ':') hne
  rw [show (body.dropWhile (· ≠ ':')).head hne = c by simp only [h, List.head_cons]] at hhead
  refine ⟨by simpa using hhead, fun x hx => (List.dropWhile_sublist (· ≠ ':')).subset ?_⟩
  rw [h]
  exact List.mem_cons_of_mem _ hx

/-- **What stands at a word is told by the role of the word.** -/
theorem ahead?_word (hw : IsWord w) (hrest : atBoundary rest = true) :
    f.ahead? (w ++ rest) =
      match f.roleOf (String.ofList w) (wordsOf rest).head? with
      | .whole value => some (value, rest)
      | .marker value =>
        some (value, (rest.dropWhile isBlank).dropWhile (!isBlank ·))
      | _ => none := by
  unfold ahead? roleOf
  rw [unmark_append hw hrest, String.toList_ofList]
  cases hbody : unmark w with
  | none => rfl
  | some body =>
    have hfree : ∀ c ∈ body, isBlank c = false := fun c hc => hw.2 c (mem_of_unmark hbody hc)
    obtain ⟨htake, hdrop⟩ := name_of_word hfree hrest f.isSwitch
    simp only [Option.map_some, Option.bind_eq_bind, Option.bind_some, htake, hdrop]
    -- A switch has to be all of the word; any other flag is named up to the colon or the end.
    cases hswitch : f.isSwitch with
    | true =>
      have hall : ∀ c ∈ body, (fun c : Char => (true || decide (c ≠ ':'))) c = true := by simp
      simp only [List.takeWhile_eq_self_iff.2 hall, List.dropWhile_eq_nil_iff.2 hall]
      cases f.isSpelled body <;> rfl
    | false =>
      simp only [Bool.false_or]
      cases hname : f.isSpelled (body.takeWhile (· ≠ ':')) with
      | false => rfl
      | true =>
        -- With a colon the value stands in the word, else it is the next one.
        cases hcolon : body.dropWhile (· ≠ ':') with
        | nil =>
          -- The value is the next word.
          simp only [List.nil_append, skipSeparator_boundary hrest, value_ahead rest]
          cases (wordsOf rest).head? with
          | none => simp [accepts_nil]
          | some next => cases hnext : f.accepts next.toList <;> simp [hnext]
        | cons c value =>
          -- The value is the rest of the word.
          obtain ⟨rfl, hvalue⟩ := value_of_dropWhile hcolon
          have hfree' : ∀ c ∈ value, (!isBlank c) = true := fun c hc => by
            simp [hfree c (hvalue c hc)]
          have hblank : ∀ c, isBlank c = true → (!isBlank c) = false := fun c hc => by simp [hc]
          simp only [List.cons_append, skipSeparator, takeWhile_append_boundary hblank hrest,
            dropWhile_append_boundary hblank hrest, List.takeWhile_eq_self_iff.2 hfree',
            List.dropWhile_eq_nil_iff.2 hfree', List.nil_append]
          cases f.accepts value <;> simp

/-- By itself no word is the value of a flag. -/
theorem roleOf_ne_operand (word : String) (next : Option String) :
    f.roleOf word next ≠ .operand := by
  unfold roleOf
  dsimp only
  repeat' split
  all_goals simp

/-- A marker without a colon takes the next word as its value. -/
theorem eq_of_roleOf_marker {word value : String} {next : Option String}
    (h : f.roleOf word next = .marker value) : next = some value := by
  unfold roleOf at h
  dsimp only at h
  repeat' split at h
  all_goals first
    | exact congrArg some (Role.marker.inj h)
    | exact absurd h (by simp)

end Flag

end AdOps
