import AdOps.Proofs.CommandLine.Accepted
import AdOps.Proofs.Flag.Exclusive

/-!
# What each word of a line is

Behind the head of an accepted line each word is captured, or it is the marker of an occurrence of a
flag, or the value word of one, or a marker that nothing came of. It is one of these only, with one
exception: the list of fields may begin with hyphens, so `/fields` takes a word as its value that
can at the same time be the marker of another flag.

* **`word_roles`** — the roles of the words behind the head of an accepted line.
-/

namespace AdOps

open Text

/-! ## Roles of words in a text

The walk over words gives a word one role for each flag; here these are put together. A word that is
something to two flags is the value of `/fields` and the marker of the other, so the roles that are
left to a word are one or exactly these two. A word that is nothing to any flag is captured or
ignored, by its marker. -/

/-- What a word of a line can be. -/
inductive WordRole where
  | captured
  | marker (f : Flag) (o : Occurrence)
  /-- The value of a flag, as a word of its own. -/
  | value (f : Flag) (o : Occurrence)
  /-- A marker that nothing came of. -/
  | ignored

/-- No flag covers the place. -/
def isFree (cs : List Char) (place : Nat) : Bool :=
  !(Flag.all.flatMap fun f => f.occurrences cs).any (·.covers place)

/-- The word that begins at a place of the text has the role. -/
def WordRole.Holds (cs : List Char) (place : Nat × String) : WordRole → Prop
  | .captured => isFree cs place.1 = true ∧ Flag.isMarked place.2 = false
  | .marker f o => o ∈ f.occurrences cs ∧ o.covers place.1 = true ∧ o.mark = place.1
  | .value f o => o ∈ f.occurrences cs ∧ o.covers place.1 = true ∧ o.mark < place.1
  | .ignored => isFree cs place.1 = true ∧ Flag.isMarked place.2 = true

/-- The words behind the head, with their places in the whole text. -/
def behindHead (cs : List Char) : List (Nat × String) := (placedWords cs).drop 2

/-- The word is the value of `/fields` and the marker of a flag at once. -/
def IsShared (cs : List Char) (place : Nat × String) : Prop :=
  ∃ o g o', (WordRole.value .fields o).Holds cs place ∧ (WordRole.marker g o').Holds cs place

section roles

variable {f g : Flag} {cs : List Char} {place : Nat × String} {k : Nat} {role : Role}
  {o o' : Occurrence}

/-- The role of a word among all words is its role at its place. -/
theorem Flag.exists_role (f : Flag) (hplace : (placedWords cs)[k]? = some place) :
    (wordsOf cs)[k]? = some place.2 ∧
      ∃ role, (f.roles (wordsOf cs))[k]? = some role ∧ role.IsAt (f.occurrences cs) place.1 := by
  have hwords : (placedWords cs).map Prod.snd = wordsOf cs := map_snd_placedFrom 0 cs
  obtain ⟨hlength, hisAt⟩ := List.forall₂_iff_get.1 (f.told 0 cs (.inl rfl)).isAt
  obtain ⟨hk, rfl⟩ := List.getElem?_eq_some_iff.1 hplace
  have hk' : k < (f.roles (wordsOf cs)).length := hlength ▸ hk
  refine ⟨?_, _, List.getElem?_eq_getElem hk', hisAt k hk hk'⟩
  rw [← hwords, List.getElem?_map, hplace]
  rfl

/-- An occurrence that covers a word is the only one of its flag that does, and the word has the
role in it that the walk says. -/
theorem eq_of_covers (hrole : role.IsAt (f.occurrences cs) place.1) (ho : o ∈ f.occurrences cs)
    (hcovers : o.covers place.1 = true) : role ≠ .outside ∧ role.IsIn o place.1 ∧
      ∀ o' ∈ f.occurrences cs, o'.covers place.1 = true → o' = o := by
  have hmem : o ∈ (f.occurrences cs).filter (·.covers place.1) := List.mem_filter.2 ⟨ho, hcovers⟩
  have hne : role ≠ .outside := by
    rintro rfl
    have hnone : (f.occurrences cs).filter (·.covers place.1) = [] := hrole
    rw [hnone] at hmem
    exact absurd hmem List.not_mem_nil
  obtain ⟨found, hfound, hisIn⟩ := Role.exists_of_isAt hne hrole
  rw [hfound] at hmem
  obtain rfl := List.mem_singleton.1 hmem
  refine ⟨hne, hisIn, fun o' ho' hcovers' => ?_⟩
  have hmem' : o' ∈ (f.occurrences cs).filter (·.covers place.1) :=
    List.mem_filter.2 ⟨ho', hcovers'⟩
  rw [hfound] at hmem'
  exact List.mem_singleton.1 hmem'

/-- The marker of an occurrence is no value to its flag. -/
theorem role_of_marker (hrole : role.IsAt (f.occurrences cs) place.1)
    (h : (WordRole.marker f o).Holds cs place) : role ≠ .outside ∧ role ≠ .operand := by
  obtain ⟨ho, hcovers, hmark⟩ := h
  obtain ⟨hne, hisIn, -⟩ := eq_of_covers hrole ho hcovers
  refine ⟨hne, ?_⟩
  -- A value stands behind the mark.
  rintro rfl
  have hlt : o.mark < place.1 := hisIn
  omega

/-- The value of an occurrence has that role to its flag. -/
theorem role_of_value (hrole : role.IsAt (f.occurrences cs) place.1)
    (h : (WordRole.value f o).Holds cs place) : role = .operand := by
  obtain ⟨ho, hcovers, hmark⟩ := h
  obtain ⟨hne, hisIn, -⟩ := eq_of_covers hrole ho hcovers
  cases role with
  | outside => exact absurd rfl hne
  | operand => rfl
  | _ =>
    have heq : o.mark = place.1 := hisIn.1
    omega

/-- A word with a role to a flag is the marker or the value of an occurrence of it. -/
theorem exists_of_role (hrole : role.IsAt (f.occurrences cs) place.1) (hne : role ≠ .outside) :
    ∃ o, (WordRole.marker f o).Holds cs place ∨ (WordRole.value f o).Holds cs place := by
  obtain ⟨o, hfilter, hisIn⟩ := Role.exists_of_isAt hne hrole
  have hmem : o ∈ (f.occurrences cs).filter (·.covers place.1) := by
    rw [hfilter]
    exact List.mem_singleton_self o
  obtain ⟨ho, hcovers⟩ := List.mem_filter.1 hmem
  refine ⟨o, ?_⟩
  cases role with
  | outside => exact absurd rfl hne
  | operand => exact .inr ⟨ho, hcovers, hisIn⟩
  | _ => exact .inl ⟨ho, hcovers, hisIn.1⟩

theorem isFree_iff : isFree cs place.1 = true ↔
    ∀ f : Flag, ∀ o ∈ f.occurrences cs, o.covers place.1 = false := by
  simp [isFree, Flag.mem_all]

/-- **Every word has a role.** -/
theorem exists_holds (cs : List Char) (place : Nat × String) (hplace : place ∈ placedWords cs) :
    ∃ role : WordRole, role.Holds cs place := by
  obtain ⟨k, hk⟩ := List.mem_iff_getElem?.1 hplace
  -- Covered by nothing, the word is told by its marker; else it has a role to the flag that covers
  -- it.
  by_cases hfree : isFree cs place.1 = true
  · cases hmarked : Flag.isMarked place.2 with
    | true => exact ⟨.ignored, hfree, hmarked⟩
    | false => exact ⟨.captured, hfree, hmarked⟩
  · simp only [isFree_iff, not_forall, Bool.not_eq_false] at hfree
    obtain ⟨f, o, ho, hcovers⟩ := hfree
    obtain ⟨-, role, -, hrole⟩ := f.exists_role hk
    obtain ⟨hne, -⟩ := eq_of_covers hrole ho hcovers
    obtain ⟨o, h | h⟩ := exists_of_role hrole hne
    · exact ⟨_, h⟩
    · exact ⟨_, h⟩

/-- What is covered is not free. -/
theorem isFree_of_covers (ho : o ∈ f.occurrences cs) (hcovers : o.covers place.1 = true) :
    isFree cs place.1 = false := by
  refine Bool.eq_false_iff.2 fun hfree => ?_
  rw [isFree_iff.1 hfree f o ho] at hcovers
  exact absurd hcovers (by simp)

/-- The words of two flags are apart, up to the values of `/fields`. -/
theorem flags_cases (hk : (placedWords cs)[k]? = some place) {roleF roleG : Role}
    (hf : (f.roles (wordsOf cs))[k]? = some roleF) (hg : (g.roles (wordsOf cs))[k]? = some roleG)
    (hroleF : roleF ≠ .outside) (hroleG : roleG ≠ .outside) :
    (f = g ∧ roleF = roleG) ∨ (f = .fields ∧ roleF = .operand ∧ roleG ≠ .operand) ∨
      (g = .fields ∧ roleG = .operand ∧ roleF ≠ .operand) := by
  by_cases hfg : f = g
  · subst hfg
    exact .inl ⟨rfl, Option.some.inj (hf.symm.trans hg)⟩
  · exact .inr (Flag.shared_cases hf hg (f.exists_role hk).1 hfg hroleF hroleG)

/-- A word is the marker of one occurrence at most. -/
theorem marker_unique (hplace : place ∈ placedWords cs) (hf : (WordRole.marker f o).Holds cs place)
    (hg : (WordRole.marker g o').Holds cs place) : f = g ∧ o = o' := by
  obtain ⟨k, hk⟩ := List.mem_iff_getElem?.1 hplace
  obtain ⟨-, roleF, hrolesF, hroleF⟩ := f.exists_role hk
  obtain ⟨-, roleG, hrolesG, hroleG⟩ := g.exists_role hk
  obtain ⟨hneF, hmarkerF⟩ := role_of_marker hroleF hf
  obtain ⟨hneG, hmarkerG⟩ := role_of_marker hroleG hg
  rcases flags_cases hk hrolesF hrolesG hneF hneG with
    ⟨rfl, -⟩ | ⟨-, hoperand, -⟩ | ⟨-, hoperand, -⟩
  · exact ⟨rfl, (eq_of_covers hroleF hg.1 hg.2.1).2.2 o hf.1 hf.2.1⟩
  · exact absurd hoperand hmarkerF
  · exact absurd hoperand hmarkerG

/-- A word is the value of one occurrence at most. -/
theorem value_unique (hplace : place ∈ placedWords cs) (hf : (WordRole.value f o).Holds cs place)
    (hg : (WordRole.value g o').Holds cs place) : f = g ∧ o = o' := by
  obtain ⟨k, hk⟩ := List.mem_iff_getElem?.1 hplace
  obtain ⟨-, roleF, hrolesF, hroleF⟩ := f.exists_role hk
  obtain ⟨-, roleG, hrolesG, hroleG⟩ := g.exists_role hk
  obtain rfl := role_of_value hroleF hf
  obtain rfl := role_of_value hroleG hg
  rcases flags_cases hk hrolesF hrolesG (by simp) (by simp) with
    ⟨rfl, -⟩ | ⟨-, -, hmarker⟩ | ⟨-, -, hmarker⟩
  · exact ⟨rfl, (eq_of_covers hroleF hg.1 hg.2.1).2.2 o hf.1 hf.2.1⟩
  · exact absurd rfl hmarker
  · exact absurd rfl hmarker

/-- A word that is both a marker and a value is the value of `/fields`. -/
theorem isShared_of_marker_value (hplace : place ∈ placedWords cs)
    (hf : (WordRole.marker f o).Holds cs place) (hg : (WordRole.value g o').Holds cs place) :
    IsShared cs place := by
  obtain ⟨k, hk⟩ := List.mem_iff_getElem?.1 hplace
  obtain ⟨-, roleF, hrolesF, hroleF⟩ := f.exists_role hk
  obtain ⟨-, roleG, hrolesG, hroleG⟩ := g.exists_role hk
  obtain ⟨hneF, hmarkerF⟩ := role_of_marker hroleF hf
  obtain rfl := role_of_value hroleG hg
  rcases flags_cases hk hrolesF hrolesG hneF (by simp) with
    ⟨-, hoperand⟩ | ⟨-, hoperand, -⟩ | ⟨rfl, -, -⟩
  · exact absurd hoperand hmarkerF
  · exact absurd hoperand hmarkerF
  · exact ⟨o', f, o, hg, hf⟩

/-- A word that is not shared has no two roles. -/
theorem eq_of_holds (hplace : place ∈ placedWords cs) (hshared : ¬ IsShared cs place)
    {r₁ r₂ : WordRole} (h₁ : r₁.Holds cs place) (h₂ : r₂.Holds cs place) : r₁ = r₂ := by
  -- Captured and ignored words are free, the others are covered.
  have hcovered : ∀ {f : Flag} {o : Occurrence}, o ∈ f.occurrences cs → o.covers place.1 = true →
      isFree cs place.1 ≠ true := fun ho hcovers => by simp [isFree_of_covers ho hcovers]
  cases r₁ with
  | captured =>
    cases r₂ with
    | captured => rfl
    | marker g o' => exact absurd h₁.1 (hcovered h₂.1 h₂.2.1)
    | value g o' => exact absurd h₁.1 (hcovered h₂.1 h₂.2.1)
    | ignored => exact absurd (h₁.2.symm.trans h₂.2) (by simp)
  | marker f o =>
    cases r₂ with
    | captured => exact absurd h₂.1 (hcovered h₁.1 h₁.2.1)
    | marker g o' =>
      obtain ⟨rfl, rfl⟩ := marker_unique hplace h₁ h₂
      rfl
    | value g o' => exact absurd (isShared_of_marker_value hplace h₁ h₂) hshared
    | ignored => exact absurd h₂.1 (hcovered h₁.1 h₁.2.1)
  | value f o =>
    cases r₂ with
    | captured => exact absurd h₂.1 (hcovered h₁.1 h₁.2.1)
    | marker g o' => exact absurd (isShared_of_marker_value hplace h₂ h₁) hshared
    | value g o' =>
      obtain ⟨rfl, rfl⟩ := value_unique hplace h₁ h₂
      rfl
    | ignored => exact absurd h₂.1 (hcovered h₁.1 h₁.2.1)
  | ignored =>
    cases r₂ with
    | captured => exact absurd (h₁.2.symm.trans h₂.2) (by simp)
    | marker g o' => exact absurd h₁.1 (hcovered h₂.1 h₂.2.1)
    | value g o' => exact absurd h₁.1 (hcovered h₂.1 h₂.2.1)
    | ignored => rfl

/-- **A word has exactly one role, unless it is shared.** -/
theorem existsUnique_holds (hplace : place ∈ placedWords cs) :
    (∃! role : WordRole, role.Holds cs place) ↔ ¬ IsShared cs place := by
  constructor
  -- A shared word has two roles that differ.
  · rintro ⟨role, -, hunique⟩ ⟨o, g, o', hvalue, hmarker⟩
    exact absurd ((hunique _ hvalue).trans (hunique _ hmarker).symm) (by simp)
  · intro hshared
    obtain ⟨role, hrole⟩ := exists_holds cs place hplace
    exact ⟨role, hrole, fun role' hrole' => eq_of_holds hplace hshared hrole' hrole⟩

/-- A marked word is the value of no flag but `/fields`. -/
theorem fields_of_value (hplace : place ∈ placedWords cs)
    (hvalue : (WordRole.value f o).Holds cs place) (hmarked : Flag.isMarked place.2 = true) :
    f = .fields ∧ ['-', '-'] <+: place.2.toList := by
  obtain ⟨k, hk⟩ := List.mem_iff_getElem?.1 hplace
  obtain ⟨hword, role, hroles, hrole⟩ := f.exists_role hk
  obtain rfl := role_of_value hrole hvalue
  exact Flag.fields_of_operand hroles hword hmarked

/-- The name of a flag by itself, with no value behind it, is the marker of no occurrence. -/
theorem not_marker_of_bare {before after : List (Nat × String)} {name : List Char}
    (hplaces : placedWords cs = before ++ place :: after) (hswitch : f.isSwitch = false)
    (hname : Flag.unmark place.2.toList = some name) (hspelled : f.isSpelled name = true)
    (hnext : ∀ next, after.head? = some next → f.accepts next.2.toList = false) (o : Occurrence) :
    ¬ (WordRole.marker f o).Holds cs place := by
  intro hmarker
  have hk : (placedWords cs)[before.length]? = some place := by
    rw [hplaces, List.getElem?_append_right (Nat.le_refl _), Nat.sub_self]
    rfl
  obtain ⟨hword, role, hroles, hrole⟩ := f.exists_role hk
  obtain ⟨hne, hoperand⟩ := role_of_marker hrole hmarker
  -- The word is by itself what the next word makes of it, or it is the value of the one before.
  rcases Flag.role_cases hroles hword with hself | ⟨h, -⟩
  · have hafter : (wordsOf cs)[before.length + 1]? = after.head?.map Prod.snd := by
      rw [show wordsOf cs = (placedWords cs).map Prod.snd from (map_snd_placedFrom 0 cs).symm,
        List.getElem?_map, hplaces, List.getElem?_append_right (Nat.le_add_right _ 1),
        Nat.add_sub_cancel_left, List.getElem?_cons_succ, List.head?_eq_getElem?]
    refine hne (hself.trans (Flag.roleOf_bare hswitch hname hspelled fun value hvalue => ?_))
    rw [hafter] at hvalue
    obtain ⟨next, hhead, rfl⟩ := Option.map_eq_some_iff.1 hvalue
    exact hnext next hhead
  · exact hoperand h

end roles

/-! ## Captured words

The line takes its positional words from behind the head, while places are counted in the whole
text. The verb closes whatever the first word may have begun, so the two counts agree. -/

/-- Slots are filled with all of the words, in order. -/
theorem map_word_of_fill {s : Settings} {slots : List Slot} {words : List String}
    {captures : List Capture} (h : fill s slots words = some captures) :
    captures.map Capture.word = words := by
  induction slots generalizing words captures with
  | nil =>
    cases words with
    | nil =>
      obtain rfl := Option.some.inj h
      rfl
    | cons word words => exact absurd h (by simp [fill])
  | cons slot slots ih =>
    cases words with
    | nil =>
      rw [fill] at h
      exact ih (Option.ite_none_right_eq_some.1 h).2
    | cons word words =>
      rw [fill] at h
      split at h
      · obtain ⟨rest, hrest, rfl⟩ := Option.map_eq_some_iff.1 h
        rw [List.map_cons, ih hrest]
      · exact ih (Option.ite_none_right_eq_some.1 h).2

/-- The words that the line captures are those behind the head with the role. -/
theorem freeWords_behindHead {cs rest : List Char} {head : Head}
    (h : Head.read? cs = some (head, rest)) :
    ((behindHead cs).filter fun place => isFree cs place.1 && !Flag.isMarked place.2).map Prod.snd =
      freeWords rest := by
  have hline := Head.read?_eq cs
  rw [h] at hline
  obtain ⟨first, second, hwords, hverb⟩ := CommandLine.exists_of_ofWords? hline.symm
  simp only at hwords
  -- The first word may be a flag, but the verb ends it, so the words behind are told by themselves.
  have htaken : (CommandLine.taken Flag.all (wordsOf cs)).drop 2 =
      CommandLine.taken Flag.all (wordsOf rest) := by
    have hclosed : ∀ f ∈ Flag.all, f.Closed [first, second] := fun f _ =>
      .pair (CommandLine.unmark_of_isVerbWord hverb)
    have happend := CommandLine.taken_append fun f hf => hclosed f hf (wordsOf rest)
    rw [hwords, show first :: second :: wordsOf rest = [first, second] ++ wordsOf rest from rfl,
      happend]
    exact List.drop_left' (CommandLine.length_taken Flag.all [first, second])
  have hzip : (wordsOf rest).zip (CommandLine.taken Flag.all (wordsOf rest)) =
      (behindHead cs).map fun place => (place.2, !isFree cs place.1) := by
    have hdrop : wordsOf rest = (wordsOf cs).drop 2 := by
      rw [hwords]
      rfl
    rw [← htaken, hdrop, CommandLine.taken_eq,
      show wordsOf cs = (placedWords cs).map Prod.snd from (map_snd_placedFrom 0 cs).symm,
      ← List.map_drop, ← List.map_drop, List.zip_map']
    simp only [isFree, Bool.not_not]
    rfl
  rw [freeWords_eq, CommandLine.positionals, hzip, List.filterMap_map, ← List.filterMap_eq_map,
    List.filterMap_filter]
  refine List.filterMap_congr fun place _ => ?_
  cases hfree : isFree cs place.1 <;> cases hmarked : Flag.isMarked place.2 <;>
    simp [hfree, hmarked]

/-! ## Accepted lines

A line that is read has all words behind its head captured or given to flags. What its words are is
put together here from the places of the text and the occurrences found in it. -/

/-- What the words behind the head are: the captured ones in their order are the captured words of
the line, each word has a role, and only one unless it is the value of `/fields` and the marker of
another flag; only such a value carries a marker, and a flag that lacks its value is absent. -/
structure WordsTold (cs : List Char) (captures : List Capture) : Prop where
  captured : captures.map Capture.word =
    ((behindHead cs).filter fun place =>
      isFree cs place.1 && !Flag.isMarked place.2).map Prod.snd
  exists_role : ∀ place ∈ behindHead cs, ∃ role : WordRole, role.Holds cs place
  unique_iff : ∀ place ∈ behindHead cs,
    (∃! role : WordRole, role.Holds cs place) ↔ ¬ IsShared cs place
  marked_value : ∀ place ∈ behindHead cs, ∀ (f : Flag) (o : Occurrence),
    (WordRole.value f o).Holds cs place → Flag.isMarked place.2 = true →
      f = .fields ∧ ['-', '-'] <+: place.2.toList
  absent : ∀ (before after : List (Nat × String)) (place : Nat × String),
    behindHead cs = before ++ place :: after → ∀ (f : Flag) (name : List Char),
      f.isSwitch = false → Flag.unmark place.2.toList = some name → f.isSpelled name = true →
        (∀ next, after.head? = some next → Flag.isMarked next.2 = true ∧
          (f = .fields → ¬ ['-', '-'] <+: next.2.toList)) →
        ∀ o : Occurrence, ¬ (WordRole.marker f o).Holds cs place

/-- A flag that lacks its value has no occurrence at its marker. -/
theorem not_marker_of_lacking {cs : List Char} {before after : List (Nat × String)}
    {place : Nat × String} {f : Flag} {name : List Char}
    (hplaces : behindHead cs = before ++ place :: after) (hswitch : f.isSwitch = false)
    (hname : Flag.unmark place.2.toList = some name) (hspelled : f.isSpelled name = true)
    (hnext : ∀ next, after.head? = some next → Flag.isMarked next.2 = true ∧
      (f = .fields → ¬ ['-', '-'] <+: next.2.toList)) (o : Occurrence) :
    ¬ (WordRole.marker f o).Holds cs place := by
  have hall : placedWords cs = ((placedWords cs).take 2 ++ before) ++ place :: after := by
    rw [List.append_assoc, ← hplaces]
    exact (List.take_append_drop 2 _).symm
  refine not_marker_of_bare hall hswitch hname hspelled (fun next hhead => ?_) o
  obtain ⟨hmarked, hfields⟩ := hnext next hhead
  refine Bool.eq_false_iff.2 fun haccepts => ?_
  obtain ⟨hf, hdash⟩ := Flag.fields_of_accepts haccepts hmarked
  exact hfields hf hdash

/-- **What the words behind the head of an accepted line are.** -/
theorem Command.word_roles {s : Settings} {text : String} {c : Command}
    (h : parse s text = .ok c) :
    ∃ head rest g captures, Head.read? text.toList = some (head, rest) ∧
      IsResolved s head (freeWords rest) (fun f => f.arguments text.toList) g captures c ∧
      WordsTold text.toList captures := by
  unfold parse at h
  split at h
  · next head rest hhead =>
    obtain ⟨g, captures, hresolved⟩ := exists_isResolved h
    refine ⟨head, rest, g, captures, hhead, hresolved, ?_⟩
    have hmem : ∀ {place}, place ∈ behindHead text.toList → place ∈ placedWords text.toList :=
      fun hplace => List.mem_of_mem_drop hplace
    exact {
      captured := by
        rw [map_word_of_fill (Grammar.choose?_eq_some hresolved.grammar).2,
          freeWords_behindHead hhead]
      exists_role := fun place hplace => exists_holds _ place (hmem hplace)
      unique_iff := fun place hplace => existsUnique_holds (hmem hplace)
      marked_value := fun place hplace f o => fields_of_value (hmem hplace)
      absent := fun before after place hplaces f name hswitch hname hspelled hnext =>
        not_marker_of_lacking hplaces hswitch hname hspelled hnext }
  · exact absurd h (throw_ne_ok _ _)

/-! A switch with hyphens behind `/fields`, and a captured word. -/

namespace Shared

def text : String := "/mgid list /fields --ie 7"

def list : Occurrence := ⟨10, " /fields --ie ".toList, "--ie"⟩

def switch : Occurrence := ⟨18, " --ie ".toList, ""⟩

end Shared

/-- The line is accepted and captures its last word, and the word before has two roles. -/
theorem Command.word_roles_shared :
    (∃ head rest g captures c,
      IsResolved {} head rest (fun f => f.arguments Shared.text.toList) g captures c ∧
        captures.map Capture.word = ["7"]) ∧
      ¬ ∃! role : WordRole, role.Holds Shared.text.toList (19, "--ie") := by
  have hok : (parse {} Shared.text).isOk = true := by decide +kernel
  obtain ⟨c, hparse⟩ := isOk_iff.1 hok
  obtain ⟨head, rest, g, captures, -, hresolved, htold⟩ := word_roles hparse
  refine ⟨⟨head, _, g, captures, c, hresolved, htold.captured.trans (by decide +kernel)⟩, ?_⟩
  -- Both occurrences cover the word: one begins with it, the other ends on it.
  have hvalue : (WordRole.value .fields Shared.list).Holds Shared.text.toList (19, "--ie") :=
    show _ ∧ _ ∧ _ by decide +kernel
  have hmarker : (WordRole.marker .ignoreErrors Shared.switch).Holds Shared.text.toList
      (19, "--ie") := show _ ∧ _ ∧ _ by decide +kernel
  rw [htold.unique_iff _ (by decide +kernel)]
  exact not_not.2 ⟨_, _, _, hvalue, hmarker⟩

end AdOps
