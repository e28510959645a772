import AdOps.Proofs.Flag.Walk
import Mathlib.Data.List.TakeWhile

/-!
# Flags as they are written

A `Segment` is one flag in one of the forms it can be typed in: a switch, a name with its value
behind a colon, or a name with its value as the next word. A segment is read the same wherever it
stands: it gives its own flag its value, is nothing to the other flags, and leaves no positional
word behind.

* **`closed_words`** — a segment is closed for every flag.
* **`given_words`** — it gives its value to its flag and nothing to the others.
* **`positionals_words`** — none of its words is positional.
-/

namespace AdOps

namespace Flag

/-! ## Spellings

The table of spellings is looked into twice: no word is in it for two flags, and no word in it has a
colon. The rest follows: what spells a flag names it, and the name ends at the first colon. -/

/-- No two flags share a spelling. -/
theorem eq_of_mem_spellings {f g : Flag} {word : String} (hf : word ∈ f.spellings)
    (hg : word ∈ g.spellings) : f = g := by
  have hdisjoint : ∀ f g : Flag, f ≠ g → ∀ word ∈ f.spellings, word ∉ g.spellings := by
    intro f g
    cases f <;> cases g <;> decide
  by_contra hne
  exact hdisjoint f g hne word hf hg

theorem isSpelled_iff {f : Flag} {cs : List Char} :
    f.isSpelled cs = true ↔ ∃ word ∈ f.spellings, cs.map Text.fold = word.toList := by
  simp [isSpelled, Text.spells]

/-- **What spells two flags spells one.** -/
theorem eq_of_isSpelled {f g : Flag} {cs : List Char} (hf : f.isSpelled cs = true)
    (hg : g.isSpelled cs = true) : f = g := by
  obtain ⟨word, hword, heq⟩ := isSpelled_iff.1 hf
  obtain ⟨word', hword', heq'⟩ := isSpelled_iff.1 hg
  have hsame : word = word' := String.toList_inj.1 (heq.symm.trans heq')
  subst hsame
  exact eq_of_mem_spellings hword hword'

/-- No spelling has a colon. -/
theorem colon_not_mem {f : Flag} {cs : List Char} (h : f.isSpelled cs = true) : ':' ∉ cs := by
  intro hmem
  obtain ⟨word, hword, heq⟩ := isSpelled_iff.1 h
  have hfold : ':' ∈ cs.map Text.fold := List.mem_map.2 ⟨':', hmem, by decide⟩
  rw [heq] at hfold
  have hfree : ∀ f : Flag, ∀ word ∈ f.spellings, ':' ∉ word.toList := by
    intro f
    cases f <;> decide
  exact hfree f word hword hfold

/-- Every character of a spelling is other than a colon. -/
theorem all_ne_colon {f : Flag} {cs : List Char} (h : f.isSpelled cs = true) :
    ∀ c ∈ cs, decide (c ≠ ':') = true := by
  intro c hc
  have hne : c ≠ ':' := fun heq => colon_not_mem h (heq ▸ hc)
  exact decide_eq_true hne

/-- In front of the first colon stands the name. -/
theorem takeWhile_colon {f : Flag} {cs : List Char} (h : f.isSpelled cs = true)
    (rest : List Char) : (cs ++ ':' :: rest).takeWhile (· ≠ ':') = cs := by
  rw [List.takeWhile_append_of_pos (all_ne_colon h)]
  simp

/-- Behind the name the value begins with the first colon. -/
theorem dropWhile_colon {f : Flag} {cs : List Char} (h : f.isSpelled cs = true)
    (rest : List Char) : (cs ++ ':' :: rest).dropWhile (· ≠ ':') = ':' :: rest := by
  rw [List.dropWhile_append_of_pos (all_ne_colon h)]
  simp

/-! ## Values

A value of a flag does not begin with a slash, so a value word looks like a marker only if it begins
with two hyphens. -/

/-- A switch takes no value. -/
theorem isSwitch_of_accepts {f : Flag} {cs : List Char} (h : f.accepts cs = true) :
    f.isSwitch = false := by
  cases f with
  | ignoreErrors => exact absurd h (by simp [accepts])
  | listFields => exact absurd h (by simp [accepts])
  | _ => rfl

/-- A date begins with a digit. -/
theorem isDateShape_cons {c : Char} (hc : Text.isDigit c = false) (cs : List Char) :
    isDateShape (c :: cs) = false := by
  unfold isDateShape
  split
  · next heq =>
    obtain ⟨rfl, -⟩ := List.cons.inj heq
    simp [hc]
  · rfl

/-- No value of a flag begins with a slash. -/
theorem accepts_slash (f : Flag) (cs : List Char) : f.accepts ('/' :: cs) = false := by
  have hdigit : Text.isDigit '/' = false := by decide
  have hletter : Text.isLetter '/' = false := by decide
  cases f with
  | fields => simp [accepts, isFieldsChar, hletter]
  | limit => simp [accepts, Text.isDigits, hdigit]
  | dateRange => simp [accepts, isDateRangeShape, isDateShape_cons hdigit]
  | timeRange =>
    cases cs with
    | nil => simp [accepts, Interval.isWritten, Text.isDigits, hletter]
    | cons c cs => simp [accepts, Interval.isWritten, Text.isDigits, hdigit, hletter]
  | ignoreErrors => rfl
  | listFields => rfl

/-- A value that does not begin with two hyphens carries no marker. -/
theorem unmark_of_accepts {f : Flag} {cs : List Char} (h : f.accepts cs = true)
    (hdash : ¬ ['-', '-'] <+: cs) : unmark cs = none := by
  unfold unmark
  split
  · next rest => exact absurd h (by rw [accepts_slash]; exact Bool.false_ne_true)
  · next rest => exact absurd (List.prefix_append ['-', '-'] rest) hdash
  · rfl

end Flag

/-! ## Segments

A segment carries the proofs that it is well formed: a spelling of its flag, and a value that the
flag takes. The one condition on what is read is that a value word does not look like a marker. -/

/-- What stands in front of the name of a flag. -/
inductive Marker where
  | slash
  | dashes

/-- The text with the marker in front of it. -/
def Marker.mark (m : Marker) (text : String) : String :=
  match m with
  | .slash => "/" ++ text
  | .dashes => "--" ++ text

theorem Marker.unmark_mark (m : Marker) (text : String) :
    Flag.unmark (m.mark text).toList = some text.toList := by
  cases m <;> simp [mark, String.toList_append, Flag.unmark]

/-- A flag as it is written on a line, well formed: its name is a spelling of the flag, and its
value is one that the flag takes. -/
inductive Segment where
  | switch (f : Flag) (m : Marker) (name : String) (hf : f.isSwitch = true)
    (hname : f.isSpelled name.toList = true)
  /-- The value stands behind a colon in the same word. -/
  | colon (f : Flag) (m : Marker) (name value : String) (hname : f.isSpelled name.toList = true)
    (hvalue : f.accepts value.toList = true)
  /-- The value is the next word. It may not look like a marker itself. -/
  | spaced (f : Flag) (m : Marker) (name value : String) (hname : f.isSpelled name.toList = true)
    (hvalue : f.accepts value.toList = true) (hdash : ¬ ['-', '-'] <+: value.toList)

namespace Segment

/-- The flag that the segment is one of. -/
def flag : Segment → Flag
  | switch f .. | colon f .. | spaced f .. => f

/-- The value that is written, empty for a switch. -/
def value : Segment → String
  | switch .. => ""
  | colon _ _ _ value .. | spaced _ _ _ value .. => value

/-- The words that are typed for the segment. -/
def words : Segment → List String
  | switch _ m name .. => [m.mark name]
  | colon _ m name value .. => [m.mark (name ++ ":" ++ value)]
  | spaced _ m name value .. => [m.mark name, value]

/-- What the words of the segment are to its own flag. -/
def ownRoles : Segment → List Role
  | switch .. => [.whole ""]
  | colon _ _ _ value .. => [.whole value]
  | spaced _ _ _ value .. => [.marker value, .operand]

/-- What its words are to a flag. -/
def rolesTo (g : Segment) (f : Flag) : List Role :=
  if f = g.flag then g.ownRoles else g.words.map fun _ => .outside

/-! ### The role of the first word

Only the first word of a segment is marked. It is told by its form, one lemma for each: a switch, a
flag with its value behind a colon, and a flag whose value is the next word. -/

variable {f g : Flag} {m : Marker} {name value : String}

/-- A switch is the whole of its own flag and nothing to the others. -/
theorem roleOf_switch (hg : g.isSwitch = true) (hname : g.isSpelled name.toList = true)
    (next : Option String) :
    f.roleOf (m.mark name) next = if f = g then .whole "" else .outside := by
  unfold Flag.roleOf
  rw [Marker.unmark_mark]
  by_cases hfg : f = g
  · subst hfg
    simp [hg, hname]
  · have hother : f.isSpelled name.toList = false :=
      Bool.eq_false_iff.2 fun h => hfg (Flag.eq_of_isSpelled h hname)
    -- Without a colon the name of a flag with a value would be the whole word.
    have htake : name.toList.takeWhile (· ≠ ':') = name.toList :=
      List.takeWhile_eq_self_iff.2 (Flag.all_ne_colon hname)
    simp only [htake, hother, hfg]
    simp

/-- A name with a value behind a colon is the whole of its own flag and nothing to the others. -/
theorem roleOf_colon (hname : g.isSpelled name.toList = true)
    (hvalue : g.accepts value.toList = true) (next : Option String) :
    f.roleOf (m.mark (name ++ ":" ++ value)) next = if f = g then .whole value else .outside := by
  have htext : (name ++ ":" ++ value).toList = name.toList ++ ':' :: value.toList := by
    simp [String.toList_append]
  -- A switch is spelled by the whole word, and no spelling holds a colon.
  have hwhole : f.isSpelled (name.toList ++ ':' :: value.toList) = false :=
    Bool.eq_false_iff.2 fun h => Flag.colon_not_mem h (by simp)
  unfold Flag.roleOf
  rw [Marker.unmark_mark, htext]
  simp only [hwhole, Flag.takeWhile_colon hname, Flag.dropWhile_colon hname]
  by_cases hfg : f = g
  · subst hfg
    simp [Flag.isSwitch_of_accepts hvalue, hname, hvalue]
  · have hother : f.isSpelled name.toList = false :=
      Bool.eq_false_iff.2 fun h => hfg (Flag.eq_of_isSpelled h hname)
    simp [hother, hfg]

/-- A name in front of its value is a marker of its own flag and nothing to the others. -/
theorem roleOf_spaced (hname : g.isSpelled name.toList = true)
    (hvalue : g.accepts value.toList = true) :
    f.roleOf (m.mark name) (some value) = if f = g then .marker value else .outside := by
  have hfree := Flag.all_ne_colon hname
  have htake : name.toList.takeWhile (· ≠ ':') = name.toList :=
    List.takeWhile_eq_self_iff.2 hfree
  have hdrop : name.toList.dropWhile (· ≠ ':') = [] := List.dropWhile_eq_nil_iff.2 hfree
  unfold Flag.roleOf
  rw [Marker.unmark_mark]
  simp only [htake, hdrop]
  by_cases hfg : f = g
  · subst hfg
    simp [Flag.isSwitch_of_accepts hvalue, hname, hvalue]
  · have hother : f.isSpelled name.toList = false :=
      Bool.eq_false_iff.2 fun h => hfg (Flag.eq_of_isSpelled h hname)
    simp [hother, hfg]

/-! ### The walk over a segment

The walk looks one word ahead at most, and the second word of a pair is unmarked, so what stands
behind a segment does not change the roles of its words. -/

/-- Whatever stands behind a segment, its words have the roles of the segment. -/
theorem roles_words_append (g : Segment) (f : Flag) (rest : List String) :
    f.roles (g.words ++ rest) = g.rolesTo f ++ f.roles rest := by
  -- By the form of the segment: one word with a role of its own, or a pair whose second word is
  -- unmarked.
  cases g with
  | switch g m name hg hname =>
    show f.roles ([m.mark name] ++ rest) = _
    rw [Flag.roles_single (roleOf_switch hg hname) (by split <;> simp), rolesTo]
    simp only [flag, ownRoles, words, List.map_cons, List.map_nil]
    split <;> rfl
  | colon g m name value hname hvalue =>
    show f.roles ([m.mark (name ++ ":" ++ value)] ++ rest) = _
    rw [Flag.roles_single (roleOf_colon hname hvalue) (by split <;> simp), rolesTo]
    simp only [flag, ownRoles, words, List.map_cons, List.map_nil]
    split <;> rfl
  | spaced g m name value hname hvalue hdash =>
    show f.roles ([m.mark name, value] ++ rest) = _
    rw [Flag.roles_pair (Flag.unmark_of_accepts hvalue hdash), roleOf_spaced hname hvalue, rolesTo]
    simp only [flag, ownRoles, words, List.map_cons, List.map_nil]
    by_cases hfg : f = g
    · rw [if_pos hfg, if_pos hfg]
    · rw [if_neg hfg, if_neg hfg]

/-- **A segment is closed for every flag.** -/
theorem closed_words (g : Segment) (f : Flag) : f.Closed g.words :=
  (Flag.closed_of_roles (g.roles_words_append f)).1

theorem roles_words (g : Segment) (f : Flag) : f.roles g.words = g.rolesTo f :=
  (Flag.closed_of_roles (g.roles_words_append f)).2

/-- **A segment gives its value to its own flag and nothing to the others.** -/
theorem given_words (g : Segment) (f : Flag) :
    f.given g.words = if f = g.flag then (f.argument? g.value).toList else [] := by
  have hgiven : f.given g.words = ((g.rolesTo f).filterMap Role.given?).filterMap f.argument? := by
    unfold Flag.given
    rw [roles_words, List.filterMap_filterMap]
  rw [hgiven, rolesTo]
  split
  -- The roles of a segment hold its value once.
  · have hown : g.ownRoles.filterMap Role.given? = [g.value] := by
      cases g <;> rfl
    rw [hown]
    cases harg : f.argument? g.value <;> simp [harg]
  · simp [Role.given?]

/-- **No word of a segment is positional**: the first is marked, and a second is a value. -/
theorem positionals_words (g : Segment) : CommandLine.positionals g.words = [] := by
  have hmark : ∀ (m : Marker) (text : String), Flag.isMarked (m.mark text) = true := by
    intro m text
    rw [Flag.isMarked, Marker.unmark_mark]
    rfl
  apply CommandLine.positionals_eq_nil
  intro i word hword
  cases g with
  | switch f m name hf hname =>
    obtain rfl : m.mark name = word := by
      cases i with
      | zero => exact Option.some.inj hword
      | succ i => exact absurd hword (by simp [words])
    exact .inl (hmark m name)
  | colon f m name value hname hvalue =>
    obtain rfl : m.mark (name ++ ":" ++ value) = word := by
      cases i with
      | zero => exact Option.some.inj hword
      | succ i => exact absurd hword (by simp [words])
    exact .inl (hmark m _)
  | spaced f m name value hname hvalue hdash =>
    cases i with
    | zero =>
      obtain rfl : m.mark name = word := Option.some.inj hword
      exact .inl (hmark m name)
    | succ i =>
      -- The value is an operand of its own flag.
      refine .inr ⟨f, ?_⟩
      rw [roles_words, rolesTo, if_pos (show f = flag (spaced f m name value _ _ _) from rfl)]
      cases i with
      | zero => simp [ownRoles]
      | succ i => exact absurd hword (by simp [words])

end Segment

end AdOps
