import AdOps.Proofs.CommandLine.Appended
import AdOps.Proofs.Flag.Exclusive

/-!
# A positional word more on a line

A word is put somewhere into a line, and there it is positional: no flag takes it for a value, and it
carries no marker. If it is the last positional word, then everything behind it belongs to a flag or
is passed over, so the word behind it begins with a marker. Hence the walk of every flag can be cut
where the word stands, with the word and without it, and the two lines give every flag the same.

* **`splits_of_untaken`** — the walk is cut in front of a word that the flag does not take.
* **`IsLastPositional.given`**, **`IsLastPositional.positionals`** — what the line with the word
  gives, by the line without it.
* **`parse_inserted`** — the two lines are resolved from the same, up to the positional word.
-/

namespace AdOps

namespace Flag

variable {f : Flag} {word w u : String} {ws after after' : List String}

/-- A word looks at the word behind only to take it for a value, and then it takes every value. -/
theorem roleOf_some (f : Flag) (word u : String) :
    f.roleOf word (some u) = f.roleOf word none ∨
      f.accepts u.toList = true ∧
        ∀ w : String, f.accepts w.toList = true → f.roleOf word (some w) = .marker w := by
  cases hu : f.accepts u.toList with
  | false => exact .inl (roleOf_refused hu word)
  | true =>
    unfold roleOf
    cases unmark word.toList with
    | none => exact .inl rfl
    | some cs =>
      dsimp only
      cases f.isSwitch with
      | true => exact .inl rfl
      | false =>
        cases f.isSpelled (cs.takeWhile (· ≠ ':')) with
        | false => exact .inl rfl
        | true =>
          cases cs.dropWhile (· ≠ ':') with
          | cons c value => exact .inl rfl
          -- Only a marker without a colon looks at the word behind it.
          | nil => exact .inr ⟨rfl, fun w hw => by simp [hw]⟩

/-- The word does not take `w`, nor any word that only flags take which take `w`. -/
theorem roleOf_untaken (h : ∀ value, f.roleOf word (some w) ≠ .marker value)
    (hu : f.accepts u.toList = true → f.accepts w.toList = true) :
    f.roleOf word (some u) = f.roleOf word none := by
  rcases f.roleOf_some word u with hsame | ⟨haccepts, htakes⟩
  · exact hsame
  · exact absurd (htakes w (hu haccepts)) (h w)

/-- Where `w` is no value, the walk can be cut, with any word in its place that only flags take which
take `w`. -/
theorem rolesFrom_untaken {owed : Bool}
    (hrole : (f.rolesFrom owed (ws ++ w :: after))[ws.length]? ≠ some .operand)
    (hu : f.accepts u.toList = true → f.accepts w.toList = true) :
    f.rolesFrom owed (ws ++ u :: after') = f.rolesFrom owed ws ++ f.rolesFrom false (u :: after') := by
  -- Induction on the words in front: only the last of them looks at the word behind.
  induction ws generalizing owed with
  | nil =>
    cases owed with
    -- With a value owed, `w` would be that value.
    | true => exact absurd rfl hrole
    | false => rfl
  | cons word ws ih =>
    rw [List.cons_append, rolesFrom] at hrole ⊢
    rw [rolesFrom]
    cases owed with
    | true => simpa using ih hrole
    | false =>
      have hsame : ∀ (v : String) (behind : List String),
          (f.accepts v.toList = true → f.accepts w.toList = true) →
            f.roleOf word (ws ++ v :: behind).head? = f.roleOf word ws.head? := by
        intro v behind hv
        cases ws with
        | nil =>
          -- The last word in front does not take `w`, or `w` had the role of its value.
          refine roleOf_untaken (w := w) (fun value hmarker => ?_) hv
          simp [hmarker, rolesFrom] at hrole
        | cons next ws => rfl
      rw [hsame u after' hu]
      rw [hsame w after id] at hrole
      cases hword : f.roleOf word ws.head? with
      | marker value =>
        rw [hword] at hrole
        simpa using ih hrole
      | _ =>
        rw [hword] at hrole
        simpa using ih hrole

/-- **The walk is cut in front of a word that the flag does not take**, and in front of any word in
its place that the flag takes only if it takes this one. -/
theorem splits_of_untaken (hrole : (f.roles (ws ++ w :: after))[ws.length]? ≠ some .operand)
    (hu : f.accepts u.toList = true → f.accepts w.toList = true) (after' : List String) :
    f.Splits ws (u :: after') :=
  rolesFrom_untaken hrole hu

end Flag

namespace CommandLine

/-- The word at the place is positional: no flag has anything to do with it, and it carries no
marker. -/
structure IsPositionalAt (words : List String) (i : Nat) : Prop where
  unmarked : ∃ word, words[i]? = some word ∧ Flag.unmark word.toList = none
  free : ∀ f : Flag, (f.roles words)[i]? = some .outside

/-- Of the words, with `w` between those before and after, `w` is positional and no word behind it is.
-/
structure IsLastPositional (before : List String) (w : String) (after : List String) : Prop where
  here : IsPositionalAt (before ++ w :: after) before.length
  last : ∀ i, before.length < i → ¬ IsPositionalAt (before ++ w :: after) i

namespace IsLastPositional

variable {before after : List String} {w : String}

/-- The word carries no marker. -/
theorem unmark_eq (h : IsLastPositional before w after) : Flag.unmark w.toList = none := by
  obtain ⟨word, hword, hmark⟩ := h.here.unmarked
  rw [List.getElem?_append_right (Nat.le_refl _), Nat.sub_self] at hword
  obtain rfl := Option.some.inj hword
  exact hmark

/-- The walk of every flag is cut in front of the word. -/
theorem splits (h : IsLastPositional before w after) (f : Flag) : f.Splits before (w :: after) :=
  Flag.splits_of_untaken (by rw [h.here.free f]; simp) id after

/-- The roles of the words behind are those that they have by themselves. -/
theorem getElem?_roles (h : IsLastPositional before w after) (f : Flag) (j : Nat) :
    (f.roles (before ++ w :: after))[before.length + 1 + j]? = (f.roles after)[j]? := by
  -- And behind it too, as it is no marker that could take the next word.
  have hplain : f.Splits [w] after := Flag.Closed.plain h.unmark_eq after
  have hroles : f.roles (before ++ w :: after) = f.roles before ++ (.outside :: f.roles after) := by
    rw [h.splits f, show w :: after = [w] ++ after from rfl, hplain, Flag.roles_plain h.unmark_eq]
    rfl
  have hlen : (f.roles before).length = before.length := Flag.length_roles f before
  rw [hroles, List.getElem?_append_right (by omega), hlen,
    show before.length + 1 + j - before.length = j + 1 by omega, List.getElem?_cons_succ]

/-- Each word behind is marked or belongs to a flag. -/
theorem marked_or_taken (h : IsLastPositional before w after) (j : Nat) (word : String)
    (hword : after[j]? = some word) :
    Flag.isMarked word = true ∨ ∃ f : Flag, (f.roles after)[j]? ≠ some .outside := by
  by_contra hnot
  obtain ⟨hmark, hfree⟩ := not_or.1 hnot
  -- Or else the word would be positional, and behind the last one.
  refine h.last (before.length + 1 + j) (by omega) ⟨⟨word, ?_, ?_⟩, fun f => ?_⟩
  · rw [List.getElem?_append_right (by omega),
      show before.length + 1 + j - before.length = j + 1 by omega, List.getElem?_cons_succ, hword]
  · simpa [Flag.isMarked] using hmark
  · rw [h.getElem?_roles f j]
    by_contra hrole
    exact hfree ⟨f, hrole⟩

/-- The word behind begins with a marker. -/
theorem isMarked_head (h : IsLastPositional before w after) {u : String} {rest : List String}
    (hafter : after = u :: rest) : Flag.isMarked u = true := by
  rcases h.marked_or_taken 0 u (by rw [hafter]; rfl) with hmark | ⟨f, hrole⟩
  · exact hmark
  · by_contra hmark
    have hnone : Flag.unmark u.toList = none := by simpa [Flag.isMarked] using hmark
    -- A word without a marker at the front of what is behind belongs to no flag.
    refine hrole ?_
    rw [hafter, show u :: rest = [u] ++ rest from rfl, Flag.Closed.plain hnone rest,
      Flag.roles_plain hnone]
    rfl

/-- **Without the word, the walk is cut where it stood**, if `/fields` takes the word. Only `/fields`
could take the word behind, since that is marked. -/
theorem splits_without (h : IsLastPositional before w after)
    (hfields : Flag.fields.accepts w.toList = true) (f : Flag) : f.Splits before after := by
  cases hafter : after with
  | nil =>
    show f.roles (before ++ []) = f.roles before ++ []
    rw [List.append_nil, List.append_nil]
  | cons u rest =>
    have hrole : (f.roles (before ++ w :: after))[before.length]? ≠ some .operand := by
      rw [h.here.free f]
      simp
    refine Flag.splits_of_untaken hrole (fun haccepts => ?_) rest
    -- The word behind is marked, and only `/fields` accepts such a word; it accepts the inserted
    -- one as well.
    obtain ⟨rfl, -⟩ := Flag.fields_of_accepts haccepts (h.isMarked_head hafter)
    exact hfields

/-- **The line with the word gives every flag what the line without it gives.** -/
theorem given (h : IsLastPositional before w after)
    (hfields : Flag.fields.accepts w.toList = true) (f : Flag) :
    f.given (before ++ w :: after) = f.given (before ++ after) := by
  have hplain : f.Splits [w] after := Flag.Closed.plain h.unmark_eq after
  have hnothing : f.given [w] = [] := by
    unfold Flag.given
    rw [Flag.roles_plain h.unmark_eq]
    rfl
  -- Both lines are cut where the word stands, and the word by itself gives nothing.
  rw [Flag.given_append (h.splits f), Flag.given_append (h.splits_without hfields f),
    show w :: after = [w] ++ after from rfl, Flag.given_append hplain, hnothing, List.nil_append]

/-- **The positional words of the line with the word** are those of the line without it, and the word
behind them. -/
theorem positionals (h : IsLastPositional before w after)
    (hfields : Flag.fields.accepts w.toList = true) :
    positionals (before ++ w :: after) = positionals (before ++ after) ++ [w] := by
  have hnothing : CommandLine.positionals after = [] := positionals_eq_nil h.marked_or_taken
  rw [positionals_append h.splits, positionals_append (h.splits_without hfields),
    show w :: after = [w] ++ after from rfl,
    positionals_append fun f => Flag.Closed.plain h.unmark_eq after, positionals_plain h.unmark_eq,
    hnothing, List.append_nil, List.append_nil]

end IsLastPositional

/-- The head stays as it is with other words behind. -/
theorem ofWords?_behind {first second : String} {rest : List String} {line : CommandLine}
    (h : ofWords? (first :: second :: rest) = some line) (rest' : List String) :
    line.rest = rest ∧ ofWords? (first :: second :: rest') = some { line with rest := rest' } := by
  unfold ofWords? at h ⊢
  obtain ⟨platform, hplatform, h⟩ := Option.bind_eq_some_iff.1 h
  obtain ⟨hverb, hline⟩ := Option.ite_none_right_eq_some.1 h
  obtain rfl := Option.some.inj hline
  exact ⟨rfl, by simp [hplatform, hverb]⟩

end CommandLine

/-- **A positional word more at the end** leaves the head and the flags of a line as they are. -/
theorem Command.parse_inserted (s : Settings) {text longer platform verb w : String}
    {before after : List String} {line : CommandLine}
    (htext : Text.words text = platform :: verb :: (before ++ after))
    (hlonger : Text.words longer = platform :: verb :: (before ++ w :: after))
    (hline : CommandLine.ofWords? (Text.words text) = some line)
    (hlast : CommandLine.IsLastPositional before w after)
    (hfields : Flag.fields.accepts w.toList = true) :
    ∃ given, parse s text = resolve s (.invalidCommand (Text.trim text)) line.toHead
        (CommandLine.positionals line.rest) given ∧
      parse s longer = resolve s (.invalidCommand (Text.trim longer)) line.toHead
        (CommandLine.positionals line.rest ++ [w]) given := by
  obtain ⟨first, second, hwords, hverb⟩ := CommandLine.exists_of_ofWords? hline
  rw [htext] at hline hwords
  obtain ⟨-, hwords⟩ := List.cons.inj hwords
  obtain ⟨rfl, -⟩ := List.cons.inj hwords
  obtain ⟨hrest, hline'⟩ := CommandLine.ofWords?_behind hline (before ++ w :: after)
  -- The first word may be a flag, but the verb ends it.
  have hsplit : ∀ (f : Flag) (rest : List String),
      f.given (platform :: verb :: rest) = f.given [platform, verb] ++ f.given rest :=
    fun f rest => Flag.given_append (Flag.Closed.pair (CommandLine.unmark_of_isVerbWord hverb) rest)
  -- So the flags of the line are those behind the verb and those of the head.
  have hgiven : (fun f : Flag => f.given (platform :: verb :: (before ++ w :: after))) =
      fun f => f.given (platform :: verb :: (before ++ after)) :=
    funext fun f => by rw [hsplit, hlast.given hfields, ← hsplit]
  refine ⟨fun f => f.given (Text.words text), ?_, ?_⟩
  · rw [parse_eq_ofWords, htext]
    unfold ofWords
    rw [hline]
  · rw [parse_eq_ofWords, htext, hlonger]
    unfold ofWords
    rw [hline']
    simp only [hgiven, hlast.positionals hfields, hrest]

end AdOps
