import AdOps.Message.Format
import AdOps.Proofs.Text.Case

/-!
# What a text spells is shorter than the text

A text inside a JSON text stands between quotes, so it is shorter than the whole. Both passes of the
reader are followed: the first keeps the size of what it has read below the number of characters it
has taken (`Scan.Within`), the second makes no text that it was not given (`Assembly.Below`). The
normal form has the texts of the value.

* **`size_lt_of_tokens?`** — the texts among the tokens are shorter than what they were cut from.
* **`textSize_le_of_assemble`** — a value has the texts of its tokens.
* **`textSize_lt_of_parse`** — what a text spells has only shorter texts.
* **`parse_of_isBlankText`** — a blank text spells nothing.
-/

namespace AdOps.Json

open Message

/-! ## Sizes

The size of a value is the length of its longest text; numbers and the texts of an object's members
do not count, since writing never comes to them. The size of a mode is what has been taken of a
token that is not complete yet. -/

/-- The size of items is a bound on that of each. -/
theorem textSizes_le_iff {items : List Json} {m : Nat} :
    textSizes items ≤ m ↔ ∀ v ∈ items, textSize v ≤ m := by
  induction items with
  | nil => simp [textSizes]
  | cons v items ih => rw [textSizes, Nat.max_le, ih, List.forall_mem_cons]

mutual

theorem textSize_normalize : ∀ v : Json, textSize v.normalize = textSize v
  | .null | .bool _ | .number _ | .string _ | .object _ => rfl
  | .array items => textSizes_normalizeItems items

theorem textSizes_normalizeItems : ∀ items : List Json,
    textSizes (normalizeItems items) = textSizes items
  | [] => rfl
  | v :: items => by
    rw [normalizeItems, textSizes, textSizes, textSize_normalize v, textSizes_normalizeItems items]

end

/-- The length of the text that a token holds. -/
def Token.size : Token → Nat
  | .string s => s.length
  | .scalar v => textSize v
  | _ => 0

/-- A number of characters that were taken at least since the token of the mode began. -/
def Mode.taken : Mode → Nat
  | .between => 0
  | .word _ => 1
  | .string seen | .escape seen | .unicode seen _ _ _ | .surrogate seen _
  | .surrogateEscape seen _ => seen.length + 1

/-- A scalar has no text. -/
theorem textSize_of_scalar? {cs : List Char} {v : Json} (h : scalar? cs = some v) :
    textSize v = 0 := by
  unfold scalar? at h
  split at h
  · obtain rfl := Option.some.inj h; rfl
  · obtain rfl := Option.some.inj h; rfl
  · obtain rfl := Option.some.inj h; rfl
  · obtain ⟨n, -, rfl⟩ := Option.map_eq_some_iff.1 h; rfl

/-! ## Tokens

The first pass takes one character at a time. An escape takes more characters than it spells, so
what a token holds never gets ahead of what was taken; and a token that is completed was begun with
a quote, which makes it strictly shorter. -/

/-- A character that begins a token makes it one character at most, and completes none that holds a
text. -/
theorem taken_start {c : Char} {ts : List Token} {next : Mode} (h : Mode.start c = some (ts, next)) :
    next.taken ≤ 1 ∧ ∀ t ∈ ts, t.size = 0 := by
  unfold Mode.start at h
  split at h
  · obtain ⟨rfl, rfl⟩ := Prod.mk.inj (Option.some.inj h)
    exact ⟨Nat.zero_le 1, fun _ ht => absurd ht List.not_mem_nil⟩
  · split at h
    case h_8 =>
      split at h
      · obtain ⟨rfl, rfl⟩ := Prod.mk.inj (Option.some.inj h)
        exact ⟨Nat.le_refl 1, fun _ ht => absurd ht List.not_mem_nil⟩
      · exact absurd h (by simp)
    all_goals
      obtain ⟨rfl, rfl⟩ := Prod.mk.inj (Option.some.inj h)
      simp [Mode.taken, Token.size]

/-- A code unit adds one character, or none as long as its other half is missing. -/
theorem taken_codeUnit {seen : List Char} {high : Option Nat} {n : Nat} {next : Mode}
    (h : Mode.codeUnit seen high n = some next) : next.taken ≤ seen.length + 2 := by
  unfold Mode.codeUnit at h
  split at h
  · split at h
    · obtain rfl := Option.some.inj h
      exact Nat.le_succ _
    · split at h
      · exact absurd h (by simp)
      · obtain rfl := Option.some.inj h
        exact Nat.le_refl _
  · split at h
    · obtain rfl := Option.some.inj h
      exact Nat.le_refl _
    · exact absurd h (by simp)

/-- **One character** makes the token of the mode one character longer at most, and a text that it
completes was there before. -/
theorem taken_step {mode next : Mode} {c : Char} {ts : List Token}
    (h : mode.step c = some (ts, next)) :
    next.taken ≤ mode.taken + 1 ∧ ∀ t ∈ ts, t.size ≤ mode.taken := by
  have hnone : ∀ t ∈ ([] : List Token), t.size ≤ mode.taken := fun _ ht =>
    absurd ht List.not_mem_nil
  -- By the mode: only a closing quote or the end of a word completes a token.
  cases mode with
  | between =>
    obtain ⟨hnext, hts⟩ := taken_start h
    exact ⟨hnext, fun t ht => Nat.le_of_eq (hts t ht)⟩
  | word seen =>
    unfold Mode.step at h
    dsimp only at h
    split at h
    · obtain ⟨rfl, rfl⟩ := Prod.mk.inj (Option.some.inj h)
      exact ⟨Nat.le_succ 1, hnone⟩
    · obtain ⟨v, hv, h⟩ := Option.bind_eq_some_iff.1 h
      obtain ⟨⟨ts', next'⟩, hstart, h⟩ := Option.bind_eq_some_iff.1 h
      obtain ⟨rfl, rfl⟩ := Prod.mk.inj (Option.some.inj h)
      obtain ⟨hnext, hts⟩ := taken_start hstart
      -- The character ends the word and begins what follows it.
      refine ⟨Nat.le_succ_of_le hnext, List.forall_mem_cons.2 ⟨?_, fun t ht => ?_⟩⟩
      · exact Nat.le_succ_of_le (Nat.le_of_eq (textSize_of_scalar? hv))
      · exact Nat.le_succ_of_le (Nat.le_of_eq (hts t ht))
  | string seen =>
    unfold Mode.step at h
    dsimp only at h
    split at h
    · obtain ⟨rfl, rfl⟩ := Prod.mk.inj (Option.some.inj h)
      refine ⟨Nat.zero_le _, fun t ht => ?_⟩
      obtain rfl := List.mem_singleton.1 ht
      show (String.ofList seen.reverse).length ≤ seen.length + 1
      rw [String.length_ofList, List.length_reverse]
      exact Nat.le_succ _
    · split at h
      · obtain ⟨rfl, rfl⟩ := Prod.mk.inj (Option.some.inj h)
        exact ⟨Nat.le_succ _, hnone⟩
      · split at h
        · exact absurd h (by simp)
        · obtain ⟨rfl, rfl⟩ := Prod.mk.inj (Option.some.inj h)
          exact ⟨Nat.le_refl _, hnone⟩
  | escape seen =>
    unfold Mode.step at h
    dsimp only at h
    split at h
    · obtain ⟨rfl, rfl⟩ := Prod.mk.inj (Option.some.inj h)
      exact ⟨Nat.le_succ _, hnone⟩
    · obtain ⟨e, -, h⟩ := Option.map_eq_some_iff.1 h
      obtain ⟨rfl, rfl⟩ := Prod.mk.inj h
      exact ⟨Nat.le_refl _, hnone⟩
  | unicode seen high value count =>
    obtain ⟨n, -, h⟩ := Option.bind_eq_some_iff.1 h
    dsimp only at h
    split at h
    · obtain ⟨mode', hunit, h⟩ := Option.bind_eq_some_iff.1 h
      obtain ⟨rfl, rfl⟩ := Prod.mk.inj (Option.some.inj h)
      exact ⟨taken_codeUnit hunit, hnone⟩
    · obtain ⟨rfl, rfl⟩ := Prod.mk.inj (Option.some.inj h)
      exact ⟨Nat.le_succ _, hnone⟩
  | surrogate seen high =>
    obtain ⟨-, h⟩ := Option.ite_none_right_eq_some.1 h
    obtain ⟨rfl, rfl⟩ := Prod.mk.inj (Option.some.inj h)
    exact ⟨Nat.le_succ _, hnone⟩
  | surrogateEscape seen high =>
    obtain ⟨-, h⟩ := Option.ite_none_right_eq_some.1 h
    obtain ⟨rfl, rfl⟩ := Prod.mk.inj (Option.some.inj h)
    exact ⟨Nat.le_succ _, hnone⟩

/-- What was read so far is smaller than the number of characters that were taken. -/
structure Scan.Within (n : Nat) (s : Scan) : Prop where
  mode : s.mode.taken ≤ n
  tokens : ∀ t ∈ s.tokens, t.size < n

/-- One step keeps what was read below the number of characters. -/
theorem Scan.Within.step {n : Nat} {s s' : Scan} {c : Char} (h : s.Within n)
    (hstep : s.step c = some s') : s'.Within (n + 1) := by
  obtain ⟨⟨ts, mode⟩, hmode, heq⟩ := Option.bind_eq_some_iff.1 hstep
  obtain rfl := Option.some.inj heq
  obtain ⟨hnext, hts⟩ := taken_step hmode
  refine ⟨Nat.le_trans hnext (Nat.succ_le_succ h.mode), fun t ht => ?_⟩
  rcases List.mem_append.1 ht with hnew | hold
  · exact Nat.lt_succ_of_le (Nat.le_trans (hts t (List.mem_reverse.1 hnew)) h.mode)
  · exact Nat.lt_succ_of_lt (h.tokens t hold)

/-- So do all of them. -/
theorem Scan.Within.foldlM {n : Nat} {s s' : Scan} {cs : List Char} (h : s.Within n)
    (hrun : cs.foldlM Scan.step s = some s') : s'.Within (n + cs.length) := by
  -- Induction on the characters ahead, with the number of those taken as the bound.
  induction cs generalizing n s with
  | nil =>
    obtain rfl := Option.some.inj hrun
    exact h
  | cons c cs ih =>
    rw [List.foldlM_cons] at hrun
    obtain ⟨s₁, hstep, hrest⟩ := Option.bind_eq_some_iff.1 hrun
    rw [List.length_cons, Nat.add_comm cs.length, ← Nat.add_assoc]
    exact ih (h.step hstep) hrest

/-- **The texts among the tokens are shorter** than what the tokens were cut from. -/
theorem size_lt_of_tokens? {cs : List Char} {ts : List Token} (h : tokens? cs = some ts) :
    ∀ t ∈ ts, t.size < cs.length := by
  obtain ⟨s, hrun, hfinish⟩ := Option.bind_eq_some_iff.1 h
  have hstart : Scan.Within 0 ⟨[], .between⟩ := ⟨Nat.le_refl 0, fun _ ht => absurd ht List.not_mem_nil⟩
  have hwithin := hstart.foldlM hrun
  rw [Nat.zero_add] at hwithin
  unfold Scan.finish at hfinish
  split at hfinish
  · obtain rfl := Option.some.inj hfinish
    exact fun t ht => hwithin.tokens t (List.mem_reverse.1 ht)
  · next seen hmode =>
    -- The last token is a scalar, and its characters were taken.
    obtain ⟨v, hv, rfl⟩ := Option.map_eq_some_iff.1 hfinish
    have htaken := hwithin.mode
    rw [hmode] at htaken
    intro t ht
    rcases List.mem_cons.1 (List.mem_reverse.1 ht) with rfl | ht
    · exact Nat.lt_of_le_of_lt (Nat.le_of_eq (textSize_of_scalar? hv)) htaken
    · exact hwithin.tokens t ht
  · exact absurd hfinish (by simp)

/-! ## Values

The second pass puts tokens together and makes no text. So whatever bounds the tokens bounds what
lies on the stack, and the value that is left in the end. -/

/-- No text of the items that are waiting is longer. -/
def Frame.Below (m : Nat) : Frame → Prop
  | .array items => ∀ v ∈ items, textSize v ≤ m
  | _ => True

/-- No text of the value at hand is longer. -/
def Expecting.Below (m : Nat) : Expecting → Prop
  | .after v => textSize v ≤ m
  | _ => True

/-- No text of what was put together so far is longer. -/
structure Assembly.Below (m : Nat) (a : Assembly) : Prop where
  stack : ∀ f ∈ a.stack, f.Below m
  expecting : a.expecting.Below m

/-- A token in the place of a value keeps the bound. -/
theorem Assembly.below_value {m : Nat} {stack : List Frame} {t : Token} {a : Assembly}
    (hstack : ∀ f ∈ stack, f.Below m) (ht : t.size ≤ m) (h : value stack t = some a) :
    a.Below m := by
  unfold value at h
  split at h
  · obtain rfl := Option.some.inj h
    exact ⟨hstack, ht⟩
  · obtain rfl := Option.some.inj h
    exact ⟨hstack, ht⟩
  · obtain ⟨-, h⟩ := Option.ite_none_right_eq_some.1 h
    obtain rfl := Option.some.inj h
    exact ⟨List.forall_mem_cons.2 ⟨fun _ hv => absurd hv List.not_mem_nil, hstack⟩, trivial⟩
  · obtain ⟨-, h⟩ := Option.ite_none_right_eq_some.1 h
    obtain rfl := Option.some.inj h
    exact ⟨List.forall_mem_cons.2 ⟨trivial, hstack⟩, trivial⟩
  · exact absurd h (by simp)

/-- A token behind a value keeps the bound: the value goes into the frame on top. -/
theorem Assembly.below_afterValue {m : Nat} {v : Json} {stack : List Frame} {t : Token}
    {a : Assembly} (hstack : ∀ f ∈ stack, f.Below m) (hv : textSize v ≤ m)
    (h : afterValue v stack t = some a) : a.Below m := by
  unfold afterValue at h
  split at h
  · next items stack =>
    obtain rfl := Option.some.inj h
    obtain ⟨hitems, hstack⟩ := List.forall_mem_cons.1 hstack
    exact ⟨List.forall_mem_cons.2 ⟨List.forall_mem_cons.2 ⟨hv, hitems⟩, hstack⟩, trivial⟩
  · next items stack =>
    obtain rfl := Option.some.inj h
    obtain ⟨hitems, hstack⟩ := List.forall_mem_cons.1 hstack
    have hall : ∀ u ∈ v :: items, textSize u ≤ m := List.forall_mem_cons.2 ⟨hv, hitems⟩
    exact ⟨hstack, textSizes_le_iff.2 fun u hu => hall u (List.mem_reverse.1 hu)⟩
  · obtain rfl := Option.some.inj h
    exact ⟨List.forall_mem_cons.2 ⟨trivial, (List.forall_mem_cons.1 hstack).2⟩, trivial⟩
  · obtain rfl := Option.some.inj h
    exact ⟨(List.forall_mem_cons.1 hstack).2, Nat.zero_le m⟩
  · exact absurd h (by simp)

/-- One token keeps the bound. -/
theorem Assembly.Below.step {m : Nat} {a a' : Assembly} {t : Token} (h : a.Below m)
    (ht : t.size ≤ m) (hstep : a.step t = some a') : a'.Below m := by
  obtain ⟨stack, expecting⟩ := a
  have hstack := h.stack
  unfold Assembly.step at hstep
  dsimp only at hstep hstack
  split at hstep
  · obtain rfl := Option.some.inj hstep
    obtain ⟨hitems, hstack⟩ := List.forall_mem_cons.1 hstack
    exact ⟨hstack, textSizes_le_iff.2 fun u hu => hitems u (List.mem_reverse.1 hu)⟩
  · exact below_value hstack ht hstep
  · exact below_value hstack ht hstep
  · obtain rfl := Option.some.inj hstep
    exact ⟨(List.forall_mem_cons.1 hstack).2, Nat.zero_le m⟩
  · obtain rfl := Option.some.inj hstep
    exact ⟨List.forall_mem_cons.2 ⟨trivial, (List.forall_mem_cons.1 hstack).2⟩, trivial⟩
  · obtain rfl := Option.some.inj hstep
    exact ⟨List.forall_mem_cons.2 ⟨trivial, (List.forall_mem_cons.1 hstack).2⟩, trivial⟩
  · obtain rfl := Option.some.inj hstep
    exact ⟨hstack, trivial⟩
  · exact below_afterValue hstack h.expecting hstep
  · exact absurd hstep (by simp)

/-- All of them do. -/
theorem Assembly.Below.foldlM {m : Nat} {a a' : Assembly} {ts : List Token} (h : a.Below m)
    (hts : ∀ t ∈ ts, t.size ≤ m) (hrun : ts.foldlM Assembly.step a = some a') : a'.Below m := by
  induction ts generalizing a with
  | nil =>
    obtain rfl := Option.some.inj hrun
    exact h
  | cons t ts ih =>
    rw [List.foldlM_cons] at hrun
    obtain ⟨a₁, hstep, hrest⟩ := Option.bind_eq_some_iff.1 hrun
    obtain ⟨ht, hts⟩ := List.forall_mem_cons.1 hts
    exact ih (h.step ht hstep) hts hrest

/-- **A value has the texts of its tokens.** -/
theorem textSize_le_of_assemble {m : Nat} {ts : List Token} {v : Json}
    (hts : ∀ t ∈ ts, t.size ≤ m) (h : assemble ts = some v) : textSize v ≤ m := by
  obtain ⟨a, hrun, h⟩ := Option.bind_eq_some_iff.1 h
  have hstart : Assembly.Below m ⟨[], .value⟩ := ⟨fun _ hf => absurd hf List.not_mem_nil, trivial⟩
  have hbelow := (hstart.foldlM hts hrun).expecting
  split at h
  · next w _ hexpecting =>
    obtain rfl := Option.some.inj h
    rw [hexpecting] at hbelow
    exact hbelow
  · exact absurd h (by simp)

/-- **What a text spells has only shorter texts.** -/
theorem textSize_lt_of_parse {s : String} {v : Json} (h : parse s = some v) :
    textSize v < s.length := by
  obtain ⟨w, hread, rfl⟩ := Option.map_eq_some_iff.1 h
  obtain ⟨ts, htokens, hassemble⟩ := Option.bind_eq_some_iff.1 hread
  have hsize := size_lt_of_tokens? htokens
  rw [String.length_toList] at hsize
  rw [textSize_normalize]
  -- Without tokens there is no value, and with one there was a character.
  cases ts with
  | nil => exact absurd hassemble (by simp [assemble])
  | cons t ts =>
    have hpos : 0 < s.length := Nat.zero_lt_of_lt (hsize t List.mem_cons_self)
    have hle := textSize_le_of_assemble (fun u hu => Nat.le_sub_one_of_lt (hsize u hu)) hassemble
    omega

/-! ## Blank texts

Some blanks of the text are no blanks of JSON. Those stop the first pass; the others are passed
over, and then there is nothing to put together. -/

/-- The characters of words and numbers are no blanks. -/
theorem isBlank_of_isWordChar {c : Char} (h : isWordChar c = true) : Text.isBlank c = false := by
  unfold isWordChar Char.isAlphanum Char.isAlpha Char.isUpper Char.isLower Char.isDigit at h
  simp only [Bool.or_eq_true, Bool.and_eq_true, decide_eq_true_eq, beq_iff_eq] at h
  rcases h with (((((⟨hlow, hhigh⟩ | ⟨hlow, hhigh⟩) | ⟨hlow, hhigh⟩) | rfl) | rfl) | rfl)
  · have hlow : 65 ≤ c.toNat := hlow
    have hhigh : c.toNat ≤ 90 := hhigh
    exact Text.isBlank_eq_false (by omega) (by omega)
  · have hlow : 97 ≤ c.toNat := hlow
    have hhigh : c.toNat ≤ 122 := hhigh
    exact Text.isBlank_eq_false (by omega) (by omega)
  · have hlow : 48 ≤ c.toNat := hlow
    have hhigh : c.toNat ≤ 57 := hhigh
    exact Text.isBlank_eq_false (by omega) (by omega)
  all_goals decide

/-- A blank between tokens begins none: it is passed over, or it is no blank of JSON. -/
theorem start_of_isBlank {c : Char} (hc : Text.isBlank c = true) :
    Mode.start c = none ∨ Mode.start c = some ([], .between) := by
  unfold Mode.start
  split
  · exact .inr rfl
  · split
    case h_8 =>
      split
      · next hword => exact absurd (isBlank_of_isWordChar hword) (by simp [hc])
      · exact .inl rfl
    all_goals exact absurd hc (by decide)

/-- **A blank text spells nothing.** -/
theorem parse_of_isBlankText {s : String} (h : Text.isBlankText s = true) : parse s = none := by
  have hscan : ∀ cs : List Char, cs.all Text.isBlank = true →
      cs.foldlM Scan.step ⟨[], .between⟩ = none ∨
        cs.foldlM Scan.step ⟨[], .between⟩ = some ⟨[], .between⟩ := by
    intro cs hcs
    induction cs with
    | nil => exact .inr rfl
    | cons c cs ih =>
      obtain ⟨hc, hcs⟩ := Bool.and_eq_true_iff.1 hcs
      rw [List.foldlM_cons]
      rcases start_of_isBlank hc with hnone | hsome
      · exact .inl (by simp [Scan.step, Mode.step, hnone])
      · have hstep : Scan.step ⟨[], .between⟩ c = some ⟨[], .between⟩ := by
          simp [Scan.step, Mode.step, hsome]
        rw [hstep]
        exact ih hcs
  unfold parse read tokens?
  rcases hscan s.toList h with hnone | hsome
  · rw [hnone]
    rfl
  · rw [hsome]
    rfl

end AdOps.Json
