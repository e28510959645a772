import AdOps.Flag.Scan

/-!
# What words are to a flag

A line can also be looked at as a list of words. `Flag.roles` walks over the words and tells for
each one what it is to a flag. A value word belongs to the marker before it, so a walk goes on
behind it.

* **`length_roles`** — every word has exactly one role.
-/

namespace AdOps

/-- What a word is to one flag. -/
inductive Role where
  /-- Nothing. -/
  | outside
  /-- The whole flag: the marker of a switch, or a marker with its value in the same word. -/
  | whole (value : String)
  /-- A marker whose value is the next word. -/
  | marker (value : String)
  /-- The value of the marker before. -/
  | operand
deriving DecidableEq

/-- The value that a word brings along. -/
def Role.given? : Role → Option String
  | .whole value | .marker value => some value
  | .outside | .operand => none

namespace Flag

/-- What a word is to a flag, given the word that follows. -/
def roleOf (f : Flag) (word : String) (next : Option String) : Role :=
  match unmark word.toList with
  | none => .outside
  | some cs =>
    if f.isSwitch then if f.isSpelled cs then .whole "" else .outside
    else
      -- With a colon the value is what stands behind it, and the next word is not looked at.
      let name := cs.takeWhile (· ≠ ':')
      if !f.isSpelled name then .outside
      else match cs.dropWhile (· ≠ ':'), next with
        | _ :: value, _ => if f.accepts value then .whole (String.ofList value) else .outside
        | [], some next => if f.accepts next.toList then .marker next else .outside
        | [], none => .outside

/-- The role of every word; `owed` says that the first word is a value. -/
def rolesFrom (f : Flag) (owed : Bool) : List String → List Role
  | [] => []
  | word :: words =>
    if owed then .operand :: rolesFrom f false words
    else match f.roleOf word words.head? with
      | .marker value => .marker value :: rolesFrom f true words
      | role => role :: rolesFrom f false words

/-- What each word of a line is to the flag. -/
def roles (f : Flag) (words : List String) : List Role := f.rolesFrom false words

/-- The arguments that a line of words gives for a flag, in order. -/
def given (f : Flag) (words : List String) : List Arg :=
  (f.roles words).filterMap fun role => role.given?.bind f.argument?

/-- Every word has one role, wherever the walk begins. -/
theorem length_rolesFrom (f : Flag) (owed : Bool) (words : List String) :
    (f.rolesFrom owed words).length = words.length := by
  -- Induction on the words, whether the first of them is owed or not.
  induction words generalizing owed with
  | nil => rfl
  | cons word words ih =>
    rw [rolesFrom]
    split
    · simp [ih]
    · split <;> simp [ih]

/-- Every word has exactly one role. -/
theorem length_roles (f : Flag) (words : List String) : (f.roles words).length = words.length :=
  length_rolesFrom f false words

end Flag

end AdOps
