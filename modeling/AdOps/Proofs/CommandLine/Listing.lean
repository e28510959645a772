import AdOps.Proofs.CommandLine.Appended

/-!
# Asking a command for its fields

A command is asked for its fields by one more word behind its line. The line is then accepted as the
same command with one more argument.

* **`parse_listing`** — the line with the word behind it stands for the same command with the
  switch.
-/

namespace AdOps

/-- The word that asks for fields. -/
def Flag.askWord : String := "/list-fields"

/-- The word gives its own flag the switch, and is nothing to anything else. -/
theorem Flag.writtenBy_askWord : listFields.WrittenBy .switch askWord where
  refused f := f.accepts_slash _
  positionals := by decide
  given f := by cases f <;> decide

/-- The command that asks for the fields of the data instead. -/
def Command.listing (c : Command) : Command :=
  { c with args := c.args.insert "list_fields" .switch }

namespace Command

variable {s : Settings} {c : Command}

/-- Of the flag that asks for fields, all that a line can give is the switch. -/
theorem eq_switch_of_mem_given {words : List String} {a : Arg}
    (h : a ∈ Flag.listFields.given words) : a = .switch := by
  obtain ⟨value, hvalue, -⟩ := Flag.exists_of_mem_given h
  exact (Option.some.inj hvalue).symm

/-- **A command that does not ask for fields** holds nothing for the flag. -/
theorem get?_listFields {text : String} (h : parse s text = .ok c)
    (hdata : c.args.switch "list_fields" = false) : c.args.get? Flag.listFields.name = none := by
  obtain ⟨line, g, captures, -, hresolved⟩ := exists_isResolved_words h
  have hheld : c.args.get? Flag.listFields.name = _ := hresolved.get?_plain rfl
  cases hchosen : s.flagPolicy.choose? (Flag.listFields.given (Text.words text)) with
  | none => rw [hheld, hchosen]
  | some a =>
    rw [hchosen, eq_switch_of_mem_given (FlagPolicy.mem_of_choose? hchosen)] at hheld
    -- A value for the flag would be the switch, and the command has it off.
    unfold Arguments.switch at hdata
    rw [show c.args.get? "list_fields" = some .switch from hheld] at hdata
    exact absurd hdata (by decide)

/-- **The line with the word that asks for fields behind it** stands for the same command with the
switch. -/
theorem parse_listing {text listing : String}
    (hwords : Text.words listing = Text.words text ++ [Flag.askWord])
    (h : parse s text = .ok c) (hdata : c.args.switch "list_fields" = false) :
    parse s listing = .ok c.listing :=
  parse_appended Flag.writtenBy_askWord hwords h rfl (get?_listFields h hdata)

end Command

end AdOps
