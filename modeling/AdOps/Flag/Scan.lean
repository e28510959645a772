import AdOps.Flag

/-!
# Flags in a text

Each flag is looked for in the text as it was typed, from left to right and by itself. Its marker
stands at the start of the text or behind a blank, and a blank or the end of the text follows it. An
occurrence covers the blank in front of it and the one behind. The search goes on at the blank
behind, which can be the blank in front of the next occurrence.
-/

namespace AdOps

/-- A flag where it was found in a text. -/
structure Occurrence where
  /-- The place of the first character that is covered. -/
  start : Nat
  /-- The blank in front, the flag with its value, and the blank behind. -/
  covered : List Char
  value : String
deriving DecidableEq

namespace Occurrence

/-- The place behind the last character that is covered. -/
def stop (o : Occurrence) : Nat := o.start + o.covered.length

def covers (o : Occurrence) (place : Nat) : Bool := o.start ≤ place && place < o.stop

/-- By how many characters the search moves on: up to the blank behind, if there is one, but never
by none. -/
def advance (o : Occurrence) : Nat :=
  let trailing := if o.covered.getLast?.any Text.isBlank then 1 else 0
  let kept := o.covered.length - trailing
  if 0 < kept then kept else o.covered.length

end Occurrence

namespace Flag

/-- Passes over what parts a name from its value: one colon, or any number of blanks. -/
def skipSeparator : List Char → List Char
  | ':' :: cs => cs
  | cs => cs.dropWhile Text.isBlank

/-- Reads a flag from its marker on: its value, and the characters behind it. -/
def ahead? (f : Flag) (cs : List Char) : Option (String × List Char) := do
  let cs ← unmark cs
  let inName (c : Char) := !Text.isBlank c && (f.isSwitch || c ≠ ':')
  let behind := cs.dropWhile inName
  if !f.isSpelled (cs.takeWhile inName) then none
  else if f.isSwitch then some ("", behind)
  else
    let cs := skipSeparator behind
    let value := cs.takeWhile (!Text.isBlank ·)
    if f.accepts value then some (String.ofList value, cs.dropWhile (!Text.isBlank ·)) else none

/-- The occurrence that begins with the first character, which stands at the place `i`. -/
def occurrenceAt? (f : Flag) (i : Nat) (cs : List Char) : Option Occurrence :=
  let found := match cs with
    | [] => none
    | c :: rest => if Text.isBlank c then f.ahead? rest else if i = 0 then f.ahead? cs else none
  found.map fun (value, behind) => ⟨i, cs.take (cs.length - behind.tail.length), value⟩

/-- Looks for the flag from the place `i` on, behind the first `skip` characters. -/
def occurrencesFrom (f : Flag) (i : Nat) : (skip : Nat) → List Char → List Occurrence
  | _, [] => []
  | skip + 1, _ :: cs => f.occurrencesFrom (i + 1) skip cs
  | 0, c :: cs =>
    match f.occurrenceAt? i (c :: cs) with
    | some o => o :: f.occurrencesFrom (i + 1) (o.advance - 1) cs
    | none => f.occurrencesFrom (i + 1) 0 cs

/-- Where the flag stands in a text, in order. -/
def occurrences (f : Flag) (cs : List Char) : List Occurrence := f.occurrencesFrom 0 0 cs

/-- The arguments that a text gives for the flag, in order. A value that stands for none is passed
over. -/
def arguments (f : Flag) (cs : List Char) : List Arg :=
  (f.occurrences cs).filterMap fun o => f.argument? o.value

end Flag

end AdOps
