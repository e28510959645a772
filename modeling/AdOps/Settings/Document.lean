import AdOps.Settings.Document.Outline
import AdOps.Settings.Document.Scalar

/-!
# Settings documents

A settings document has one setting per line, `name = value`, with comments behind a `#`. Names may
be quoted, and a value can be a table of further entries. There are three ways to write a table: a
line `[name]` says where the lines below it belong, a name with dots leads through tables, and
braces hold a table on one line. A document that holds anything else, such as a list with items, is
not a settings document.
-/

namespace AdOps.SettingsDocument

/-! ## Names -/

def isBareName (c : Char) : Bool := c.isAlphanum || c = '_' || c = '-'

/-- Reads a name: bare, or in quotes that stay within the line. -/
def name? (cs : List Char) : Step String :=
  match cs with
  | '"' :: '"' :: '"' :: _ | '\'' :: '\'' :: '\'' :: _ => none
  | '"' :: _ | '\'' :: _ => quoted? cs
  | cs =>
    let name := cs.takeWhile isBareName
    if name.isEmpty then none else some (String.ofList name, cs.dropWhile isBareName)

/-- Reads names with dots between them and blanks around them, at most as many as `fuel`. -/
def namesFrom? : (fuel : Nat) → List Char → Option (List String × List Char)
  | 0, _ => none
  | fuel + 1, cs => do
    let (name, cs) ← name? (skipBlanks cs)
    match skipBlanks cs with
    | '.' :: cs =>
      let (names, cs) ← namesFrom? fuel cs
      return (name :: names, cs)
    | cs => return ([name], cs)

/-- Reads names with dots between them. Each takes a character. -/
def names? (cs : List Char) : Step (List String) := namesFrom? cs.length cs

/-! ## Values -/

/-- Skips blanks, a comment and the end of the line, of which at least the end has to be there. -/
def lineEnd? (cs : List Char) : Option (List Char) :=
  let cs := skipBlanks cs
  let cs := if cs.head? = some '#' then cs.dropWhile isPrintable else cs
  if cs.isEmpty then some [] else newline? cs

/-- Reads the inside of a list without items, on at most as many lines as `fuel`. -/
def emptyListFrom? : (fuel : Nat) → List Char → Step Outline
  | 0, _ => none
  | fuel + 1, cs =>
    match skipBlanks cs with
    | ']' :: cs => some ([([], .closed)], cs)
    | [] => none
    | cs => (lineEnd? cs).bind (emptyListFrom? fuel)

mutual

/-- Reads a value, with `fuel` for the values and entries inside. -/
def valueFrom? : (fuel : Nat) → List Char → Step Outline
  | 0, _ => none
  | fuel + 1, cs =>
    match cs with
    | '{' :: cs =>
      match skipBlanks cs with
      | '}' :: cs => some (Outline.close [], cs)
      | cs => (entriesFrom? fuel [] cs).map fun (parts, cs) => (parts.close, cs)
    | '[' :: cs => emptyListFrom? (cs.length + 1) cs
    | cs => (scalar? cs).map fun (v, cs) => ([([], .value v)], cs)

/-- Reads the entries of a table in braces, behind those already read. -/
def entriesFrom? : (fuel : Nat) → Outline → List Char → Option (Outline × List Char)
  | 0, _, _ => none
  | fuel + 1, parts, cs => do
    let (names, cs) ← names? cs
    match cs with
    | '=' :: cs =>
      let (value, cs) ← valueFrom? fuel (skipBlanks cs)
      let parts ← parts.addEntry? [] names value
      match skipBlanks cs with
      | ',' :: cs => entriesFrom? fuel parts cs
      | '}' :: cs => return (parts, cs)
      | _ => none
    | _ => none

end

/-- Reads a value. Every value and entry inside takes a character. -/
def value? (cs : List Char) : Step Outline := valueFrom? (cs.length + 1) cs

/-! ## Lines -/

/-- What was read of a document: its outline, and the table that entries belong to. -/
structure Draft where
  outline : Outline := []
  table : Path := []

/-- Reads a header, `[names]`, up to the end of the line. -/
def header? (d : Draft) (cs : List Char) : Option (Draft × List Char) := do
  let (path, cs) ← names? cs
  match cs with
  | ']' :: cs =>
    let outline ← d.outline.addTable? path
    return ({ outline, table := path }, ← lineEnd? cs)
  | _ => none

/-- Reads an entry, `names = value`, up to the end of the line. -/
def entry? (d : Draft) (cs : List Char) : Option (Draft × List Char) := do
  let (names, cs) ← names? cs
  match cs with
  | '=' :: cs =>
    let (value, cs) ← value? (skipBlanks cs)
    let outline ← d.outline.addEntry? d.table names value
    return ({ d with outline }, ← lineEnd? cs)
  | _ => none

/-- Reads lines, of which there are at most as many as `fuel`. -/
def linesFrom? (fuel : Nat) (d : Draft) (cs : List Char) : Option Draft :=
  match fuel, cs with
  | _, [] => some d
  | 0, _ => none
  | fuel + 1, cs =>
    match lineEnd? cs with
    | some rest => linesFrom? fuel d rest
    | none => do
      let (d, rest) ← match skipBlanks cs with
        | '[' :: cs => header? d cs
        | cs => entry? d cs
      linesFrom? fuel d rest

/-- The outline of a document. A byte order mark may stand in front. Each line takes a character, so
that there are no more lines than characters. -/
def outline? (source : String) : Option Outline :=
  let cs := match source.toList with
    | '\uFEFF' :: cs => cs
    | cs => cs
  (linesFrom? (cs.length + 1) {} cs).map (·.outline)

end AdOps.SettingsDocument

namespace AdOps

inductive SettingsFailure where
  /-- It is no settings document, or it names an unknown setting or a value of the wrong type. -/
  | unreadable
  | invalid (e : InvalidSetting)

/-- The settings that a document describes, if they are valid. -/
def Settings.ofDocument (source : String) : Except SettingsFailure Settings :=
  let entries := (SettingsDocument.outline? source).bind SettingsDocument.Outline.entries?
  match entries.bind Settings.ofEntries? with
  | none => .error .unreadable
  | some s =>
    match s.invalid? with
    | some e => .error (.invalid e)
    | none => .ok s

end AdOps
