import AdOps.Settings.Entry

/-!
# Outlines of settings documents

An outline says what stands at each path of a document, a path being the names from the top down to
a value or a table. It grows line by line: a header adds a table, an entry adds a value, and both
add the tables on their way. Nothing is written twice, and how a table came about decides what may
still be added to it.
-/

namespace AdOps.SettingsDocument

/-- The names from the top of a document down to one of its parts. -/
abbrev Path := List String

inductive Node where
  | value (v : SettingValue)
  /-- A table or list that was written as a value, and is complete. -/
  | closed
  /-- A table with a header of its own. -/
  | opened
  /-- A table that only headers of its parts have named; its own header may follow. -/
  | implied
  /-- A table that only names with dots have named. -/
  | dotted

namespace Node

/-- Whether a header may name parts of what stands here. -/
def hasParts : Node → Bool
  | .opened | .implied | .dotted => true
  | .value _ | .closed => false

/-- Whether an entry may name parts of what stands here behind a dot. -/
def isDotted : Node → Bool
  | .dotted => true
  | _ => false

/-- What becomes of a part of a table that is written as a value. -/
def close : Node → Node
  | .value v => .value v
  | _ => .closed

end Node

/-- What stands at each path, every path once. -/
abbrev Outline := List (Path × Node)

/-- The paths below `table` on the way to the names, the last one included. -/
def pathsTo (table : Path) : List String → List Path
  | [] => []
  | name :: names => (table ++ [name]) :: pathsTo (table ++ [name]) names

namespace Outline

/-- Passes a table on the way to something else: a new one, or one that allows it. -/
def pass? (new : Node) (allows : Node → Bool) (o : Outline) (path : Path) : Option Outline :=
  match o.lookup path with
  | none => some ((path, new) :: o)
  | some n => if allows n then some o else none

/-- Adds a table for a header. Headers of its parts may stand before its own. -/
def addTable? (o : Outline) (path : Path) : Option Outline := do
  let o ← (pathsTo [] path.dropLast).foldlM (pass? .implied Node.hasParts) o
  match o.lookup path with
  | none | some .implied => some ((path, .opened) :: o.filter (·.1 ≠ path))
  | some _ => none

/-- Adds a value, given by its own outline, under the names below a table. -/
def addEntry? (o : Outline) (table : Path) (names : List String) (value : Outline) :
    Option Outline := do
  let o ← (pathsTo table names.dropLast).foldlM (pass? .dotted Node.isDotted) o
  let path := table ++ names
  match o.lookup path with
  | none => some (value.map (fun e => (path ++ e.1, e.2)) ++ o)
  | some _ => none

/-- The outline of a table that is written as a value and has these parts. -/
def close (parts : Outline) : Outline := ([], .closed) :: parts.map fun e => (e.1, e.2.close)

/-- The value of the setting `name`, where `n` stands: a value, or the name of the only part of a
table if that part is empty. -/
def valueOf? (o : Outline) (name : String) : Node → Option SettingValue
  | .value v => some v
  | _ =>
    match o.filter fun e => e.1.head? = some name && e.1.length ≠ 1 with
    | [([_, choice], n)] =>
      match n with
      | .value _ => none
      | _ => some (.choice choice)
    | _ => none

/-- What stands at the top of a document, by name. -/
def top (o : Outline) : List (String × Node) :=
  o.filterMap fun
    | ([name], n) => some (name, n)
    | _ => none

/-- The settings of a document, of which nothing else may stand at the top. -/
def entries? (o : Outline) : Option SettingEntries :=
  o.top.mapM fun e => (o.valueOf? e.1 e.2).map (e.1, ·)

end Outline

end AdOps.SettingsDocument
