import AdOps.Platform
import AdOps.Record

/-!
# Issues

An issue is what went wrong with a single record without ending the command. Issues travel next to
the answer, in the order in which they came up, and are never merged with one another.
-/

namespace AdOps

structure Issue where
  message : String
  id : Option String := none
  name : Option String := none
  platform : Option Platform := none
deriving DecidableEq

namespace Issue

/-- The message for a record that names no tracker campaign. -/
def missingTracker : String := "Missing Tracker ID Reference"

def unjoinable (platform : Platform) (id name : String) : Issue :=
  ⟨missingTracker, some id, some name, some platform⟩

def toRecord (i : Issue) : Record :=
  let put := fun (r : Record) (field : String) (value : Option String) =>
    match value with
    | some s => r.insert field (.string s)
    | none => r
  let r : Record := NameMap.empty.insert "message" (.string i.message)
  put (put (put r "id" i.id) "name" i.name) "platform" (i.platform.map Platform.name)

end Issue

end AdOps
